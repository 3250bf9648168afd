import CommandContract.Proofs.Blob.Classify
import CommandContract.Proofs.Text.Run

set_option autoImplicit false

/-!
# Recognising base64 and data URLs

What is written for bytes is recognised again: in a data URL with a media type and any parameters,
and by itself if it is long enough not to be taken for a path. A text that begins as a data URL is
no path, and any other text is one exactly if it is too short, of a wrong length, or does not
decode.
-/
namespace CommandContract

namespace Base64

/-- The base64 text of bytes. -/
def text (b : List UInt8) : List Char := (encode (b.map UInt8.toNat)).map Char.ofNat

variable {b : List UInt8} {cs : List Char} {c : Char} {out : List Nat}

theorem toNat_lt (b : List UInt8) : ∀ byte ∈ b.map UInt8.toNat, byte < 256 := by
  intro byte h
  obtain ⟨first, _, rfl⟩ := List.mem_map.mp h
  exact first.toNat_lt

theorem exists_padded_text (b : List UInt8) :
    ∃ symbols pads, text b = (padded symbols pads).map Char.ofNat ∧
      (∀ bits ∈ symbols, bits < 64) ∧ pads ≤ 2 ∧ (symbols = [] → b = []) := by
  obtain ⟨symbols, pads, same, six, few, none⟩ := exists_padded (toNat_lt b)
  exact ⟨symbols, pads, congrArg (List.map Char.ofNat) same, six, few,
    fun h => List.map_eq_nil_iff.mp (none h)⟩

theorem utf8_text (b : List UInt8) :
    Text.utf8 (String.ofList (text b)) = encode (b.map UInt8.toNat) := by
  obtain ⟨symbols, pads, same, -⟩ := exists_padded (toNat_lt b)
  refine Text.utf8_ascii fun byte h => ?_
  rw [same] at h
  exact (bounds_of_mem_padded h).2

theorem decode_text_iff :
    decode (Text.utf8 (String.ofList cs)) = .ok (b.map UInt8.toNat) ↔ cs = text b := by
  rw [decode_eq_ok_iff]
  constructor
  · rintro ⟨same, -⟩
    exact String.ofList_injective (Text.utf8_inj (same.symm.trans (utf8_text b).symm))
  · rintro rfl
    exact ⟨(utf8_text b).symm, toNat_lt b⟩

theorem decode_text (b : List UInt8) :
    decode (Text.utf8 (String.ofList (text b))) = .ok (b.map UInt8.toNat) :=
  decode_text_iff.mpr rfl

theorem exists_text_of_decode (h : decode (Text.utf8 (String.ofList cs)) = .ok out) :
    ∃ b : List UInt8, out = b.map UInt8.toNat ∧ cs = text b := by
  have small := (decode_eq_ok_iff.mp h).2
  have same : (out.map UInt8.ofNat).map UInt8.toNat = out := by
    rw [List.map_map]
    exact (List.map_congr_left fun byte hm => UInt8.toNat_ofNat_of_lt' (small byte hm)).trans
      (List.map_id out)
  exact ⟨out.map UInt8.ofNat, same.symm, decode_text_iff.mp (same.symm ▸ h)⟩

theorem byteLength_text (b : List UInt8) : Text.byteLength (text b) = 4 * ((b.length + 2) / 3) := by
  rw [Text.byteLength_eq, ← Text.length_utf8, utf8_text, length_encode, List.length_map]

theorem isBase64Symbol_symbol {bits : Nat} (six : bits < 64) :
    Blob.isBase64Symbol (Char.ofNat (symbol bits)) = true := by
  have all : ∀ bits < 64, Blob.isBase64Symbol (Char.ofNat (symbol bits)) = true := by decide
  exact all bits six

theorem mem_text (h : c ∈ text b) : Blob.isBase64Symbol c = true ∨ c = '=' := by
  obtain ⟨symbols, pads, same, six, -⟩ := exists_padded_text b
  rw [same] at h
  obtain ⟨byte, hm, rfl⟩ := List.mem_map.mp h
  rcases List.mem_append.mp hm with hm | hm
  · obtain ⟨bits, hb, rfl⟩ := List.mem_map.mp hm
    exact .inl (isBase64Symbol_symbol (six bits hb))
  · rw [List.eq_of_mem_replicate hm]
    exact .inr rfl

theorem isBlank_of_mem_text (h : c ∈ text b) : Text.isBlank c = false :=
  isBlank_of_decode (decode_text b) c h

end Base64

namespace Blob

variable {tree : FileTree} {b : List UInt8} {cs mime data : List Char} {params : List (List Char)}
  {text : String}

/-! ## Base64 by itself -/

/-- The text of bytes is of the form that is tried as base64. -/
theorem hasBase64Shape_text (ne : b ≠ []) : hasBase64Shape (Base64.text b) = true := by
  obtain ⟨symbols, pads, same, six, few, none⟩ := Base64.exists_padded_text b
  have run : Text.Run isBase64Symbol (Base64.text b)
      (symbols.map fun bits => Char.ofNat (Base64.symbol bits)) (List.replicate pads '=') := by
    refine ⟨?_, ?_, ?_⟩
    · rw [same, Base64.padded, List.map_append, List.map_map, List.map_replicate]
      rfl
    · intro c hc
      obtain ⟨bits, hb, rfl⟩ := List.mem_map.mp hc
      exact Base64.isBase64Symbol_symbol (six bits hb)
    · intro c hc
      rw [List.eq_of_mem_replicate (List.mem_of_mem_head? hc)]
      rfl
  have some_symbols : symbols ≠ [] := fun h => ne (none h)
  rw [hasBase64Shape, Text.run_iff.mp run]
  simp [some_symbols, few]

theorem bareBase64Size?_text (long : minBareBase64 ≤ Text.byteLength (Base64.text b)) :
    bareBase64Size? (Base64.text b) = some b.length := by
  have length := Base64.byteLength_text b
  have ne : b ≠ [] := by
    rintro rfl
    exact absurd long (by decide)
  have decoded : Base64.decode (bytesOf (Base64.text b)) = .ok (b.map UInt8.toNat) :=
    Base64.decode_text b
  unfold bareBase64Size?
  rw [if_neg (by simp [hasBase64Shape_text ne]; omega), decoded]
  simp [Except.toOption]

/-- A text is no base64 by itself if it is short, of a wrong length, or does not decode: the form
that is asked for besides follows from decoding. -/
theorem bareBase64Size?_eq_none_iff :
    bareBase64Size? cs = none ↔ Text.byteLength cs < minBareBase64 ∨ Text.byteLength cs % 4 ≠ 0 ∨
      ∀ out, Base64.decode (bytesOf cs) ≠ .ok out := by
  constructor
  · intro none
    by_contra held
    push Not at held
    obtain ⟨long, -, out, decoded⟩ := held
    obtain ⟨b, -, rfl⟩ := Base64.exists_text_of_decode decoded
    rw [bareBase64Size?_text long] at none
    cases none
  · intro h
    unfold bareBase64Size?
    rcases h with short | odd | undecodable
    · rw [if_pos (by simp [short])]
    · rw [if_pos (by simp [odd])]
    · cases decoded : Base64.decode (bytesOf cs) with
      | ok out => exact absurd decoded (undecodable out)
      | error cause => exact ite_self none

/-! ## Data URLs -/

/-- Parameters, each behind a semicolon, and the data behind the last of them. -/
def dataPart (params : List (List Char)) (data : List Char) : List Char :=
  params.flatMap (';' :: ·) ++ (";base64,".toList ++ data)

def dataUrl (mime : List Char) (params : List (List Char)) (data : List Char) : List Char :=
  "data:".toList ++ (mime ++ dataPart params data)

/-- What stands between two marks of a data URL has none of them in it. -/
def UrlPart (cs : List Char) : Prop := ∀ c ∈ cs, c ≠ ';' ∧ c ≠ ','

theorem UrlPart.all (h : UrlPart cs) : ∀ c ∈ cs, isUrlPart c = true := by
  intro c hc
  simp [isUrlPart, h c hc]

theorem dataPart_cons (p : List Char) (params : List (List Char)) (data : List Char) :
    dataPart (p :: params) data = ';' :: (p ++ dataPart params data) := by
  rw [dataPart, List.flatMap_cons, List.cons_append, List.cons_append, List.append_assoc, dataPart]

theorem exists_dataPart (params : List (List Char)) (data : List Char) :
    ∃ more, dataPart params data = ';' :: more := by
  cases params with
  | nil => exact ⟨_, rfl⟩
  | cons p params => exact ⟨_, dataPart_cons p params data⟩

theorem run_dataPart (part : UrlPart cs) (params : List (List Char)) (data : List Char) :
    Text.Run isUrlPart (cs ++ dataPart params data) cs (dataPart params data) := by
  refine ⟨rfl, part.all, fun c hc => ?_⟩
  obtain ⟨more, begins⟩ := exists_dataPart params data
  rw [begins] at hc
  obtain rfl := Option.some.inj hc
  rfl

/-- A parameter is not taken for the mark of the data, even if it begins as the mark does. -/
theorem dropLeading?_param (part : UrlPart cs) (params : List (List Char)) (data : List Char) :
    Text.dropLeading? ";base64,".toList (';' :: (cs ++ dataPart params data)) = none := by
  rw [← Option.not_isSome_iff_eq_none, Text.isSome_dropLeading?_iff]
  rintro ⟨behind, same⟩
  -- read as a mark the text has a comma behind its first run, read as a parameter a semicolon
  have marked :
      Text.Run isUrlPart (cs ++ dataPart params data) "base64".toList (',' :: behind) := by
    refine ⟨(List.cons.inj same).2.symm, List.all_eq_true.mp rfl, fun c hc => ?_⟩
    obtain rfl := Option.some.inj hc
    rfl
  have own := Text.run_iff.mp (run_dataPart part params data)
  have alike := (Text.run_iff.mp marked).symm.trans own
  obtain ⟨more, begins⟩ := exists_dataPart params data
  rw [begins] at alike
  cases (Prod.mk.inj alike).2

theorem dataPart?_dataPart {fuel : Nat} (enough : params.length < fuel)
    (parts : ∀ p ∈ params, p ≠ [] ∧ UrlPart p) :
    dataPart? fuel (dataPart params data) = some data := by
  induction params generalizing fuel with
  | nil =>
    obtain ⟨fuel, rfl⟩ := Nat.exists_eq_succ_of_ne_zero (Nat.ne_of_gt enough)
    have found : Text.dropLeading? ";base64,".toList (dataPart [] data) = some data :=
      Text.dropLeading?_append _ data
    unfold dataPart?
    rw [found]
  | cons p params ih =>
    rw [List.forall_mem_cons] at parts
    obtain ⟨⟨ne, part⟩, parts⟩ := parts
    obtain ⟨fuel, rfl⟩ := Nat.exists_eq_succ_of_ne_zero (Nat.ne_of_gt (Nat.zero_lt_of_lt enough))
    cases p with
    | nil => exact absurd rfl ne
    | cons c p =>
      have past : Text.dropLeading? ";base64,".toList (';' :: c :: (p ++ dataPart params data)) =
          none := dropLeading?_param part params data
      have first : isUrlPart c = true := part.all c List.mem_cons_self
      have rest := Text.run_iff.mp
        (run_dataPart (fun d hd => part d (List.mem_cons_of_mem c hd)) params data)
      rw [List.span_eq_takeWhile_dropWhile] at rest
      unfold dataPart?
      rw [dataPart_cons, List.cons_append, past]
      simp only [first, if_true, (Prod.mk.inj rest).2]
      exact ih (Nat.lt_of_succ_lt_succ enough) parts

theorem length_le_dataPart (params : List (List Char)) (data : List Char) :
    params.length ≤ (dataPart params data).length := by
  induction params with
  | nil => exact Nat.zero_le _
  | cons p params ih =>
    rw [dataPart_cons, List.length_cons, List.length_cons, List.length_append]
    omega

theorem dataUrlParts?_dataUrl (part : UrlPart mime) (parts : ∀ p ∈ params, p ≠ [] ∧ UrlPart p) :
    dataUrlParts? (dataUrl mime params data) = some (mime, data) := by
  have behind : Text.dropLeading? "data:".toList (dataUrl mime params data) =
      some (mime ++ dataPart params data) := Text.dropLeading?_append _ _
  have enough : params.length < (dataUrl mime params data).length + 1 := by
    have some_length := length_le_dataPart params data
    rw [dataUrl, List.length_append, List.length_append]
    omega
  unfold dataUrlParts?
  rw [behind, Option.bind_eq_bind, Option.bind_some,
    Text.run_iff.mp (run_dataPart part params data)]
  dsimp only
  rw [dataPart?_dataPart enough parts]
  rfl

theorem tight_dataUrl (mime : List Char) (params : List (List Char)) (b : List UInt8) :
    Text.Tight (dataUrl mime params (Base64.text b)) := by
  have front : Text.Tight "data:".toList :=
    Text.tight_of_all (by decide) (Text.not_isBlank_of_all (by decide))
  have back : Text.Tight (";base64,".toList ++ Base64.text b) := by
    refine Text.tight_of_all (by simp) fun c hc => ?_
    rcases List.mem_append.mp hc with hc | hc
    · exact Text.not_isBlank_of_all (by decide) c hc
    · exact Base64.isBlank_of_mem_text hc
  have whole := front.append (mime ++ params.flatMap (';' :: ·)) back
  rwa [List.append_assoc, List.append_assoc] at whole

theorem classifyDataUrl_dataUrl (part : UrlPart mime) (parts : ∀ p ∈ params, p ≠ [] ∧ UrlPart p) :
    classifyDataUrl (dataUrl mime params (Base64.text b)) =
      .ok ⟨.dataUrl, some (String.ofList (Base64.text b)), none, some (mediaType mime),
        some b.length⟩ := by
  have decoded : Base64.decode (bytesOf (Text.trim (Base64.text b))) = .ok (b.map UInt8.toNat) := by
    rw [Base64.trim_of_decode (Base64.decode_text b)]
    exact Base64.decode_text b
  rw [classifyDataUrl_eq_ok_iff]
  refine ⟨mime, Base64.text b, _, dataUrlParts?_dataUrl part parts, decoded, ?_⟩
  rw [List.length_map]

/-- In ASCII there is only one way to write in small letters. -/
theorem mediaType_of_ascii (ascii : ∀ c ∈ mime, c.toNat < 128) :
    mediaType mime =
      if Text.trim mime = [] then "text/plain"
      else Text.lower (String.ofList (Text.trim mime)) := by
  have low : ∀ cs : List Char, (∀ c ∈ cs, c.toNat < 128) → ∀ before,
      Text.lowerFrom before cs = cs.map Char.toLower := by
    intro cs
    induction cs with
    | nil => exact fun _ _ => rfl
    | cons c cs ih =>
      intro small before
      rw [List.forall_mem_cons] at small
      have other : c ≠ 'Σ' := by
        rintro rfl
        exact absurd small.1 (by decide)
      rw [Text.lowerFrom, if_neg other, Text.lowerChar, if_pos small.1, ih small.2]
      rfl
  rw [mediaType, Text.lower, String.toList_ofList,
    low _ fun c hc => ascii c ((Text.trim_isInfix mime).subset hc)]

/-! ## The choice -/

theorem kind_of_classifyDataUrl {r : BlobRecord} (h : classifyDataUrl cs = .ok r) :
    r.kind = .dataUrl := by
  obtain ⟨_, _, _, _, _, rfl⟩ := classifyDataUrl_eq_ok_iff.mp h
  rfl

theorem classify_dataUrl (part : UrlPart mime) (parts : ∀ p ∈ params, p ≠ [] ∧ UrlPart p) :
    classify tree (String.ofList (dataUrl mime params (Base64.text b))) =
      .ok ⟨.dataUrl, some (String.ofList (Base64.text b)), none, some (mediaType mime),
        some b.length⟩ := by
  have whole : Text.trim (String.ofList (dataUrl mime params (Base64.text b))).toList =
      dataUrl mime params (Base64.text b) := by
    rw [String.toList_ofList, Text.trim_of_tight (tight_dataUrl mime params b)]
  have begins : "data:".toList <+: dataUrl mime params (Base64.text b) := List.prefix_append _ _
  rw [classify_of_dataUrl (whole.symm ▸ begins), whole, classifyDataUrl_dataUrl part parts]

theorem classify_base64 (long : 10 ≤ b.length) :
    classify tree (String.ofList (Base64.text b)) =
      .ok ⟨.base64, some (String.ofList (Base64.text b)), none, none, some b.length⟩ := by
  have whole : Text.trim (String.ofList (Base64.text b)).toList = Base64.text b := by
    rw [String.toList_ofList, Base64.trim_of_decode (Base64.decode_text b)]
  have other : ¬ "data:".toList <+: Base64.text b := by
    intro begins
    have colon : ':' ∈ Base64.text b := begins.subset (by decide)
    exact absurd (Base64.mem_text colon) (by decide)
  have enough : minBareBase64 ≤ Text.byteLength (Base64.text b) := by
    rw [Base64.byteLength_text, minBareBase64]
    omega
  rw [classify_of_other (whole.symm ▸ other), whole, bareBase64Size?_text enough,
    String.trimBlank, whole]

/-- A text is a path if it neither begins as a data URL nor is base64 by itself. -/
theorem isPath_iff :
    (∃ r, classify tree text = .ok r ∧ r.kind = .path) ↔
      ¬ "data:".toList <+: Text.trim text.toList ∧
        bareBase64Size? (Text.trim text.toList) = none := by
  by_cases begins : "data:".toList <+: Text.trim text.toList
  · rw [classify_of_dataUrl begins]
    constructor
    · rintro ⟨r, made, kind⟩
      rw [kind_of_classifyDataUrl made] at kind
      cases kind
    · exact fun h => absurd begins h.1
  · rw [classify_of_other begins]
    cases bareBase64Size? (Text.trim text.toList) with
    | some size =>
      constructor
      · rintro ⟨r, made, kind⟩
        cases made
        cases kind
      · rintro ⟨-, none⟩
        cases none
    | none => exact ⟨fun _ => ⟨begins, rfl⟩, fun _ => ⟨_, rfl, rfl⟩⟩

/-- What is written for bytes is recognised, in a data URL with any media type and parameters and,
from ten bytes on, by itself. A text that begins as a data URL is one or an error, and paths are
exactly the other texts that are short, of a wrong length, or written for no bytes. -/
theorem classify_recognizes :
    (∀ tree (b : List UInt8) mime params, UrlPart mime → (∀ p ∈ params, p ≠ [] ∧ UrlPart p) →
      classify tree (String.ofList (dataUrl mime params (Base64.text b))) =
        .ok ⟨.dataUrl, some (String.ofList (Base64.text b)), none, some (mediaType mime),
          some b.length⟩) ∧
    (∀ mime, (∀ c ∈ mime, c.toNat < 128) → mediaType mime =
      if Text.trim mime = [] then "text/plain"
      else Text.lower (String.ofList (Text.trim mime))) ∧
    (∀ tree (b : List UInt8), 10 ≤ b.length →
      classify tree (String.ofList (Base64.text b)) =
        .ok ⟨.base64, some (String.ofList (Base64.text b)), none, none, some b.length⟩) ∧
    (∀ tree text, "data:".toList <+: text.trimBlank.toList →
      (∃ r, classify tree text = .ok r ∧ r.kind = .dataUrl) ∨ ∃ e, classify tree text = .error e) ∧
    (∀ tree text, (∃ r, classify tree text = .ok r ∧ r.kind = .path) ↔
      ¬ "data:".toList <+: text.trimBlank.toList ∧
        (text.trimBlank.utf8ByteSize < 16 ∨ text.trimBlank.utf8ByteSize % 4 ≠ 0 ∨
          ∀ bytes, Base64.decode (Text.utf8 text.trimBlank) ≠ .ok bytes)) ∧
    ∀ text (b : List UInt8), Base64.decode (Text.utf8 text) = .ok (b.map UInt8.toNat) ↔
      text = String.ofList (Base64.text b) := by
  refine ⟨fun tree b mime params => classify_dataUrl, fun mime => mediaType_of_ascii,
    fun tree b => classify_base64, fun tree text begins => ?_, fun tree text => ?_,
    fun text b => ?_⟩
  · rw [Text.toList_trimBlank] at begins
    rw [classify_of_dataUrl begins]
    cases made : classifyDataUrl (Text.trim text.toList) with
    | ok r => exact .inl ⟨r, rfl, kind_of_classifyDataUrl made⟩
    | error e => exact .inr ⟨e, rfl⟩
  · rw [isPath_iff, bareBase64Size?_eq_none_iff, Text.toList_trimBlank, Text.byteLength_eq]
    rfl
  · rw [← String.ofList_toList (s := text), Base64.decode_text_iff, String.ofList_inj]

theorem classify_recognizes_hello :
    classify ⟨[], []⟩ "data: Text/Plain;charset=utf-8;base64;base64,aGVsbG8=" =
        .ok ⟨.dataUrl, some "aGVsbG8=", none, some "text/plain", some 5⟩ ∧
      mediaType " Text/Plain".toList = Text.lower "Text/Plain" ∧
      classify ⟨[], []⟩ "aGVsbG8gd29ybGQhISE=" =
        .ok ⟨.base64, some "aGVsbG8gd29ybGQhISE=", none, none, some 14⟩ ∧
      ((∃ r, classify ⟨[], []⟩ "data:image/png,plain" = .ok r ∧ r.kind = .dataUrl) ∨
        ∃ e, classify ⟨[], []⟩ "data:image/png,plain" = .error e) := by
  obtain ⟨urls, ascii, bare, begun, -⟩ := classify_recognizes
  have short := urls ⟨[], []⟩ [104, 101, 108, 108, 111] " Text/Plain".toList
    ["charset=utf-8".toList, "base64".toList] (by simp [UrlPart]) (by simp [UrlPart])
  have long := bare ⟨[], []⟩
    [104, 101, 108, 108, 111, 32, 119, 111, 114, 108, 100, 33, 33, 33] (by decide)
  exact ⟨short, ascii " Text/Plain".toList (by simp), long, begun ⟨[], []⟩ _ (by decide)⟩

end Blob

end CommandContract
