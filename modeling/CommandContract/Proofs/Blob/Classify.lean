import CommandContract.Blob.Normalize
import CommandContract.Proofs.Blob.Base64
import CommandContract.Proofs.Text.Pieces
import CommandContract.Proofs.Text.Trim

set_option autoImplicit false

/-!
# What a text is classified as

A text is the path that is left of it without the blanks at its ends, or a part of it decodes, once
trimmed, and the record tells the number of decoded bytes.
-/
namespace CommandContract.Blob

variable {tree : FileTree} {text : String} {r : BlobRecord}

theorem dataPart?_suffix {fuel : Nat} {cs data : List Char} (h : dataPart? fuel cs = some data) :
    data <:+ cs := by
  fun_induction dataPart? fuel cs with
  | case1 => cases h
  | case2 fuel cs data' found =>
    cases h
    exact Text.dropLeading?_suffix found
  | case3 fuel c rest _ _ ih =>
    have behind : rest.dropWhile isUrlPart <:+ ';' :: c :: rest :=
      (List.dropWhile_suffix isUrlPart).trans
        ((List.suffix_cons c rest).trans (List.suffix_cons ';' (c :: rest)))
    exact (ih h).trans behind
  | case4 => cases h
  | case5 => cases h

theorem dataUrlParts?_suffix {cs mime data : List Char} (h : dataUrlParts? cs = some (mime, data)) :
    data <:+ cs := by
  simp only [dataUrlParts?, Option.bind_eq_bind, Option.bind_eq_some_iff,
    List.span_eq_takeWhile_dropWhile, Option.some.injEq, Prod.mk.injEq] at h
  obtain ⟨rest, begins, data', found, -, rfl⟩ := h
  exact ((dataPart?_suffix found).trans (List.dropWhile_suffix isUrlPart)).trans
    (Text.dropLeading?_suffix begins)

/-- What becomes of a text: a path, or data that are a part of it. -/
inductive Classified (tree : FileTree) (text : String) : BlobRecord → Prop
  | path : Classified tree text (pathRecord tree text.trimBlank)
  | data {r : BlobRecord} {data : String} {bytes : List Nat} (kind : r.kind ≠ .path)
      (held : r.data = some data) (part : data.toList <:+: text.toList)
      (decoded : Base64.decode (Text.utf8 data.trimBlank) = .ok bytes)
      (size : r.size = some bytes.length) : Classified tree text r

theorem bareBase64Size?_eq_some {cs : List Char} {size : Nat} (h : bareBase64Size? cs = some size) :
    ∃ bytes, Base64.decode (bytesOf cs) = .ok bytes ∧ bytes.length = size := by
  unfold bareBase64Size? at h
  dsimp only at h
  split at h
  · cases h
  · cases hd : Base64.decode (bytesOf cs) with
    | error cause =>
      rw [hd] at h
      cases h
    | ok bytes =>
      rw [hd] at h
      exact ⟨bytes, rfl, Option.some.inj h⟩

/-- The media type without blanks around it, in small letters; plain text if there is none. -/
def mediaType (mime : List Char) : String :=
  if Text.trim mime = [] then "text/plain" else String.ofList ((Text.trim mime).map Char.toLower)

/-- A data URL is told by its parts, if its data decode without the blanks around them. -/
theorem classifyDataUrl_eq_ok_iff {cs : List Char} :
    classifyDataUrl cs = .ok r ↔ ∃ mime data bytes, dataUrlParts? cs = some (mime, data) ∧
      Base64.decode (bytesOf (Text.trim data)) = .ok bytes ∧
      r = ⟨.dataUrl, some (String.ofList data), none, some (mediaType mime), some bytes.length⟩ := by
  have media : ∀ mime, (if (String.ofList (Text.trim mime)).isEmpty then "text/plain"
      else Text.asciiLower (String.ofList (Text.trim mime))) = mediaType mime := by
    intro mime
    rw [Text.asciiLower, String.toList_ofList, mediaType]
    exact if_congr (by simp) rfl rfl
  unfold classifyDataUrl
  constructor
  · intro h
    split at h
    · cases h
    · rename_i mime data parts
      split at h
      · cases h
      · rename_i bytes decoded
        dsimp only at h
        rw [media, Except.ok.injEq] at h
        exact ⟨mime, data, bytes, parts, decoded, h.symm⟩
  · rintro ⟨mime, data, bytes, parts, decoded, rfl⟩
    simp only [parts, decoded, media]

theorem classify_of_dataUrl (begins : "data:".toList <+: Text.trim text.toList) :
    classify tree text = classifyDataUrl (Text.trim text.toList) :=
  if_pos (Text.isSome_dropLeading?_iff.mpr begins)

theorem classify_of_other (other : ¬ "data:".toList <+: Text.trim text.toList) :
    classify tree text =
      match bareBase64Size? (Text.trim text.toList) with
      | some size => .ok ⟨.base64, some text.trimBlank, none, none, some size⟩
      | none => .ok (pathRecord tree text.trimBlank) :=
  if_neg fun begins => other (Text.isSome_dropLeading?_iff.mp begins)

theorem classified (h : classify tree text = .ok r) : Classified tree text r := by
  have inside : Text.trim text.toList <:+: text.toList := Text.trim_isInfix text.toList
  by_cases begins : "data:".toList <+: Text.trim text.toList
  · rw [classify_of_dataUrl begins] at h
    obtain ⟨mime, data, bytes, parts, decoded, rfl⟩ := classifyDataUrl_eq_ok_iff.mp h
    have part : (String.ofList data).toList <:+: text.toList := by
      rw [String.toList_ofList]
      exact (dataUrlParts?_suffix parts).isInfix.trans inside
    have trimmed : Base64.decode (Text.utf8 (String.ofList data).trimBlank) = .ok bytes := by
      rw [String.trimBlank, String.toList_ofList]
      exact decoded
    exact .data nofun rfl part trimmed rfl
  · rw [classify_of_other begins] at h
    split at h
    · rename_i size found
      cases h
      obtain ⟨bytes, decoded, rfl⟩ := bareBase64Size?_eq_some found
      have part : text.trimBlank.toList <:+: text.toList := by
        rw [Text.toList_trimBlank]
        exact inside
      have trimmed : Base64.decode (Text.utf8 text.trimBlank.trimBlank) = .ok bytes := by
        rw [String.trimBlank, Text.toList_trimBlank, Base64.trim_of_decode decoded]
        exact decoded
      exact .data nofun rfl part trimmed rfl
    · cases h
      exact .path

end CommandContract.Blob
