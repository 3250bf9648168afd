import CommandContract.Proofs.Blob.Limit
import CommandContract.Proofs.Chain.Onward
import CommandContract.Proofs.FileTree.Canonical

set_option autoImplicit false

/-!
# Blobs that are handed along

A normal form is its own normal form, and under any constraints it fares as the value that it was
made of. Rules hand it on as it is, and so it reaches the arguments of every later command
unchanged: `Blob.normalize_lasts`. The files may change meanwhile, other than the size of the one
that is meant.
-/
namespace CommandContract

theorem Number.isUnsigned_of_le {m n : Nat} (h : Number.isUnsigned n = true) (hle : m ≤ n) :
    Number.isUnsigned m = true := by
  simp only [Number.isUnsigned, Bool.and_eq_true, decide_eq_true_eq] at h ⊢
  omega

namespace BlobRecord

variable {r : BlobRecord}

/-! ## Written records -/

theorem mem_members {m : String × Value} (h : m ∈ r.members) :
    (∃ s, m.2 = .string s) ∨ ∃ n, r.size = some n ∧ m.2 = .ofNat n := by
  have text : ∀ {key : String} {a : Option String}, m ∈ Fields.present key .string a →
      ∃ s, m.2 = .string s := by
    intro key a h
    cases a with
    | none => cases h
    | some s => exact ⟨s, congrArg Prod.snd (List.mem_singleton.mp h)⟩
  simp only [members, List.mem_append, List.mem_singleton] at h
  rcases h with (((rfl | h) | h) | h) | h
  · exact .inl ⟨_, rfl⟩
  · exact .inl (text h)
  · exact .inl (text h)
  · exact .inl (text h)
  · cases hs : r.size with
    | none =>
      rw [hs] at h
      cases h
    | some n =>
      rw [hs] at h
      exact .inr ⟨n, rfl, congrArg Prod.snd (List.mem_singleton.mp h)⟩

theorem keys_members_sublist : (Members.keys r.members).Sublist fieldNames := by
  have field : ∀ {α : Type} (key : String) (write : α → Value) (a : Option α),
      (Members.keys (Fields.present key write a)).Sublist [key] := by
    intro α key write a
    cases a with
    | none => exact List.nil_sublist _
    | some b => exact List.Sublist.refl _
  simp only [members, Members.keys, List.map_append]
  exact ((((List.Sublist.refl ["type"]).append (field _ _ _)).append (field _ _ _)).append
    (field _ _ _)).append (field _ _ _)

theorem encodable_toValue (fits : r.Fits) : r.toValue.Encodable := by
  have inside : ∀ n ∈ r.toValue.numbers, ∃ size : Nat, r.size = some size ∧ n = .int size := by
    intro n hn
    obtain ⟨m, hm, hn⟩ := Value.mem_memberNumbers.mp hn
    rcases mem_members hm with ⟨s, value⟩ | ⟨size, told, value⟩ <;> rw [value] at hn
    · cases hn
    · exact ⟨size, told, List.mem_singleton.mp hn⟩
  refine ⟨?distinct, ?integers, ?floats⟩
  case distinct =>
    refine .object (keys_members_sublist.nodup (by decide)) fun m hm => ?_
    rcases mem_members hm with ⟨s, value⟩ | ⟨size, _, value⟩ <;> rw [value]
    · exact .string s
    · exact .number _
  case integers =>
    intro n hn
    obtain ⟨size, told, same⟩ := inside _ hn
    rw [Number.int.inj same]
    exact .inr (fits size told)
  case floats =>
    intro x hx
    obtain ⟨_, _, same⟩ := inside _ hx
    cases same

theorem toValue_ne_null (r : BlobRecord) : r.toValue ≠ .null := by
  intro null
  cases null

theorem depth_toValue : r.toValue.depth ≤ 127 := by
  have flat : Value.memberDepth r.members ≤ 0 := by
    refine Value.memberDepth_le fun m hm => ?_
    rcases mem_members hm with ⟨s, value⟩ | ⟨size, _, value⟩ <;> rw [value] <;>
      exact Nat.le_refl 0
  change Value.memberDepth r.members + 1 ≤ 127
  omega

end BlobRecord

/-! ## Sizes -/

theorem FileTree.exists_of_size? {tree : FileTree} {path : String} {n : Nat}
    (h : tree.size? path = some n) :
    ∃ location content executable, (location, .file content executable) ∈ tree.entries ∧
      content.length = n := by
  unfold size? target? at h
  split at h
  · rename_i content executable found
    split at found
    · rename_i location _
      unfold entry? at found
      split at found
      · cases found
      · obtain ⟨⟨_, _⟩, held, rfl⟩ := Option.map_eq_some_iff.mp found
        exact ⟨_, content, executable, List.mem_of_find?_eq_some held, Option.some.inj h⟩
    · cases found
  · cases h

theorem FileTree.size?_of_walkAll {tree : FileTree} {path : String} {location : Location}
    {content : List Nat} {executable : Bool} {n : Nat} (plain : IsPlain path)
    (walked : tree.walkAll path = .ok location)
    (held : tree.entry? location = some (.file content executable)) (size : content.length = n) :
    tree.size? path = some n := by
  simp only [size?, target?, locate_eq_walkAll plain, walked, held, size]

namespace Blob

variable {tree later : FileTree} {constraints : Option BlobConstraints} {v w : Value}
  {r : BlobRecord}

/-- Sizes have 64 bits, those of files and that of a text. -/
structure Measurable (tree : FileTree) (v : Value) : Prop where
  files : ∀ e ∈ tree.entries, ∀ content executable, e.2 = .file content executable →
    Number.isUnsigned content.length = true
  text : ∀ text, v = .string text → Number.isUnsigned text.utf8ByteSize = true

theorem fits_pathRecord (h : Measurable tree v) (path : String) (mimeType : Option String) :
    BlobRecord.Fits { pathRecord tree path with mimeType } := by
  intro n told
  obtain ⟨location, content, executable, held, rfl⟩ := FileTree.exists_of_size? told
  exact h.files _ held content executable rfl

theorem fits_of_classified {text : String} (h : Measurable tree (.string text))
    (classified : Classified tree text r) : r.Fits := by
  cases classified with
  | path => exact fits_pathRecord h text.trimBlank _
  | data kind held part decoded size =>
    rename_i data bytes
    have trimmed : Text.trim data.toList <:+: text.toList := (Text.trim_isInfix _).trans part
    have few := Base64.length_of_decode decoded
    have inside := Text.byteLength_le_of_infix trimmed
    rw [Text.byteLength_eq, Text.byteLength_eq, String.ofList_toList] at inside
    rw [Text.length_utf8, String.trimBlank] at few
    intro n told
    obtain rfl := Option.some.inj (size.symm.trans told)
    exact Number.isUnsigned_of_le (h.text text rfl) (by omega)

theorem fits_of_recheck (h : Measurable tree v) (checked : recheck tree v = .ok r) : r.Fits := by
  obtain ⟨given, read, ⟨_, _, rfl⟩ | ⟨path, rfl⟩⟩ := recheck_eq_ok checked
  · exact BlobRecord.fits_of_ofValue? read
  · exact fits_pathRecord h path _

theorem fits_of_record (h : Measurable tree v) (made : record tree v = .ok r) : r.Fits := by
  unfold record at made
  split at made
  · exact fits_of_classified h (classified made)
  · exact fits_of_recheck h made
  · cases made

/-! ## In a later tree -/

/-- The file that a normal form stands for, if it stands for one, has the same size. -/
def Kept (tree later : FileTree) (w : Value) : Prop :=
  ∀ (r : BlobRecord) path, w = r.toValue → r.kind = .path → r.path = some path →
    later.size? path = tree.size? path

/-- A record of data stands for no file. -/
theorem kept_of_data (kind : r.kind ≠ .path) : Kept tree later r.toValue := by
  intro s path same other _
  have members : r.members = s.members := Value.object.inj same
  have name := r.get?_type
  rw [members, s.get?_type, Option.some.injEq, Value.string.injEq] at name
  have kinds := congrArg BlobKind.ofName? name
  rw [BlobKind.ofName?_name, BlobKind.ofName?_name, other, Option.some.injEq] at kinds
  exact absurd kinds.symm kind

theorem kept_of_path {path : String} (named : r.path = some path)
    (size : later.size? path = tree.size? path) : Kept tree later r.toValue := by
  intro s other same _ also
  have members : r.members = s.members := Value.object.inj same
  have meant := r.get?_path
  rw [members, s.get?_path, named, also] at meant
  obtain rfl := Value.string.inj (Option.some.inj meant)
  exact size

theorem checked_of_kept (h : Checked tree r) (kept : Kept tree later r.toValue) :
    Checked later r := by
  cases hk : r.kind with
  | path =>
    simp only [Checked, hk] at h ⊢
    obtain ⟨path, named, same⟩ := h
    have size := kept r path rfl hk named
    refine ⟨path, named, same.trans ?_⟩
    simp only [pathRecord, size]
  | _ => simpa only [Checked, hk] using h

theorem record_toValue (made : record tree v = .ok r) (fits : r.Fits)
    (kept : Kept tree later r.toValue) : record later r.toValue = .ok r := by
  rw [BlobRecord.toValue_eq, record, ← BlobRecord.toValue_eq]
  exact recheck_of_checked (checked_of_kept (checked_record made) kept) fits

end Blob

/-! ## Among other arguments -/

namespace Validation

open ParameterType

variable {tree : FileTree} {name : String} {p : ParameterSpec} {r : BlobRecord} {u : Value}

/-- A type that allows blobs. -/
def TakesBlobs (p : ParameterSpec) : Prop :=
  ∃ members, union p.declaredType = .ok members ∧ blob ∈ members

/-- A record is always taken as one, if blobs are allowed. -/
theorem normalizeValue_toValue_iff (takes : TakesBlobs p) :
    normalizeValue tree name p r.toValue = .ok u ↔
      Blob.normalize tree p.constraints r.toValue = .ok u ∧ checkChoice name p u = .ok () := by
  obtain ⟨members, declared, allowed⟩ := takes
  have chosen := find?_blob declared allowed (accepts_toValue r)
  have unbounded : blob.isNumeric = true → checkRange name p u = .ok () := by
    intro numeric
    cases numeric
  rw [normalizeValue_of_chosen declared chosen, coerceTo_blob, Allowed, and_iff_left unbounded]

/-- The parameters, each of another name, and among them one of that name that allows blobs. -/
def DeclaresBlob (params : Parameters) (name : String) : Prop :=
  (Members.keys params).Nodup ∧ ∃ q, (name, q) ∈ params ∧ TakesBlobs q

end Validation

namespace Blob

open Validation

variable {tree later : FileTree} {constraints : Option BlobConstraints} {v w : Value}

/-- What becomes of a normal form that is handed along a chain. -/
structure Lasting (tree later : FileTree) (constraints : Option BlobConstraints) (v w : Value) :
    Prop where
  /-- it is normal -/
  again : normalize later constraints w = .ok w
  /-- under any constraints it passes as the first value would have, or fails as it -/
  alike : ∀ other, normalize later other w = normalize tree other v
  /-- a rule with a hole for it calls the next command with it -/
  handed : ∀ m c seen target (rule : NextRule) call key path hole,
    Chain.callOf m c seen target rule = .ok call → (Members.keys rule.arguments).Nodup →
    Members.get? key rule.arguments = some (.string hole) → Template.Hands path hole →
    seen.lookup? path = some w → Members.get? key call.args = some w
  /-- a parameter with the same constraints takes it and leaves it as it is -/
  admitted : ∀ name p, TakesBlobs p → p.constraints = constraints →
    checkChoice name p w = .ok () → normalizeValue later name p w = .ok w
  /-- a command that it is given to runs with it, whatever constraints it passes there -/
  arrives : ∀ (p : Chain.Progress) (c : CommandSpec) given args name, p.tree = later →
    DeclaresBlob c.parameters name → given? c.parameters given name = some w →
    Chain.argumentsOf p c given = .ok args → Members.get? name args = some w
  /-- a run in which all rules hand it on gives it to every command, and all run with it -/
  along : ∀ e stamp s call name, Chain.HandsOn e.manifest name →
    (∀ target c, e.manifest.get? target = some c → DeclaresBlob c.parameters name) →
    (∀ visit ∈ Chain.visits e stamp s call, Kept tree visit.before.tree w) →
    Chain.Gives e.manifest name w call →
    ∀ visit ∈ Chain.visits e stamp s call, Chain.Gives e.manifest name w visit.call ∧
      Chain.Arrives e name w visit

/-- Arguments are prepared with the record that was given. -/
theorem get?_of_argumentsOf {p : Chain.Progress} {c : CommandSpec} {given args : Members Value}
    {name : String} {r : BlobRecord} (own : record p.tree r.toValue = .ok r)
    (declares : DeclaresBlob c.parameters name)
    (hg : given? c.parameters given name = some r.toValue)
    (prepared : Chain.argumentsOf p c given = .ok args) :
    Members.get? name args = some r.toValue := by
  obtain ⟨once, q, declared, takes⟩ := declares
  obtain ⟨u, made, arrived⟩ := (prepared_of_ok once
    (Chain.prepare_of_argumentsOf prepared)).given name q _ declared hg r.toValue_ne_null
  obtain ⟨s, hs, _, rfl⟩ := normalize_eq_ok_iff.mp ((normalizeValue_toValue_iff takes).mp made).1
  rw [arrived, Except.ok.inj (own.symm.trans hs)]

theorem steady_toValue {r : BlobRecord} (fits : r.Fits) : Chain.Steady r.toValue := by
  intro context path hole hands found
  refine hands.renderToValue found (BlobRecord.encodable_toValue fits) BlobRecord.depth_toValue
    ⟨r.toValue_ne_null, ?_⟩
  intro s text
  cases text

theorem normalize_lasts (measurable : Measurable tree v)
    (h : normalize tree constraints v = .ok w) (kept : Kept tree later w) :
    Lasting tree later constraints v w := by
  obtain ⟨r, made, good, rfl⟩ := normalize_eq_ok_iff.mp h
  have fits := fits_of_record measurable made
  have own : record later r.toValue = .ok r := record_toValue made fits kept
  have alike : ∀ other, normalize later other r.toValue = normalize tree other v := by
    intro other
    rw [normalize, normalize, own, made]
  refine ⟨(alike constraints).trans h, alike, ?handed, ?admitted, ?arrives, ?along⟩
  case handed =>
    intro m c seen target rule call key path hole called once given hands found
    exact Chain.get?_callOf (steady_toValue fits) called once given hands found
  case admitted =>
    rintro name p takes rfl choice
    exact (normalizeValue_toValue_iff takes).mpr ⟨(alike _).trans h, choice⟩
  case arrives =>
    rintro p c given args name rfl declares hg prepared
    exact get?_of_argumentsOf own declares hg prepared
  case along =>
    intro e stamp s call name onward declares keeps first
    have arrives : ∀ visit ∈ Chain.visits e stamp s call,
        Chain.Arrives e name r.toValue visit := by
      intro visit hv gives c args prepared
      obtain ⟨found, valid⟩ := Chain.prepared?_eq_some prepared
      exact get?_of_argumentsOf (record_toValue made fits (keeps visit hv)) (declares _ _ found)
        (gives c found) valid
    have given := Chain.visits_receive onward (steady_toValue fits) arrives first
    exact fun visit hv => ⟨given visit hv, arrives visit hv⟩

/-- Notes of three bytes. -/
def desk : FileTree := ⟨[(["notes.md"], .file [97, 98, 99] false)], []⟩

/-- The desk with another file on it. -/
def fullDesk : FileTree := desk.put ["trace.log"] (.file [10] false)

def notes : BlobRecord := ⟨.path, none, some "notes.md", some "text/markdown", some 3⟩

def smallText : BlobConstraints := ⟨some (.string "1KB"), ["text/*"], [".md"]⟩

theorem size?_notes : desk.size? "notes.md" = some 3 ∧ fullDesk.size? "notes.md" = some 3 :=
  ⟨FileTree.size?_of_walkAll (by decide) (by rfl) rfl rfl,
    FileTree.size?_of_walkAll (by decide) (by rfl) rfl rfl⟩

/-- Two commands that take a file, the first of which hands it on. -/
def courier : Engine :=
  let take (name : String) := (CommandSpec.ofName name).withParameter "file"
    (ParameterSpec.ofType "blob")
  let onward : NextRule := ⟨none, [("file", .string (Template.jsonHole ("input." ++ "file")))]⟩
  let manifest := ((Manifest.empty "post").withCommand
    { take "fetch" with next := some [("deliver", onward)] }).withCommand (take "deliver")
  Engine.build manifest Config.default
    [("fetch", fun _ => .ok .null), ("deliver", fun _ => .ok .null)] true

theorem courier_declares {target : String} {c : CommandSpec}
    (h : courier.manifest.get? target = some c) : DeclaresBlob c.parameters "file" := by
  have parameters : c.parameters = [("file", ParameterSpec.ofType "blob")] := by
    rcases List.mem_pair.mp (Members.mem_of_get? h) with he | he <;> cases he <;> rfl
  rw [parameters]
  exact ⟨by decide, _, List.mem_singleton_self _, [.blob], by decide, by decide⟩

theorem courier_handsOn : Chain.HandsOn courier.manifest "file" := by
  refine ⟨by decide, ?_, ?_, ?_⟩
  · rintro _ ⟨⟩
    decide
  · intro target c h
    obtain ⟨_, q, mem, _⟩ := courier_declares h
    exact List.mem_map_of_mem (f := (·.1)) mem
  · intro target c h rule hr
    rcases List.mem_pair.mp (Members.mem_of_get? h) with he | he <;> cases he
    · cases List.mem_singleton.mp hr
      exact ⟨by decide, fun key hk _ => List.mem_singleton.mp hk, _, rfl,
        .json ⟨by decide +kernel, by decide +kernel⟩⟩
    · cases hr

def delivery : Call := ⟨"fetch", [("file", greeting.toValue)]⟩

theorem delivery_gives : Chain.Gives courier.manifest "file" greeting.toValue delivery := by
  intro c h
  refine (given?_of_alone (courier_handsOn.declared _ _ h) (by decide) ?_).trans rfl
  exact fun key hk _ => List.mem_singleton.mp hk

theorem normalize_lasts_notes :
    normalize desk (some smallText) (.string " notes.md ") = .ok notes.toValue ∧
      Lasting desk fullDesk (some smallText) (.string " notes.md ") notes.toValue ∧
      Chain.HandsOn courier.manifest "file" ∧
      (∀ visit ∈ Chain.visits courier Chain.blankStamp Chain.blankSession delivery,
        Chain.Arrives courier "file" greeting.toValue visit) ∧
      (courier.run Chain.blankStamp Chain.blankSession delivery).2.chain =
        ["fetch", "deliver"] := by
  have read : record desk (.string " notes.md ") = .ok notes := by
    have path : record desk (.string " notes.md ") = .ok (pathRecord desk "notes.md") := by
      rfl
    rw [path, pathRecord, size?_notes.1]
    rfl
  have made := normalize_of_record read
    (Except.toOption_eq_some (by decide +kernel) : check notes smallText = .ok ())
  have written := normalize_of_record record_greeting
    (Except.toOption_eq_some (by decide +kernel) : check greeting kilobyte = .ok ())
  have measurable : Measurable desk (.string " notes.md ") := by
    refine ⟨?_, ?_⟩
    · rintro e he content executable value
      rw [List.mem_singleton.mp he] at value
      cases value
      decide
    · rintro _ ⟨⟩
      decide
  have short : Measurable ⟨[], []⟩ (.string " data:;base64,aGVsbG8= ") := by
    refine ⟨?_, ?_⟩
    · intro e he
      cases he
    · rintro _ ⟨⟩
      decide
  have lasting := normalize_lasts measurable made
    (kept_of_path rfl (size?_notes.2.trans size?_notes.1.symm) : Kept desk fullDesk notes.toValue)
  have anywhere : ∀ later, Kept ⟨[], []⟩ later greeting.toValue := fun _ => kept_of_data (by decide)
  have along := (normalize_lasts short written (anywhere ⟨[], []⟩)).along
  refine ⟨made, lasting, courier_handsOn, fun visit hv => ?_, by decide +kernel⟩
  exact (along _ _ _ delivery "file" courier_handsOn (fun _ _ => courier_declares)
    (fun _ _ => anywhere _) delivery_gives visit hv).2

end Blob

end CommandContract
