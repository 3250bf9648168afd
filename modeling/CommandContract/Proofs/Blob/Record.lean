import CommandContract.Proofs.Blob.Classify
import CommandContract.Proofs.Json.Fields

set_option autoImplicit false

/-!
# Blob records that were written

A record is read back from its written form if its size fits 64 bits, and checking a record that
came out of a check changes nothing. Only a record that is too large is not read back.
-/
namespace CommandContract

theorem BlobKind.ofName?_name (k : BlobKind) : BlobKind.ofName? k.name = some k := by
  cases k <;> rfl

namespace BlobRecord

/-- The size can be written as an unsigned integer of 64 bits. -/
def Fits (r : BlobRecord) : Prop := ∀ n : Nat, r.size = some n → Number.isUnsigned n = true

/-- The members of the written form. -/
def members (r : BlobRecord) : Members Value :=
  [("type", .string r.kind.name)] ++ Fields.present "data" .string r.data ++
    Fields.present "path" .string r.path ++ Fields.present "mimeType" .string r.mimeType ++
    Fields.present "size" Value.ofNat r.size

theorem toValue_eq (r : BlobRecord) : r.toValue = .object r.members := rfl

section Members

variable (r : BlobRecord)

theorem get?_type : Members.get? "type" r.members = some (.string r.kind.name) := rfl

theorem get?_data : Members.get? "data" r.members = r.data.map .string := by
  simp [members, Members.get?_append, Members.get?, Fields.get?_present]

theorem get?_path : Members.get? "path" r.members = r.path.map .string := by
  simp [members, Members.get?_append, Members.get?, Fields.get?_present]

theorem get?_mimeType : Members.get? "mimeType" r.members = r.mimeType.map .string := by
  simp [members, Members.get?_append, Members.get?, Fields.get?_present]

theorem get?_size : Members.get? "size" r.members = r.size.map Value.ofNat := by
  simp [members, Members.get?_append, Members.get?, Fields.get?_present]

end Members

/-- Reading back can fail at the size only. -/
theorem ofValue?_toValue_eq (r : BlobRecord) :
    ofValue? r.toValue =
      (Fields.optional "size" Value.unsigned? r.members).map fun size => { r with size } := by
  have data : Fields.optional "data" Value.string? r.members = some r.data :=
    Fields.optional_of_get? r.get?_data (by simp) fun _ _ => rfl
  have path : Fields.optional "path" Value.string? r.members = some r.path :=
    Fields.optional_of_get? r.get?_path (by simp) fun _ _ => rfl
  have mimeType : Fields.optional "mimeType" Value.string? r.members = some r.mimeType :=
    Fields.optional_of_get? r.get?_mimeType (by simp) fun _ _ => rfl
  simp only [ofValue?, toValue_eq, Fields.ofValue?, Fields.required, get?_type, Fields.choice?,
    Option.bind_some, BlobKind.ofName?_name, data, path, mimeType, Option.bind_eq_bind]
  cases Fields.optional "size" Value.unsigned? r.members <;> rfl

/-- A record of a size that fits is read back. -/
theorem ofValue?_toValue {r : BlobRecord} (fits : r.Fits) : ofValue? r.toValue = some r := by
  have size : Fields.optional "size" Value.unsigned? r.members = some r.size := by
    refine Fields.optional_of_get? r.get?_size (by simp [Value.ofNat, Value.int]) fun n hn => ?_
    exact Value.unsigned?_eq_some_iff.mpr ⟨rfl, fits n hn⟩
  rw [ofValue?_toValue_eq, size]
  rfl

theorem fits_of_ofValue? {r : BlobRecord} {v : Value} (h : ofValue? v = some r) : r.Fits := by
  simp only [ofValue?, Option.bind_eq_bind, Option.bind_eq_some_iff, Option.some.injEq] at h
  obtain ⟨ms, _, kind, _, data, _, path, _, mimeType, _, size, read, rfl⟩ := h
  rintro n rfl
  obtain ⟨u, _, hu⟩ := Fields.exists_of_optional read
  exact (Value.unsigned?_eq_some_iff.mp hu).2

theorem ofValue?_toValue_of_not_fits {r : BlobRecord} (large : ¬ r.Fits) :
    ofValue? r.toValue = none := by
  simp only [Fits, not_forall] at large
  obtain ⟨n, hn, hu⟩ := large
  have size : Fields.optional "size" Value.unsigned? r.members = none := by
    simp [Fields.optional, r.get?_size, hn, Value.ofNat, Value.int, Value.unsigned?, hu]
  rw [ofValue?_toValue_eq, size]
  rfl

end BlobRecord

namespace Blob

/-! ## Checking twice -/

/-- What every record that was classified or checked satisfies. -/
def Checked (tree : FileTree) (r : BlobRecord) : Prop :=
  match r.kind with
  | .path => ∃ path, r.path = some path ∧
      r = { pathRecord tree path with mimeType := mimeOfPath? path <|> r.mimeType }
  | _ => r.data.isSome = true

theorem checked_pathRecord (tree : FileTree) (path : String) (mimeType : Option String) :
    Checked tree { pathRecord tree path with mimeType := mimeOfPath? path <|> mimeType } := by
  refine ⟨path, rfl, ?_⟩
  cases mimeOfPath? path <;> rfl

theorem checked_of_data {tree : FileTree} {r : BlobRecord} (kind : r.kind ≠ .path)
    (present : r.data.isSome = true) : Checked tree r := by
  unfold Checked
  split
  · rename_i path
    exact absurd path kind
  · exact present

theorem checked_classify {tree : FileTree} {text : String} {r : BlobRecord}
    (h : classify tree text = .ok r) : Checked tree r := by
  cases classified h with
  | path =>
    have hc := checked_pathRecord tree text.trimBlank none
    simpa [pathRecord] using hc
  | data kind held => exact checked_of_data kind (by rw [held]; rfl)

/-- A record of data is taken as it is given, and one of a path is made anew. -/
theorem recheck_eq_ok {tree : FileTree} {v : Value} {r : BlobRecord}
    (h : recheck tree v = .ok r) : ∃ given, BlobRecord.ofValue? v = some given ∧
      ((given.kind ≠ .path ∧ given.data.isSome = true ∧ r = given) ∨
        ∃ path, r = { pathRecord tree path with
          mimeType := mimeOfPath? path <|> given.mimeType }) := by
  unfold recheck at h
  split at h
  · cases h
  · rename_i given read
    refine ⟨given, read, ?_⟩
    split at h
    · split at h
      · cases h
      · rename_i path _
        exact .inr ⟨path, (Except.ok.inj h).symm⟩
    · rename_i kind
      split at h
      · cases h
      · rename_i present
        exact .inl ⟨kind, by simpa [Option.isSome_iff_ne_none] using present,
          (Except.ok.inj h).symm⟩

theorem checked_recheck {tree : FileTree} {v : Value} {r : BlobRecord}
    (h : recheck tree v = .ok r) : Checked tree r := by
  obtain ⟨given, _, ⟨kind, present, rfl⟩ | ⟨path, rfl⟩⟩ := recheck_eq_ok h
  · exact checked_of_data kind present
  · exact checked_pathRecord tree path given.mimeType

theorem checked_record {tree : FileTree} {v : Value} {r : BlobRecord}
    (h : record tree v = .ok r) : Checked tree r := by
  unfold record at h
  split at h
  · exact checked_classify h
  · exact checked_recheck h
  · cases h

theorem recheck_of_checked {tree : FileTree} {r : BlobRecord} (h : Checked tree r)
    (fits : r.Fits) : recheck tree r.toValue = .ok r := by
  have present : r.kind ≠ .path → r.data.isNone = false := by
    intro kind
    cases hk : r.kind with
    | path => exact absurd hk kind
    | _ => simpa [Checked, hk, Option.isSome_iff_ne_none] using h
  rw [recheck, BlobRecord.ofValue?_toValue fits]
  cases hk : r.kind with
  | path =>
    simp only [Checked, hk] at h
    obtain ⟨text, ht, he⟩ := h
    simp only [hk, ht]
    exact congrArg Except.ok he.symm
  | _ => simp [hk, present (by simp [hk])]

theorem normalize_eq_ok_iff {tree : FileTree} {constraints : Option BlobConstraints}
    {v w : Value} :
    normalize tree constraints v = .ok w ↔ ∃ r, record tree v = .ok r ∧
      (∀ c, constraints = some c → check r c = .ok ()) ∧ w = r.toValue := by
  unfold normalize
  cases hr : record tree v with
  | error cause => simp [bind, Except.bind]
  | ok r =>
    cases constraints with
    | none => simp [bind, Except.bind, eq_comm]
    | some c => cases hc : check r c <;> simp [hc, bind, Except.bind, eq_comm]

theorem normalize_of_record {tree : FileTree} {c : BlobConstraints} {v : Value} {r : BlobRecord}
    (hr : record tree v = .ok r) (good : check r c = .ok ()) :
    normalize tree (some c) v = .ok r.toValue :=
  normalize_eq_ok_iff.mpr ⟨r, hr, by rintro _ ⟨⟩; exact good, rfl⟩

theorem normalize_of_not_fits {tree : FileTree} {constraints : Option BlobConstraints}
    {r : BlobRecord} (large : ¬ r.Fits) :
    normalize tree constraints r.toValue = .error .notRecord := by
  have hr : record tree r.toValue = .error .notRecord := by
    rw [BlobRecord.toValue_eq, record, ← BlobRecord.toValue_eq, recheck,
      BlobRecord.ofValue?_toValue_of_not_fits large]
  rw [normalize, hr]
  rfl

/-- Normal forms are normal if their sizes fit. -/
theorem normalize_again {tree : FileTree} {constraints : Option BlobConstraints} {v w : Value}
    (h : normalize tree constraints v = .ok w)
    (fits : ∀ r : BlobRecord, w = r.toValue → r.Fits) : normalize tree constraints w = .ok w := by
  obtain ⟨r, hr, good, rfl⟩ := normalize_eq_ok_iff.mp h
  exact normalize_eq_ok_iff.mpr
    ⟨r, recheck_of_checked (checked_record hr) (fits r rfl), good, rfl⟩

end Blob

end CommandContract
