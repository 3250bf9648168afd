import CommandContract.Proofs.Blob.Record

set_option autoImplicit false

/-!
# What a limit on sizes bounds

A limit is compared with the size that a record tells. The size is counted when a text is
classified and looked up when a record is of a path, but a record of data is believed: the limit
bounds the decoded data exactly if these are no more than the record tells. `Blob.normalize_limited`
says so for every value that passes, and `Blob.oversized_passes` shows values that pass with more.
-/
namespace CommandContract

namespace BlobRecord

/-- The data, if there are any, decode to at most so many bytes. -/
def Within (n : Nat) (r : BlobRecord) : Prop :=
  ∀ data, r.data = some data →
    ∃ bytes, Base64.decode (Text.utf8 data) = .ok bytes ∧ bytes.length ≤ n

/-- The data decode to no more bytes than the record tells; one that tells no size has no bytes. -/
def Honest (r : BlobRecord) : Prop := r.Within (r.size.getD 0)

variable {r : BlobRecord} {m n : Nat}

theorem Within.mono (h : r.Within m) (hle : m ≤ n) : r.Within n := by
  intro data held
  obtain ⟨bytes, decoded, few⟩ := h data held
  exact ⟨bytes, decoded, few.trans hle⟩

end BlobRecord

namespace Blob

variable {tree : FileTree} {c : BlobConstraints} {limit v w : Value} {n : Nat} {r : BlobRecord}

/-! ## What the check compares -/

theorem checkSize_eq_ok_iff (declared : c.maxSize = some limit) (parsed : parseSize limit = .ok n) :
    checkSize r c = .ok () ↔ ∀ m, r.size = some m → m ≤ n := by
  simp only [checkSize, declared, parsed]
  cases hs : r.size with
  | none => simp [bind, Except.bind]
  | some m =>
    simp only [bind, Except.bind, Option.some.injEq, forall_eq']
    split
    · rename_i exceeds
      simp [Nat.not_le.mpr exceeds]
    · rename_i fits
      simp [Nat.not_lt.mp fits]

theorem check_eq_ok_iff : check r c = .ok () ↔
    checkSize r c = .ok () ∧ checkType r c = .ok () ∧ checkExtension r c = .ok () := by
  simp only [check, Except.bind_eq_ok_iff]
  exact ⟨fun ⟨_, size, _, type, extension⟩ => ⟨size, type, extension⟩,
    fun ⟨size, type, extension⟩ => ⟨(), size, (), type, extension⟩⟩

/-- No constraint but the least limit that lets a record pass. -/
def leastLimit (r : BlobRecord) : BlobConstraints := ⟨some (Value.ofNat (r.size.getD 0)), [], []⟩

theorem parseSize_ofNat (n : Nat) : parseSize (Value.ofNat n) = .ok n := by
  have positive : ¬ (n : Int) < 0 := Int.not_lt.mpr (Int.natCast_nonneg n)
  simp [Value.ofNat, Value.int, parseSize, positive]

theorem check_leastLimit (r : BlobRecord) : check r (leastLimit r) = .ok () := by
  refine check_eq_ok_iff.mpr ⟨?_, rfl, ?_⟩
  · refine (checkSize_eq_ok_iff rfl (parseSize_ofNat _)).mpr fun m told => ?_
    rw [told]
    exact Nat.le_refl m
  · unfold checkExtension
    cases r.path <;> rfl

/-! ## Records by what they come from -/

/-- Data read off a text decode, once trimmed, to as many bytes as the record tells. -/
theorem data_of_classified {text data : String} (h : Classified tree text r)
    (held : r.data = some data) :
    ∃ bytes, Base64.decode (Text.utf8 data.trimBlank) = .ok bytes ∧ r.size = some bytes.length := by
  cases h with
  | path => cases held
  | data kind own part decoded size =>
    obtain rfl := Option.some.inj (own.symm.trans held)
    exact ⟨_, decoded, size⟩

/-- Blanks around the data are what keeps a record of a text from telling its bytes. -/
theorem honest_iff_of_classified {text data : String} (h : Classified tree text r)
    (held : r.data = some data) : r.Honest ↔ data.trimBlank = data := by
  obtain ⟨bytes, decoded, size⟩ := data_of_classified h held
  constructor
  · intro honest
    obtain ⟨own, whole, -⟩ := honest data held
    rw [← String.ofList_toList (s := data)] at whole
    rw [String.trimBlank, Base64.trim_of_decode whole, String.ofList_toList]
  · intro bare other also
    obtain rfl := Option.some.inj (held.symm.trans also)
    rw [bare] at decoded
    exact ⟨bytes, decoded, by rw [size]; exact Nat.le_refl _⟩

theorem ofValue?_of_recheck (h : recheck tree v = .ok r) (kind : r.kind ≠ .path) :
    BlobRecord.ofValue? v = some r := by
  obtain ⟨given, read, ⟨_, _, rfl⟩ | ⟨path, rfl⟩⟩ := recheck_eq_ok h
  · exact read
  · exact absurd rfl kind

theorem data_eq_none_iff (h : Checked tree r) : r.data = none ↔ r.kind = .path := by
  unfold Checked at h
  split at h
  · rename_i path
    obtain ⟨text, -, same⟩ := h
    rw [same]
    exact iff_of_true rfl rfl
  · rename_i other
    rw [Option.isSome_iff_ne_none] at h
    exact iff_of_false h other

/-! ## What gets through -/

/-- What is known of the record of a value that passes a limit. -/
structure Limited (tree : FileTree) (v : Value) (n : Nat) (r : BlobRecord) : Prop where
  /-- a size that is told is within the limit -/
  told : ∀ m, r.size = some m → m ≤ n
  /-- only records of paths have no data -/
  dataless : r.data = none ↔ r.kind = .path
  /-- the limit bounds the data of a record that tells them -/
  honest : r.Honest → r.Within n
  /-- and no others are bounded by every limit that they pass -/
  exact : (∀ c limit most w, c.maxSize = some limit → parseSize limit = .ok most →
    normalize tree (some c) v = .ok w → r.Within most) → r.Honest
  /-- a text is decoded and counted, but without the blanks around the data -/
  counted : ∀ text data, v = .string text → r.data = some data →
    ∃ bytes, Base64.decode (Text.utf8 data.trimBlank) = .ok bytes ∧ r.size = some bytes.length ∧
      bytes.length ≤ n
  bare : ∀ text data, v = .string text → r.data = some data → (r.Honest ↔ data.trimBlank = data)
  /-- a record of data is not decoded -/
  believed : ∀ members data, v = .object members → r.data = some data →
    BlobRecord.ofValue? v = some r

/-- A value passes a limit if the size that its record tells does. The data are within the limit if
they are no more than the record tells, which can fail for a record that was given, and for data
with blanks around them. -/
theorem normalize_limited (h : normalize tree (some c) v = .ok w)
    (declared : c.maxSize = some limit) (parsed : parseSize limit = .ok n) :
    ∃ r, record tree v = .ok r ∧ w = r.toValue ∧ Limited tree v n r := by
  obtain ⟨r, hr, good, rfl⟩ := normalize_eq_ok_iff.mp h
  have told := (checkSize_eq_ok_iff declared parsed).mp (check_eq_ok_iff.mp (good c rfl)).1
  have dataless := data_eq_none_iff (checked_record hr)
  refine ⟨r, hr, rfl, told, dataless, ?honest, ?exact, ?counted, ?bare, ?believed⟩
  case honest =>
    intro honest
    refine honest.mono ?_
    cases hs : r.size with
    | none => exact Nat.zero_le n
    | some m => exact told m hs
  case exact =>
    intro every
    exact every (leastLimit r) _ _ _ rfl (parseSize_ofNat _)
      (normalize_of_record hr (check_leastLimit r))
  case counted =>
    rintro text data rfl held
    obtain ⟨bytes, decoded, size⟩ := data_of_classified (classified hr) held
    exact ⟨bytes, decoded, size, told _ size⟩
  case bare =>
    rintro text data rfl held
    exact honest_iff_of_classified (classified hr) held
  case believed =>
    rintro members data rfl held
    refine ofValue?_of_recheck hr fun path => ?_
    rw [dataless.mpr path] at held
    cases held

/-- Five bytes in a data URL, under a limit of a kilobyte. -/
def greeting : BlobRecord := ⟨.dataUrl, some "aGVsbG8=", none, some "text/plain", some 5⟩

def kilobyte : BlobConstraints := ⟨some (.string "1KB"), [], []⟩

theorem record_greeting : record ⟨[], []⟩ (.string " data:;base64,aGVsbG8= ") = .ok greeting :=
  Except.toOption_eq_some (by decide +kernel)

theorem normalize_limited_greeting :
    normalize ⟨[], []⟩ (some kilobyte) (.string " data:;base64,aGVsbG8= ") =
        .ok greeting.toValue ∧
      parseSize (.string "1KB") = .ok 1024 ∧ greeting.Honest ∧ greeting.Within 1024 := by
  have passes := normalize_of_record record_greeting
    (Except.toOption_eq_some (by decide +kernel) : check greeting kilobyte = .ok ())
  have parsed : parseSize (.string "1KB") = .ok 1024 := Except.toOption_eq_some (by decide +kernel)
  obtain ⟨r, hr, -, limited⟩ := normalize_limited passes rfl parsed
  obtain rfl := Except.ok.inj (record_greeting.symm.trans hr)
  have honest : greeting.Honest := (limited.bare _ _ rfl rfl).mpr (by decide +kernel)
  exact ⟨passes, parsed, honest, limited.honest honest⟩

/-- Fourteen bytes in a record that tells another size, or none. -/
def oversized (size : Option Nat) : BlobRecord :=
  ⟨.base64, some "aGVsbG8gd29ybGQhISE=", none, none, size⟩

theorem not_within_oversized (size : Option Nat) : ¬ (oversized size).Within 4 := by
  intro within
  obtain ⟨bytes, decoded, few⟩ := within _ rfl
  have fourteen : (Base64.decode (Text.utf8 "aGVsbG8gd29ybGQhISE=")).toOption.map List.length =
      some 14 := by decide +kernel
  rw [decoded] at fourteen
  have count : bytes.length = 14 := Option.some.inj fourteen
  omega

def fourBytes : BlobConstraints := ⟨some (.int 4), [], []⟩

/-- Under a limit of four bytes a record passes that has fourteen and tells one, or no size. -/
theorem oversized_passes :
    parseSize (.int 4) = .ok 4 ∧
      normalize ⟨[], []⟩ (some fourBytes) (oversized (some 1)).toValue =
        .ok (oversized (some 1)).toValue ∧
      ¬ (oversized (some 1)).Within 4 ∧
      normalize ⟨[], []⟩ (some fourBytes) (oversized none).toValue =
        .ok (oversized none).toValue ∧
      ¬ (oversized none).Within 4 :=
  ⟨rfl,
    normalize_of_record (Except.toOption_eq_some (by decide +kernel)) rfl, not_within_oversized _,
    normalize_of_record (Except.toOption_eq_some (by decide +kernel)) rfl, not_within_oversized _⟩

end Blob

end CommandContract
