import CommandContract.Proofs.Except
import CommandContract.Proofs.Json.Numeral
import CommandContract.Proofs.Number.Rounding
import CommandContract.Proofs.Validation.Normal

set_option autoImplicit false

/-!
# What is accepted has a normal form

A type gives every value that it accepts a normal form of its own kind, which it accepts and leaves
as it is. So a value is refused for its type only when no member of the declared union accepts it.

An integer of 64 signed bits may be given as an integer of JSON, as its decimal text with blanks
around it, or as the binary number of its value, and is taken for the same integer: `integer_readsAs`.
Only the least integer is refused as a binary number, since a magnitude below `2 ^ 63` is asked for;
every other binary number that is refused has a fraction or lies outside the range.
-/
namespace CommandContract

/-- A number that is a value by itself is one that JSON can hold. -/
def Value.NumberHeld (v : Value) : Prop := ∀ n, v = .number n → n.Held

theorem Value.NumberHeld.other {v : Value} (h : ∀ n, v ≠ .number n) : v.NumberHeld :=
  fun n same => absurd same (h n)

namespace ParameterType

open Binary64 (one)
open Number (isSigned signedMin)
open Text (Padded)

variable {t : ParameterType} {v w : Value} {n : Int} {x : Binary64} {s : String}

/-- The kind of value that a type makes of `v`; blobs and values of any kind stay as they are. -/
inductive Shape (v : Value) : ParameterType → Value → Prop
  | blob : Shape v blob v
  | buffer {bytes : List Nat} (small : ∀ b ∈ bytes, b ≤ 255) :
      Shape v buffer (.array (bytes.map Value.ofNat))
  | integer (n : Int) : Shape v integer (.int n)
  | number (n : Number) : Shape v number (.number n)
  | boolean (b : Bool) : Shape v boolean (.bool b)
  | array (items : List Value) : Shape v array (.array items)
  | object (ms : Members Value) : Shape v object (.object ms)
  | string (s : String) : Shape v string (.string s)
  | any : Shape v any v

/-- A type makes a value its own, and has nothing left to do then. -/
structure Coerced (t : ParameterType) (v w : Value) : Prop where
  made : t.coerce v = .ok w
  shape : Shape v t w
  held : v.NumberHeld → w.NumberHeld
  accepted : t.accepts w = true
  again : t.coerce w = .ok w

/-- A value that is of the kind of its type already. -/
theorem coerced_self (shape : Shape v t v) (accepted : t.accepts v = true)
    (same : t.coerce v = .ok v) : Coerced t v v :=
  ⟨same, shape, id, accepted, same⟩

/-! ## Integers -/

theorem isSigned_of_signedInteger? {cs : List Char} (h : signedInteger? cs = some n) :
    Number.isSigned n = true :=
  (Option.filter_eq_some_iff.mp h).2

/-- What fits is an integer strictly between the ends of a range that is as wide on both sides, so
the lower end is left out. -/
theorem fitsSigned_iff : fitsSigned x = true ↔
    ∃ n : Int, x.units = n * one ∧ isSigned n = true ∧ n ≠ signedMin := by
  have range : ∀ n : Int, n.natAbs < pow2 63 ↔ isSigned n = true ∧ n ≠ signedMin := by
    intro n
    have bound : pow2 63 = 9223372036854775808 := by rfl
    rw [bound, isSigned, Bool.and_eq_true, decide_eq_true_eq, decide_eq_true_eq]
    unfold signedMin Number.signedMax
    omega
  rw [fitsSigned, Bool.and_eq_true, decide_eq_true_eq, Binary64.isIntegral, beq_iff_eq]
  constructor
  · rintro ⟨whole, size⟩
    obtain ⟨n, units⟩ := Int.dvd_of_emod_eq_zero whole
    rw [Int.mul_comm] at units
    rw [units, Int.natAbs_mul, Int.natAbs_natCast, Nat.mul_lt_mul_right Binary64.one_pos] at size
    exact ⟨n, units, (range n).mp size⟩
  · rintro ⟨n, units, inside⟩
    rw [units, Int.natAbs_mul, Int.natAbs_natCast, Nat.mul_lt_mul_right Binary64.one_pos]
    exact ⟨Int.mul_emod_left n one, (range n).mpr inside⟩

theorem truncate_of_units (units : x.units = n * one) : x.truncate = n := by
  rw [Binary64.truncate, units]
  exact Int.mul_tdiv_cancel n (Int.natCast_ne_zero.mpr Binary64.one_pos.ne')

theorem isSigned_truncate (fits : fitsSigned x = true) :
    Number.isSigned x.truncate = true := by
  obtain ⟨n, units, signed, -⟩ := fitsSigned_iff.mp fits
  rwa [truncate_of_units units]

theorem held_int {n : Int} (h : Number.isSigned n = true) : (Value.int n).NumberHeld := by
  rintro m same
  obtain rfl := Value.number.inj same
  exact .inl h

theorem coerced_integer (h : integer.accepts v = true) : ∃ w, Coerced integer v w := by
  cases v with
  | number n =>
    cases n with
    | int n => exact ⟨_, coerced_self (.integer n) h rfl⟩
    | float x =>
      have fits : fitsSigned x = true := h
      have made : integer.coerce (.number (.float x)) = .ok (.int x.truncate) := if_pos fits
      exact ⟨_, made, .integer _, fun _ => held_int (isSigned_truncate fits), rfl, rfl⟩
  | string s =>
    have spells : (integerText? s.trimBlank.toList).isSome = true := h
    obtain ⟨n, read⟩ := Option.isSome_iff_exists.mp spells
    have spelled : signedInteger? s.trimBlank.toList = some n := by
      unfold integerText? at read
      split at read
      · cases read
      · exact read
    have made : coerceInteger (.string s) = .ok (.int n) := by
      unfold coerceInteger
      simp only [spelled]
    exact ⟨_, made, .integer n, fun _ => held_int (isSigned_of_signedInteger? spelled), rfl, rfl⟩
  | _ => cases h

/-! ## Numbers -/

/-- A text of a finite number is a number that JSON can hold. -/
theorem exists_ofNumeral? {cs : List Char} (h : (finiteBinary? cs).isSome = true) :
    ∃ n, Number.ofNumeral? cs = some n ∧ n.Held := by
  obtain ⟨x, finite⟩ := Option.isSome_iff_exists.mp h
  unfold Number.ofNumeral?
  cases spelled : signedInteger? cs with
  | some n => exact ⟨.int n, rfl, .inl (isSigned_of_signedInteger? spelled)⟩
  | none =>
    obtain ⟨d, _, rounded⟩ := Option.bind_eq_some_iff.mp finite
    exact ⟨.float x, by rw [finite]; rfl, Decimal.finite_of_toBinary? rounded⟩

theorem coerced_number (h : number.accepts v = true) : ∃ w, Coerced number v w := by
  cases v with
  | number n => exact ⟨_, coerced_self (.number n) h rfl⟩
  | string s =>
    have finite : (finiteBinary? s.trimBlank.toList).isSome = true := h
    obtain ⟨x, found⟩ := Option.isSome_iff_exists.mp finite
    obtain ⟨n, read, held⟩ := exists_ofNumeral? finite
    have made : coerceNumber (.string s) = .ok (.number n) := by
      unfold coerceNumber
      simp only [found, read]
    refine ⟨_, made, .number n, fun _ m same => ?_, rfl, rfl⟩
    obtain rfl := Value.number.inj same
    exact held
  | _ => cases h

/-! ## The other types -/

theorem coerced_buffer (h : buffer.accepts v = true) : ∃ w, Coerced buffer v w := by
  obtain ⟨bytes, read⟩ := Option.isSome_iff_exists.mp h
  have back := bytes?_ofNat read
  have made : buffer.coerce v = .ok (.array (bytes.map Value.ofNat)) := by
    simp only [coerce, read]
  have again : buffer.coerce (.array (bytes.map Value.ofNat)) =
      .ok (.array (bytes.map Value.ofNat)) := by
    simp only [coerce, back]
  have accepted : buffer.accepts (.array (bytes.map Value.ofNat)) = true := by
    simp only [accepts, back, Option.isSome_some]
  exact ⟨_, made, .buffer (bytes?_le read), fun _ => .other (by simp), accepted, again⟩

theorem coerced_boolean (h : boolean.accepts v = true) : ∃ w, Coerced boolean v w := by
  cases v with
  | bool b => exact ⟨_, coerced_self (.boolean b) h rfl⟩
  | string s => exact ⟨_, rfl, .boolean _, fun _ => .other (by simp), rfl, rfl⟩
  | _ => cases h

/-- A text that spells a value of the kind of a container gives way to that value. -/
theorem coerceContainer_string {s : String} (inside : jsonInside? s = some w) :
    coerceContainer (.string s) = .ok w := by
  rw [coerceContainer, inside]

theorem coerced_array (h : array.accepts v = true) : ∃ w, Coerced array v w := by
  cases v with
  | array items => exact ⟨_, coerced_self (.array items) h rfl⟩
  | string s =>
    obtain ⟨items, read⟩ := Option.isSome_iff_exists.mp h
    obtain ⟨w, inside, own⟩ := Option.bind_eq_some_iff.mp read
    cases w with
    | array items =>
      have made : array.coerce (.string s) = .ok (.array items) := coerceContainer_string inside
      exact ⟨_, made, .array items, fun _ => .other (by simp), rfl, rfl⟩
    | _ => cases own
  | _ => cases h

theorem coerced_object (h : object.accepts v = true) : ∃ w, Coerced object v w := by
  cases v with
  | object ms => exact ⟨_, coerced_self (.object ms) h rfl⟩
  | string s =>
    obtain ⟨ms, read⟩ := Option.isSome_iff_exists.mp h
    obtain ⟨w, inside, own⟩ := Option.bind_eq_some_iff.mp read
    cases w with
    | object ms =>
      have made : object.coerce (.string s) = .ok (.object ms) := coerceContainer_string inside
      exact ⟨_, made, .object ms, fun _ => .other (by simp), rfl, rfl⟩
    | _ => cases own
  | _ => cases h

theorem coerced_string (h : string.accepts v = true) : ∃ w, Coerced string v w := by
  cases v with
  | string s => exact ⟨_, coerced_self (.string s) h rfl⟩
  | number n => exact ⟨_, rfl, .string _, fun _ => .other (by simp), rfl, rfl⟩
  | bool b => exact ⟨_, rfl, .string _, fun _ => .other (by simp), rfl, rfl⟩
  | _ => cases h

theorem coerced_of_accepts (h : t.accepts v = true) : ∃ w, Coerced t v w := by
  cases t with
  | blob => exact ⟨v, coerced_self .blob h rfl⟩
  | buffer => exact coerced_buffer h
  | integer => exact coerced_integer h
  | number => exact coerced_number h
  | boolean => exact coerced_boolean h
  | array => exact coerced_array h
  | object => exact coerced_object h
  | string => exact coerced_string h
  | any => exact ⟨v, coerced_self .any h rfl⟩

/-! ## One integer in several forms -/

/-- The type of integers accepts the value and takes it for the integer. -/
def ReadsAs (v : Value) (n : Int) : Prop :=
  integer.accepts v = true ∧ integer.coerce v = .ok (.int n)

theorem toList_toString (n : Int) : (toString n).toList = (Number.int n).text := by
  cases n with
  | ofNat n =>
    have nonneg : ¬ Int.ofNat n < 0 := by simp
    rw [Number.text, if_neg nonneg]
    exact String.toList_ofList
  | negSucc n =>
    rw [Number.text, if_pos (Int.negSucc_lt_zero n)]
    exact String.toList_append.trans (congrArg _ String.toList_ofList)

theorem signedInteger?_text (signed : isSigned n = true) :
    signedInteger? (Number.int n).text = some n := by
  have read : Number.ofNumeral? (Number.int n).text = some (.int n) := by
    rw [Number.ofNumeral?_text, Number.spelling, Json.typed?_ofInteger signed]
  unfold Number.ofNumeral? at read
  split at read
  · rename_i m spelled
    cases read
    exact spelled
  · obtain ⟨x, -, float⟩ := Option.map_eq_some_iff.mp read
    cases float

theorem readsAs_text (signed : isSigned n = true) (padded : Padded (toString n).toList s.toList) :
    ReadsAs (.string s) n := by
  rw [toList_toString] at padded
  have looks := (Number.int n).looksNumeral_text
  have token : s.trimBlank.toList = (Number.int n).text := by
    rw [Text.toList_trimBlank, Text.trim_of_padded padded looks.tight]
  have unsigned : (Number.int n).text.head? ≠ some '+' := by
    obtain ⟨⟨c, cs, split, start⟩, -⟩ := looks
    rw [split]
    rintro ⟨⟩
    exact absurd start (by decide)
  have read := signedInteger?_text signed
  constructor
  · change (integerText? s.trimBlank.toList).isSome = true
    rw [token, integerText?, if_neg unsigned, read, Option.isSome_some]
  · change coerceInteger (.string s) = .ok (.int n)
    unfold coerceInteger
    simp only [token, read]

theorem readsAs_float_iff (signed : isSigned n = true) (units : x.units = n * one) :
    ReadsAs (.number (.float x)) n ↔ n ≠ signedMin := by
  constructor
  · rintro ⟨fits, -⟩
    obtain ⟨m, same, -, inner⟩ := fitsSigned_iff.mp fits
    rwa [← truncate_of_units units, truncate_of_units same]
  · intro inner
    have fits : fitsSigned x = true := fitsSigned_iff.mpr ⟨n, units, signed, inner⟩
    have made : integer.coerce (.number (.float x)) = .ok (.int x.truncate) := if_pos fits
    rw [truncate_of_units units] at made
    exact ⟨fits, made⟩

/-- All forms of an integer are read as that integer, the binary number exactly if the integer is not
the least one. A binary number that is accepted is an integer within the range. -/
theorem integer_readsAs (signed : isSigned n = true) :
    ReadsAs (.int n) n ∧
      (∀ s : String, Padded (toString n).toList s.toList → ReadsAs (.string s) n) ∧
      (∀ x : Binary64, x.units = n * one → (ReadsAs (.number (.float x)) n ↔ n ≠ signedMin)) ∧
      ∀ x : Binary64, integer.accepts (.number (.float x)) = true →
        ∃ m : Int, isSigned m = true ∧ x.units = m * one := by
  refine ⟨⟨rfl, rfl⟩, fun s => readsAs_text signed, fun x => readsAs_float_iff signed, ?_⟩
  intro x accepted
  obtain ⟨m, units, inside, -⟩ := fitsSigned_iff.mp accepted
  exact ⟨m, inside, units⟩

/-- The greatest binary number below `2 ^ 63`. -/
def largest : Binary64 := ⟨false, pow2 53 - 1, 10⟩

theorem integer_readsAs_largest : isSigned 9223372036854774784 = true ∧
    ReadsAs (.int 9223372036854774784) 9223372036854774784 ∧
    ReadsAs (.string "\u00a0 9223372036854774784\n") 9223372036854774784 ∧
    largest.units = 9223372036854774784 * one ∧
    ReadsAs (.number (.float largest)) 9223372036854774784 ∧
    ∃ n : Int, isSigned n = true ∧ largest.units = n * one := by
  have signed : isSigned 9223372036854774784 = true := by decide
  have units : largest.units = 9223372036854774784 * one := by decide +kernel
  have spelled : ['\u00a0', ' '] ++ (toString (9223372036854774784 : Int)).toList ++ ['\n'] =
      "\u00a0 9223372036854774784\n".toList := by decide +kernel
  have padded : Padded (toString (9223372036854774784 : Int)).toList
      "\u00a0 9223372036854774784\n".toList :=
    spelled ▸ .mk (List.all_eq_true.mp (by decide)) (List.all_eq_true.mp (by decide))
  obtain ⟨own, text, float, inside⟩ := integer_readsAs signed
  have reads := (float largest units).mpr (by decide)
  exact ⟨signed, own, text _ padded, units, reads, inside largest reads.1⟩

/-- The binary number `- 2 ^ 63` is an integer within the range, and it is refused. -/
theorem integer_refuses_least : ¬ ∀ (n : Int) (x : Binary64), isSigned n = true → x.Finite →
    x.units = n * one → ReadsAs (.number (.float x)) n := by
  intro accepts
  have finite : Binary64.Finite ⟨true, pow2 52, 11⟩ := ⟨by decide, by decide⟩
  have units : Binary64.units ⟨true, pow2 52, 11⟩ = signedMin * one := by decide +kernel
  have reads := accepts signedMin _ (by decide) finite units
  exact (readsAs_float_iff (by decide) units).mp reads rfl

end ParameterType

namespace Validation

open ParameterType

variable {tree : FileTree} {name : String} {p : ParameterSpec} {t : ParameterType} {v w : Value}
  {e : ValidationError}

/-- A type other than blobs has a normal form for every value that it accepts. -/
theorem coerceTo_of_accepts (hb : t ≠ .blob) (accepted : t.accepts v = true) :
    ∃ w, coerceTo tree name p t v = .ok w := by
  obtain ⟨w, coerced⟩ := coerced_of_accepts accepted
  exact ⟨w, (coerceTo_of_ne_blob hb).mpr coerced.made⟩

/-! ## Refused values -/

/-- Why a value of a parameter is refused. -/
inductive Refused (tree : FileTree) (name : String) (p : ParameterSpec) (v : Value) :
    ValidationError → Prop
  | undeclared {type : String} (unknown : union p.declaredType = .error type) :
      Refused tree name p v (.unknownType name type)
  | mismatch {members : List ParameterType} (declared : union p.declaredType = .ok members)
      (refused : ∀ t ∈ members, t.accepts v = false) :
      Refused tree name p v (.typeMismatch name p.declaredType v.kind)
  | blob {cause : Blob.Error} (failed : Blob.normalize tree p.constraints v = .error cause) :
      Refused tree name p v (.blob name cause)
  | choice {allowed : List Value} (w : Value) (declared : p.allowed = some allowed) :
      Refused tree name p v (.notAllowed name (shownValue w) (allowed.map shownValue))
  | range (bound : String) (w : Value) :
      Refused tree name p v (.outOfRange name bound (shownValue w))

theorem checkChoice_eq_error (h : checkChoice name p w = .error e) : Refused tree name p v e := by
  unfold checkChoice at h
  split at h
  · cases h
  · rename_i allowed declared
    split at h
    · cases h
    · cases h
      exact .choice w declared

theorem checkRange_eq_error (h : checkRange name p w = .error e) : Refused tree name p v e := by
  unfold checkRange at h
  split at h
  · dsimp only at h
    split at h
    · cases h
      exact .range _ _
    · cases h
      exact .range _ _
    · cases h
  · cases h

theorem coerceTo_eq_error (accepted : t.accepts v = true)
    (h : coerceTo tree name p t v = .error e) : Refused tree name p v e := by
  by_cases hb : t = .blob
  · unfold coerceTo at h
    rw [if_pos hb] at h
    split at h
    · cases h
    · rename_i cause failed
      cases h
      exact .blob failed
  · obtain ⟨w, made⟩ := @coerceTo_of_accepts tree name p t v hb accepted
    rw [made] at h
    cases h

theorem normalizeValue_eq_error (h : normalizeValue tree name p v = .error e) :
    Refused tree name p v e := by
  unfold normalizeValue at h
  split at h
  · rename_i unknown
    cases h
    exact .undeclared unknown
  · rename_i members declared
    split at h
    · rename_i none
      cases h
      exact .mismatch declared fun t ht => by simpa using List.find?_eq_none.mp none t ht
    · rename_i t chosen
      have accepted : t.accepts v = true := by simpa using List.find?_some chosen
      rcases Except.bind_eq_error_iff.mp h with h | ⟨w, _, h⟩
      · exact coerceTo_eq_error accepted h
      · rcases Except.bind_eq_error_iff.mp h with h | ⟨_, _, h⟩
        · exact checkChoice_eq_error h
        · split at h
          · rcases Except.bind_eq_error_iff.mp h with h | ⟨_, _, h⟩
            · exact checkRange_eq_error h
            · cases h
          · cases h

/-- No accepted value fails to be coerced: accepted values have a normal form of the kind of the
type, which the type accepts and leaves as it is, and a value is refused for its type only when no
member of the declared union accepts it. -/
theorem accepted_coerces :
    (∀ (t : ParameterType) (v : Value), t.accepts v = true → ∃ w, Coerced t v w) ∧
      (∀ tree name p (t : ParameterType) v, t.accepts v = true → t ≠ .blob →
        ∃ w, coerceTo tree name p t v = .ok w) ∧
      ∀ tree name p v parameter expected got,
        normalizeValue tree name p v = .error (.typeMismatch parameter expected got) →
          (∃ members, union p.declaredType = .ok members ∧ ∀ t ∈ members, t.accepts v = false) ∧
            parameter = name ∧ expected = p.declaredType ∧ got = v.kind := by
  refine ⟨fun t v => coerced_of_accepts, fun tree name p t v accepted hb => ?_, ?_⟩
  · exact coerceTo_of_accepts hb accepted
  · intro tree name p v parameter expected got h
    cases normalizeValue_eq_error h with
    | mismatch declared refused => exact ⟨⟨_, declared, refused⟩, rfl, rfl, rfl⟩

/-- A number or a yes or no; `" -17 "` is read as the integer, and an array as neither. -/
def ageOrConsent : ParameterSpec := .ofType "integer | boolean"

theorem accepted_coerces_age :
    integer.accepts (.string " -17 ") = true ∧ Coerced integer (.string " -17 ") (.int (-17)) ∧
      coerceTo ⟨[], []⟩ "age" ageOrConsent integer (.string " -17 ") = .ok (.int (-17)) ∧
      normalizeValue ⟨[], []⟩ "age" ageOrConsent (.array []) =
        .error (.typeMismatch "age" "integer | boolean" "array") ∧
      ∃ members, union ageOrConsent.declaredType = .ok members ∧
        ∀ t ∈ members, t.accepts (.array []) = false := by
  obtain ⟨coerces, made, mismatch⟩ := accepted_coerces
  have accepted : integer.accepts (.string " -17 ") = true := by decide +kernel
  have reads : integer.coerce (.string " -17 ") = .ok (.int (-17)) := by rfl
  obtain ⟨w, own⟩ := coerces integer _ accepted
  obtain rfl := Except.ok.inj (reads.symm.trans own.made)
  obtain ⟨u, same⟩ := made ⟨[], []⟩ "age" ageOrConsent integer _ accepted (by decide)
  have refused : normalizeValue ⟨[], []⟩ "age" ageOrConsent (.array []) =
      .error (.typeMismatch "age" "integer | boolean" "array") := by rfl
  obtain rfl := Except.ok.inj (((coerceTo_of_ne_blob (by decide)).mp same).symm.trans reads)
  exact ⟨accepted, own, same, refused, (mismatch _ _ _ _ _ _ _ refused).1⟩

end Validation

end CommandContract
