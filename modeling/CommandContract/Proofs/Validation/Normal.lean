import CommandContract.Parameter.Validation
import CommandContract.Proofs.Blob.Record
import CommandContract.Proofs.Validation.Type

set_option autoImplicit false

/-!
# Normal forms of values

A value and its normal form need not be taken by the same member of a union. `normalizeValue_again`
says when the normal form of a normal form is another value: when an earlier member takes it and
gives it another shape, or when a blob is too large to be read back.
-/
namespace CommandContract

open ParameterType

namespace Validation

variable {tree : FileTree} {name : String} {p : ParameterSpec} {v w : Value}
  {members : List ParameterType} {t : ParameterType}

/-! ## What a normal form is -/

/-- The declared choices and bounds allow a value of a type. -/
def Allowed (name : String) (p : ParameterSpec) (t : ParameterType) (w : Value) : Prop :=
  checkChoice name p w = .ok () ∧ (t.isNumeric = true → checkRange name p w = .ok ())

theorem normalizeValue_of_chosen (declared : union p.declaredType = .ok members)
    (chosen : members.find? (·.accepts v) = some t) :
    normalizeValue tree name p v = .ok w ↔
      coerceTo tree name p t v = .ok w ∧ Allowed name p t w := by
  simp only [normalizeValue, declared, chosen, Allowed]
  cases hc : coerceTo tree name p t v with
  | error cause => simp [bind, Except.bind]
  | ok u =>
    simp only [bind, Except.bind, Except.ok.injEq]
    constructor
    · intro h
      cases hk : checkChoice name p u with
      | error cause => simp [hk] at h
      | ok =>
        by_cases hn : t.isNumeric = true
        · cases hr : checkRange name p u with
          | error cause => simp [hk, hn, hr] at h
          | ok =>
            obtain rfl : u = w := by simpa [hk, hn, hr] using h
            exact ⟨rfl, hk, fun _ => hr⟩
        · obtain rfl : u = w := by simpa [hk, hn] using h
          exact ⟨rfl, hk, fun h => absurd h hn⟩
    · rintro ⟨rfl, hk, hr⟩
      by_cases hn : t.isNumeric = true
      · simp [hk, hn, hr hn]
      · simp [hk, hn]

/-- A member of the declared union takes a value and makes its normal form. -/
structure Takes (tree : FileTree) (name : String) (p : ParameterSpec)
    (members : List ParameterType) (t : ParameterType) (v w : Value) : Prop where
  declared : union p.declaredType = .ok members
  mem : t ∈ members
  accepted : t.accepts v = true
  refused : ∀ u ∈ members, u.rank < t.rank → u.accepts v = false
  made : coerceTo tree name p t v = .ok w
  allowed : Allowed name p t w

theorem Takes.chosen (h : Takes tree name p members t v w) :
    members.find? (·.accepts v) = some t :=
  (find?_accepts_iff (union_sublist h.declared)).mpr ⟨h.mem, h.accepted, h.refused⟩

theorem normalizeValue_eq_ok_iff :
    normalizeValue tree name p v = .ok w ↔ ∃ members t, Takes tree name p members t v w := by
  constructor
  · intro h
    have whole := h
    unfold normalizeValue at h
    split at h
    · cases h
    · rename_i members declared
      split at h
      · cases h
      · rename_i t chosen
        obtain ⟨made, allowed⟩ := (normalizeValue_of_chosen declared chosen).mp whole
        obtain ⟨mem, accepted, refused⟩ := (find?_accepts_iff (union_sublist declared)).mp chosen
        exact ⟨members, t, declared, mem, accepted, refused, made, allowed⟩
  · rintro ⟨members, t, h⟩
    exact (normalizeValue_of_chosen h.declared h.chosen).mpr ⟨h.made, h.allowed⟩

theorem coerceTo_of_ne_blob (h : t ≠ .blob) :
    coerceTo tree name p t v = .ok w ↔ t.coerce v = .ok w := by
  unfold coerceTo
  rw [if_neg h]
  cases t.coerce v <;> simp

theorem coerceTo_blob :
    coerceTo tree name p .blob v = .ok w ↔ Blob.normalize tree p.constraints v = .ok w := by
  unfold coerceTo
  rw [if_pos rfl]
  cases Blob.normalize tree p.constraints v <;> simp

/-! ### Shapes -/

theorem coerce_buffer (h : buffer.coerce v = .ok w) :
    ∃ bytes, bytes? v = some bytes ∧ w = .array (bytes.map Value.ofNat) := by
  rw [coerce] at h
  split at h
  · rename_i bytes hb
    exact ⟨bytes, hb, (Except.ok.inj h).symm⟩
  · cases h

theorem coerce_integer (h : integer.coerce v = .ok w) : ∃ n, w = .int n := by
  change coerceInteger v = .ok w at h
  unfold coerceInteger at h
  split at h
  · exact ⟨_, (Except.ok.inj h).symm⟩
  · split at h
    · exact ⟨_, (Except.ok.inj h).symm⟩
    · cases h
  · split at h
    · exact ⟨_, (Except.ok.inj h).symm⟩
    · cases h
  · cases h

theorem coerce_number (h : number.coerce v = .ok w) :
    ∃ n, w = .number n ∧ (v = w ∨ ∃ s, v = .string s) := by
  change coerceNumber v = .ok w at h
  unfold coerceNumber at h
  split at h
  · exact ⟨_, (Except.ok.inj h).symm, .inl (Except.ok.inj h)⟩
  · split at h
    · exact ⟨_, (Except.ok.inj h).symm, .inr ⟨_, rfl⟩⟩
    · cases h
  · cases h

theorem coerce_boolean (h : boolean.coerce v = .ok w) : ∃ b, w = .bool b := by
  change coerceBoolean v = .ok w at h
  unfold coerceBoolean at h
  split at h
  · exact ⟨_, (Except.ok.inj h).symm⟩
  · exact ⟨_, (Except.ok.inj h).symm⟩
  · cases h

theorem coerce_string (h : string.coerce v = .ok w) :
    (∃ s, v = .string s ∧ w = .string s) ∨
      (∃ n : Number, v = .number n ∧ w = .string (String.ofList n.text)) ∨
      ∃ b, v = .bool b ∧ w = .string (if b then "true" else "false") := by
  change coerceString v = .ok w at h
  unfold coerceString at h
  split at h
  · exact .inl ⟨_, rfl, (Except.ok.inj h).symm⟩
  · exact .inr (.inl ⟨_, rfl, (Except.ok.inj h).symm⟩)
  · exact .inr (.inr ⟨_, rfl, (Except.ok.inj h).symm⟩)
  · cases h

/-- A container stays as it is, and a text gives way to the container that it spells. -/
theorem coerceContainer_cases (h : coerceContainer v = .ok w) :
    v = w ∨ ∃ s, v = .string s ∧ jsonInside? s = some w := by
  unfold coerceContainer at h
  split at h
  · rename_i s
    split at h
    · rename_i u read
      exact .inr ⟨s, rfl, Except.ok.inj h ▸ read⟩
    · cases h
  · exact .inl (Except.ok.inj h)

theorem coerce_array (accepted : array.accepts v = true) (h : array.coerce v = .ok w) :
    v = w ∨ ∃ s items, v = .string s ∧ w = .array items := by
  refine (coerceContainer_cases h).imp_right ?_
  rintro ⟨s, rfl, read⟩
  cases w with
  | array items => exact ⟨s, items, rfl, rfl⟩
  | _ => simp [accepts, read, Value.array?] at accepted

theorem coerce_object (accepted : object.accepts v = true) (h : object.coerce v = .ok w) :
    v = w ∨ ∃ s ms, v = .string s ∧ jsonInside? s = some w ∧ w = .object ms := by
  refine (coerceContainer_cases h).imp_right ?_
  rintro ⟨s, rfl, read⟩
  cases w with
  | object ms => exact ⟨s, ms, rfl, read, rfl⟩
  | _ => simp [accepts, read, Value.object?] at accepted

theorem coerce_ne_null (accepted : t.accepts v = true) (h : t.coerce v = .ok w) (hv : v ≠ .null) :
    w ≠ .null := by
  rintro rfl
  cases t with
  | blob => exact hv (Except.ok.inj h)
  | any => exact hv (Except.ok.inj h)
  | buffer =>
    obtain ⟨_, _, hw⟩ := coerce_buffer h
    cases hw
  | integer =>
    obtain ⟨_, hw⟩ := coerce_integer h
    cases hw
  | number =>
    obtain ⟨_, hw, _⟩ := coerce_number h
    cases hw
  | boolean =>
    obtain ⟨_, hw⟩ := coerce_boolean h
    cases hw
  | string => rcases coerce_string h with ⟨_, _, hw⟩ | ⟨_, _, hw⟩ | ⟨_, _, hw⟩ <;> cases hw
  | array =>
    rcases coerce_array accepted h with he | ⟨_, _, _, hw⟩
    · exact hv he
    · cases hw
  | object =>
    rcases coerce_object accepted h with he | ⟨_, _, _, _, hw⟩
    · exact hv he
    · cases hw

theorem normalizeValue_ne_null (h : normalizeValue tree name p v = .ok w) (hv : v ≠ .null) :
    w ≠ .null := by
  obtain ⟨members, t, h⟩ := normalizeValue_eq_ok_iff.mp h
  by_cases hb : t = .blob
  · subst hb
    obtain ⟨r, _, _, rfl⟩ := Blob.normalize_eq_ok_iff.mp (coerceTo_blob.mp h.made)
    simp [BlobRecord.toValue_eq]
  · exact coerce_ne_null h.accepted ((coerceTo_of_ne_blob hb).mp h.made) hv

/-! ## Normal forms of normal forms -/

/-- Values whose normal form is no normal form. -/
inductive Unstable (members : List ParameterType) : Value → Value → Prop where
  /-- a text that spells a binary number without a fraction, where integers are allowed too -/
  | whole {s : String} {x : Binary64} (allowed : integer ∈ members) (fits : fitsSigned x = true) :
      Unstable members (.string s) (.number (.float x))
  /-- a text that spells an object with bytes in it, where buffers are allowed too -/
  | bytes {s : String} {ms : Members Value} (allowed : buffer ∈ members)
      (present : (bytes? (.object ms)).isSome = true) :
      Unstable members (.string s) (.object ms)
  /-- a number that becomes a text, where blobs are allowed too -/
  | numeral {n : Number} (allowed : blob ∈ members) :
      Unstable members (.number n) (.string (String.ofList n.text))
  | truth {b : Bool} (allowed : blob ∈ members) :
      Unstable members (.bool b) (.string (if b then "true" else "false"))
  /-- a record whose size is too large to be read -/
  | large {v : Value} {r : BlobRecord} (allowed : blob ∈ members) (large : ¬ r.Fits) :
      Unstable members v r.toValue

theorem accepts_toValue (r : BlobRecord) : blob.accepts r.toValue = true := by
  have listed : blobKinds.contains r.kind.name = true := by
    cases r.kind <;> decide
  simp only [BlobRecord.toValue_eq, accepts, BlobRecord.get?_type, Option.bind_some, Value.string?,
    listed]

/-- No member of a union comes before blobs. -/
theorem find?_blob (declared : union p.declaredType = .ok members) (allowed : blob ∈ members)
    (accepted : blob.accepts w = true) : members.find? (·.accepts w) = some blob :=
  (find?_accepts_iff (union_sublist declared)).mpr
    ⟨allowed, accepted, fun _ _ below => absurd below (Nat.not_lt_zero _)⟩

theorem normalizeValue_ne_of_blob (declared : union p.declaredType = .ok members)
    (allowed : blob ∈ members) (accepted : blob.accepts w = true)
    (other : Blob.normalize tree p.constraints w ≠ .ok w) :
    normalizeValue tree name p w ≠ .ok w := by
  intro h
  have chosen := find?_blob declared allowed accepted
  exact other (coerceTo_blob.mp ((normalizeValue_of_chosen declared chosen).mp h).1)

/-- A text is no blob record. -/
theorem normalize_ne_string {constraints : Option BlobConstraints} {s : String} :
    Blob.normalize tree constraints v ≠ .ok (.string s) := by
  intro h
  obtain ⟨r, _, _, hr⟩ := Blob.normalize_eq_ok_iff.mp h
  cases hr

theorem normalizeValue_ne_of_unstable (declared : union p.declaredType = .ok members)
    (h : Unstable members v w) : normalizeValue tree name p w ≠ .ok w := by
  have ordered := union_sublist declared
  cases h with
  | @whole s x allowed fits =>
    intro again
    have chosen : members.find? (·.accepts (.number (.float x))) = some integer :=
      (find?_accepts_iff ordered).mpr ⟨allowed, fits, fun _ _ below => refuses_number below _⟩
    have made := ((normalizeValue_of_chosen declared chosen).mp again).1
    obtain ⟨n, hn⟩ := coerce_integer ((coerceTo_of_ne_blob (by decide)).mp made)
    cases hn
  | @bytes s ms allowed present =>
    intro again
    have chosen : members.find? (·.accepts (.object ms)) = some buffer := by
      refine (find?_accepts_iff ordered).mpr ⟨allowed, present, fun u _ below => ?_⟩
      cases u with
      | blob => simp [accepts, bytes?_object present, blobKinds]
      | _ => exact absurd below (by decide)
    have made := ((normalizeValue_of_chosen declared chosen).mp again).1
    obtain ⟨_, _, hw⟩ := coerce_buffer ((coerceTo_of_ne_blob (by decide)).mp made)
    cases hw
  | @numeral n allowed =>
    refine normalizeValue_ne_of_blob declared allowed ?_ normalize_ne_string
    simp [accepts, n.looksNumeral_text.isBlankText]
  | @truth b allowed =>
    refine normalizeValue_ne_of_blob declared allowed ?_ normalize_ne_string
    cases b <;> decide
  | @large _ r allowed large =>
    refine normalizeValue_ne_of_blob declared allowed (accepts_toValue r) ?_
    rw [Blob.normalize_of_not_fits large]
    intro again
    cases again

/-! ### What each member does with its own output -/

/-- The member that made a value makes it again, if it takes it at all and no earlier one does. -/
theorem Takes.again (h : Takes tree name p members t v w) (hb : t ≠ .blob)
    (accepted : t.accepts w = true)
    (refused : ∀ u ∈ members, u.rank < t.rank → u.accepts w = false)
    (made : t.coerce w = .ok w) : normalizeValue tree name p w = .ok w :=
  normalizeValue_eq_ok_iff.mpr
    ⟨members, t, h.declared, h.mem, accepted, refused, (coerceTo_of_ne_blob hb).mpr made, h.allowed⟩

theorem Takes.again_of_eq (h : Takes tree name p members t v w) (he : v = w) :
    normalizeValue tree name p w = .ok w := by
  subst he
  exact normalizeValue_eq_ok_iff.mpr ⟨members, t, h⟩

theorem Takes.again_blob (h : Takes tree name p members .blob v w)
    (stable : ¬ Unstable members v w) : normalizeValue tree name p w = .ok w := by
  have normal := coerceTo_blob.mp h.made
  obtain ⟨r, _, _, rfl⟩ := Blob.normalize_eq_ok_iff.mp normal
  refine normalizeValue_eq_ok_iff.mpr ⟨members, blob, h.declared, h.mem, accepts_toValue r,
    fun _ _ below => absurd below (Nat.not_lt_zero _), coerceTo_blob.mpr ?_, h.allowed⟩
  refine Blob.normalize_again normal fun s hs => ?_
  by_contra large
  exact stable (hs ▸ .large h.mem large)

theorem Takes.again_buffer (h : Takes tree name p members .buffer v w) :
    normalizeValue tree name p w = .ok w := by
  obtain ⟨bytes, hb, rfl⟩ := coerce_buffer ((coerceTo_of_ne_blob (by decide)).mp h.made)
  have back := bytes?_ofNat hb
  exact h.again (by decide) (by simp [accepts, back]) (fun _ _ below => refuses_array below _)
    (by simp [coerce, back])

theorem Takes.again_integer (h : Takes tree name p members .integer v w) :
    normalizeValue tree name p w = .ok w := by
  obtain ⟨n, rfl⟩ := coerce_integer ((coerceTo_of_ne_blob (by decide)).mp h.made)
  exact h.again (by decide) rfl (fun _ _ below => refuses_number below _) rfl

/-- A number that integers are allowed for is an integer already, or has a fraction. -/
theorem Takes.again_number (h : Takes tree name p members .number v w)
    (stable : ¬ Unstable members v w) : normalizeValue tree name p w = .ok w := by
  obtain ⟨n, rfl, hv⟩ := coerce_number ((coerceTo_of_ne_blob (by decide)).mp h.made)
  rcases hv with rfl | ⟨s, rfl⟩
  · exact h.again_of_eq rfl
  · by_cases hi : integer ∈ members ∧ integer.accepts (.number n) = true
    · cases n with
      | int n =>
        exact normalizeValue_eq_ok_iff.mpr ⟨members, integer, h.declared, hi.1, hi.2,
          fun _ _ below => refuses_number below _, rfl, h.allowed.1, fun _ => h.allowed.2 rfl⟩
      | float x => exact absurd (.whole hi.1 hi.2) stable
    · refine h.again (by decide) rfl ?_ rfl
      intro u hu below
      cases u with
      | integer => simpa [hu] using hi
      | _ => first | rfl | exact absurd below (by decide)

theorem Takes.again_boolean (h : Takes tree name p members .boolean v w) :
    normalizeValue tree name p w = .ok w := by
  obtain ⟨b, rfl⟩ := coerce_boolean ((coerceTo_of_ne_blob (by decide)).mp h.made)
  exact h.again (by decide) rfl (fun _ _ below => refuses_bool below _) rfl

/-- An array of bytes may go to another member, which leaves it as it is. -/
theorem Takes.again_array (h : Takes tree name p members .array v w) :
    normalizeValue tree name p w = .ok w := by
  rcases coerce_array h.accepted ((coerceTo_of_ne_blob (by decide)).mp h.made) with
    he | ⟨s, items, rfl, rfl⟩
  · exact h.again_of_eq he
  · by_cases hb : buffer ∈ members ∧ buffer.accepts (.array items) = true
    · obtain ⟨bytes, read⟩ := Option.isSome_iff_exists.mp hb.2
      have made : buffer.coerce (.array items) = .ok (.array items) := by
        simp [coerce, read, bytes?_array read]
      exact normalizeValue_eq_ok_iff.mpr ⟨members, buffer, h.declared, hb.1, hb.2,
        fun _ _ below => refuses_array below _, (coerceTo_of_ne_blob (by decide)).mpr made,
        h.allowed.1, nofun⟩
    · refine h.again (by decide) rfl ?_ rfl
      intro u hu below
      cases u with
      | buffer => simpa [hu] using hb
      | _ => first | rfl | exact absurd below (by decide)

theorem Takes.again_object (h : Takes tree name p members .object v w)
    (stable : ¬ Unstable members v w) : normalizeValue tree name p w = .ok w := by
  rcases coerce_object h.accepted ((coerceTo_of_ne_blob (by decide)).mp h.made) with
    he | ⟨s, ms, rfl, read, rfl⟩
  · exact h.again_of_eq he
  · refine h.again (by decide) rfl ?_ rfl
    intro u hu below
    cases u with
    | blob =>
      -- the text is not blank, so it would have been a blob
      have refused := h.refused blob hu below
      simp only [accepts, Bool.not_eq_false'] at refused
      rw [jsonInside?_of_blank refused] at read
      cases read
    | buffer =>
      by_contra present
      exact stable (.bytes hu (by simpa [accepts, Option.isSome_iff_ne_none] using present))
    | _ => first | rfl | exact absurd below (by decide)

theorem Takes.again_string (h : Takes tree name p members .string v w)
    (stable : ¬ Unstable members v w) : normalizeValue tree name p w = .ok w := by
  rcases coerce_string ((coerceTo_of_ne_blob (by decide)).mp h.made) with
    ⟨s, rfl, rfl⟩ | ⟨n, rfl, rfl⟩ | ⟨b, rfl, rfl⟩
  · exact h.again_of_eq rfl
  · refine h.again (by decide) rfl ?_ rfl
    obtain ⟨notBoolean, notArray, notObject⟩ := refuses_number_text n
    intro u hu below
    cases u with
    | blob => exact absurd (.numeral hu) stable
    | integer =>
      cases n with
      | int n => exact absurd (h.refused integer hu below) nofun
      | float x => exact integer_refuses_text x
    | number => exact absurd (h.refused number hu below) nofun
    | boolean => exact notBoolean
    | array => exact notArray
    | object => exact notObject
    | _ => first | rfl | exact absurd below (by decide)
  · refine h.again (by decide) rfl ?_ rfl
    intro u hu below
    cases u with
    | blob => exact absurd (.truth hu) stable
    | boolean => exact absurd (h.refused boolean hu below) nofun
    | integer => cases b <;> decide +kernel
    | number => cases b <;> decide +kernel
    | array => cases b <;> decide +kernel
    | object => cases b <;> decide +kernel
    | _ => first | rfl | exact absurd below (by decide)

/-- The normal form of a value is its own normal form unless the value is of one of the unstable
shapes. -/
theorem normalizeValue_again (declared : union p.declaredType = .ok members)
    (h : normalizeValue tree name p v = .ok w) :
    normalizeValue tree name p w = .ok w ↔ ¬ Unstable members v w := by
  refine ⟨fun again unstable => normalizeValue_ne_of_unstable declared unstable again, ?_⟩
  intro stable
  obtain ⟨members', t, h⟩ := normalizeValue_eq_ok_iff.mp h
  obtain rfl := Except.ok.inj (h.declared.symm.trans declared)
  cases t with
  | blob => exact h.again_blob stable
  | buffer => exact h.again_buffer
  | integer => exact h.again_integer
  | number => exact h.again_number stable
  | boolean => exact h.again_boolean
  | array => exact h.again_array
  | object => exact h.again_object stable
  | string => exact h.again_string stable
  | any =>
    exact h.again_of_eq (Except.ok.inj ((coerceTo_of_ne_blob (by decide)).mp h.made))

end Validation

end CommandContract
