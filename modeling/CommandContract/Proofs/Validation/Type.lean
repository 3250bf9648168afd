import Mathlib.Data.List.TakeWhile
import CommandContract.Parameter.Type
import CommandContract.Proofs.Json.Fields
import CommandContract.Proofs.Number.Text

set_option autoImplicit false

/-!
# Members of unions

The members of a union stand in the order in which they are tried, so the one that is chosen for a
value is known by what the members before it refuse. The rest is about which members accept values
that came out of another one.
-/
namespace CommandContract.ParameterType

/-! ## The chosen member -/

/-- The place of a type in the order. -/
def rank (t : ParameterType) : Nat := all.idxOf t

theorem pairwise_rank : all.Pairwise (fun t u => t.rank < u.rank) := by decide

theorem union_sublist {declared : String} {members : List ParameterType}
    (h : union declared = .ok members) : members.Sublist all := by
  unfold union at h
  simp only [bind, Except.bind] at h
  split at h
  · cases h
  · rw [Except.ok.injEq] at h
    subst h
    split
    · exact List.singleton_sublist.mpr (by decide)
    · exact List.filter_sublist

variable {members : List ParameterType}

/-- The chosen member accepts the value, and no member before it does. -/
theorem find?_accepts_iff (ordered : members.Sublist all) {v : Value} {t : ParameterType} :
    members.find? (·.accepts v) = some t ↔
      t ∈ members ∧ t.accepts v = true ∧
        ∀ u ∈ members, u.rank < t.rank → u.accepts v = false := by
  have ranked := pairwise_rank.sublist ordered
  rw [List.find?_eq_some_iff_append]
  constructor
  · rintro ⟨accepted, before, after, rfl, refused⟩
    refine ⟨by simp, accepted, fun u hu below => ?_⟩
    rw [List.pairwise_append, List.pairwise_cons] at ranked
    rcases List.mem_append.mp hu with hu | hu
    · simpa using refused u hu
    · rcases List.mem_cons.mp hu with rfl | hu
      · omega
      · have above := ranked.2.1.1 u hu
        omega
  · rintro ⟨hm, accepted, refused⟩
    obtain ⟨before, after, rfl⟩ := List.append_of_mem hm
    refine ⟨accepted, before, after, rfl, fun u hu => ?_⟩
    rw [List.pairwise_append] at ranked
    have below := ranked.2.2 u hu t List.mem_cons_self
    simp [refused u (by simp [hu]) below]

/-- No member before the integers takes a number. -/
theorem refuses_number {t : ParameterType} (below : t.rank < integer.rank) (n : Number) :
    t.accepts (.number n) = false := by
  cases t <;> first | rfl | exact absurd below (by decide)

/-- No member before the buffers takes an array. -/
theorem refuses_array {t : ParameterType} (below : t.rank < buffer.rank) (items : List Value) :
    t.accepts (.array items) = false := by
  cases t <;> first | rfl | exact absurd below (by decide)

/-- No member before the booleans takes a boolean. -/
theorem refuses_bool {t : ParameterType} (below : t.rank < boolean.rank) (b : Bool) :
    t.accepts (.bool b) = false := by
  cases t <;> first | rfl | exact absurd below (by decide)

/-! ## Bytes -/

theorem byte?_eq_some {v : Value} {b : Nat} (h : byte? v = some b) :
    b ≤ 255 ∧ v = Value.ofNat b := by
  unfold byte? at h
  obtain ⟨hu, hb⟩ := Option.filter_eq_some_iff.mp h
  exact ⟨by simpa using hb, (Value.unsigned?_eq_some_iff.mp hu).1⟩

theorem byte?_ofNat {b : Nat} (h : b ≤ 255) : byte? (Value.ofNat b) = some b := by
  have fits : Number.isUnsigned b = true := by
    rw [Number.isUnsigned, Bool.and_eq_true, decide_eq_true_eq, decide_eq_true_eq]
    unfold Number.unsignedMax
    omega
  simp [byte?, Value.unsigned?_eq_some_iff.mpr ⟨rfl, fits⟩, h]

theorem mapM_byte?_eq_some {items : List Value} {bytes : List Nat}
    (h : items.mapM byte? = some bytes) : items = bytes.map Value.ofNat ∧ ∀ b ∈ bytes, b ≤ 255 := by
  induction items generalizing bytes with
  | nil =>
    rw [List.mapM_nil] at h
    cases h
    simp
  | cons v items ih =>
    simp only [List.mapM_cons, Option.bind_eq_bind, Option.bind_eq_some_iff] at h
    obtain ⟨b, hb, rest, hr, he⟩ := h
    cases he
    obtain ⟨small, rfl⟩ := byte?_eq_some hb
    obtain ⟨rfl, all⟩ := ih hr
    exact ⟨rfl, List.forall_mem_cons.mpr ⟨small, all⟩⟩

theorem mapM_byte?_ofNat {bytes : List Nat} (h : ∀ b ∈ bytes, b ≤ 255) :
    (bytes.map Value.ofNat).mapM byte? = some bytes := by
  induction bytes with
  | nil => rfl
  | cons b bytes ih =>
    rw [List.forall_mem_cons] at h
    rw [List.map_cons, List.mapM_cons, byte?_ofNat h.1, ih h.2]
    rfl

theorem bytes?_le {v : Value} {bytes : List Nat} (h : bytes? v = some bytes) :
    ∀ b ∈ bytes, b ≤ 255 := by
  unfold bytes? at h
  split at h
  · exact (mapM_byte?_eq_some h).2
  · split at h
    · obtain ⟨items, _, hi⟩ := Option.bind_eq_some_iff.mp h
      exact (mapM_byte?_eq_some hi).2
    · cases h
  · cases h

/-- The bytes of a buffer read as the same bytes. -/
theorem bytes?_ofNat {v : Value} {bytes : List Nat} (h : bytes? v = some bytes) :
    bytes? (.array (bytes.map Value.ofNat)) = some bytes :=
  mapM_byte?_ofNat (bytes?_le h)

theorem bytes?_array {items : List Value} {bytes : List Nat}
    (h : bytes? (.array items) = some bytes) : bytes.map Value.ofNat = items :=
  (mapM_byte?_eq_some h).1.symm

theorem bytes?_object {ms : Members Value} (h : (bytes? (.object ms)).isSome = true) :
    (Members.get? "type" ms).bind Value.string? = some "Buffer" := by
  by_contra hn
  simp [bytes?, hn] at h

/-! ## Texts -/

theorem jsonInside?_of_blank {s : String} (h : s.isBlankText = true) : jsonInside? s = none := by
  have trimmed : s.trimBlank = "" := by
    have none_left : s.toList.dropWhile Text.isBlank = [] := by
      rw [List.dropWhile_eq_nil_iff]
      exact fun c hc => List.all_eq_true.mp h c hc
    rw [String.trimBlank, Text.trim, Text.trimStart, none_left]
    rfl
  rw [jsonInside?, trimmed]
  decide +kernel

/-- What no member but `blob` and `string` makes of the text of a number. -/
theorem refuses_number_text (n : Number) :
    boolean.accepts (.string (String.ofList n.text)) = false ∧
      array.accepts (.string (String.ofList n.text)) = false ∧
      object.accepts (.string (String.ofList n.text)) = false := by
  have looks := n.looksNumeral_text
  have json : ∀ v, jsonInside? (String.ofList n.text) = some v → ∃ m, v = .number m := by
    intro v hv
    rw [jsonInside?, looks.trimBlank] at hv
    exact looks.ofJson? hv
  have letter : ∀ word : String, (word.toList.map Char.toLower).head? = some 't' ∨
      (word.toList.map Char.toLower).head? = some 'f' →
      Text.sameLetters (String.ofList n.text) word = false := by
    intro word hw
    refine looks.sameLetters fun c hc he => ?_
    rw [he] at hw
    rcases hw with hw | hw <;> (cases hw; cases hc)
  refine ⟨?_, ?_, ?_⟩
  · simp only [accepts, letter "true" (.inl (by decide)), letter "false" (.inr (by decide)),
      Bool.or_self]
  · cases hj : jsonInside? (String.ofList n.text) with
    | none => simp [accepts, hj]
    | some v =>
      obtain ⟨m, rfl⟩ := json v hj
      simp [accepts, hj, Value.array?]
  · cases hj : jsonInside? (String.ofList n.text) with
    | none => simp [accepts, hj]
    | some v =>
      obtain ⟨m, rfl⟩ := json v hj
      simp [accepts, hj, Value.object?]

theorem integer_refuses_text (x : Binary64) :
    integer.accepts (.string (String.ofList (Number.float x).text)) = false := by
  have spelled : signedInteger? (Number.float x).text = none := by
    rw [signedInteger?, Number.text, x.integer?_text]
    rfl
  simp only [accepts, (Number.looksNumeral_text (.float x)).trimBlank, String.toList_ofList,
    integerText?, spelled, ite_self, Option.isSome_none]

end CommandContract.ParameterType
