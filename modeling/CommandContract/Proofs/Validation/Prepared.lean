import CommandContract.Parameter.Validation
import CommandContract.Proofs.Except
import CommandContract.Proofs.Members
import CommandContract.Proofs.Validation.Normal

set_option autoImplicit false

/-!
# Prepared arguments

What becomes of given arguments: their keys are read as declared names, the last value of a name
counts, the state fills what is required and missing, and the rest is a walk over the parameters.
`prepare_eq_ok_iff` says exactly when arguments are prepared and what they are then; `prepare_spec`
adds which errors come first.
-/
namespace CommandContract

/-- Some declared name equals the key up to the case of ASCII letters. -/
def Parameters.Declares (params : Parameters) (key : String) : Prop :=
  ∃ name ∈ Members.keys params, Text.sameLetters name key = true

theorem Text.sameLetters_self (s : String) : Text.sameLetters s s = true := beq_self_eq_true _

section Keys

variable {params : Parameters} {key name : String}

theorem Parameters.mem_of_find? {p : ParameterSpec} (h : params.find? key = some (name, p)) :
    (name, p) ∈ params := by
  unfold Parameters.find? at h
  split at h
  · rename_i spec found
    cases h
    exact Members.mem_of_get? found
  · exact List.mem_of_find?_eq_some h

theorem Parameters.find?_eq_none_iff : params.find? key = none ↔ ¬ params.Declares key := by
  have named : params.Declares key ↔ ∃ p ∈ params, Text.sameLetters p.1 key = true := by
    simp [Parameters.Declares, Members.keys]
  rw [named, Parameters.find?]
  split
  · rename_i spec found
    have declared : ∃ p ∈ params, Text.sameLetters p.1 key = true :=
      ⟨(key, spec), Members.mem_of_get? found, Text.sameLetters_self key⟩
    simp only [reduceCtorEq, false_iff, not_not]
    exact declared
  · simp

theorem Parameters.find?_of_declares (h : params.Declares key) :
    ∃ name p, params.find? key = some (name, p) := by
  cases hf : params.find? key with
  | none => exact absurd h (Parameters.find?_eq_none_iff.mp hf)
  | some found => exact ⟨found.1, found.2, rfl⟩

/-- A declared name stands for itself. -/
theorem Parameters.find?_of_mem_keys (h : name ∈ Members.keys params) :
    ∃ p, params.find? name = some (name, p) := by
  unfold Parameters.find?
  split
  · rename_i spec _
    exact ⟨spec, rfl⟩
  · rename_i absent
    exact absurd h ((Members.get?_eq_none_iff name params).mp absent)

theorem Parameters.declares_of_mem_keys (h : name ∈ Members.keys params) :
    params.Declares name :=
  ⟨name, h, Text.sameLetters_self name⟩

end Keys

namespace Validation

/-! ## Given values -/

/-- The declared name that a key stands for. -/
def declared? (params : Parameters) (key : String) : Option String :=
  (params.find? key).map (·.1)

/-- The value that was given last for a declared name. -/
def given? (params : Parameters) (args : Members Value) (name : String) : Option Value :=
  (args.reverse.find? fun (key, _) => declared? params key = some name).map (·.2)

/-- A value other than `null` that was given, or that the state has for a required parameter. -/
def supply? (state : State) (params : Parameters) (args : Members Value) (name : String)
    (p : ParameterSpec) : Option Value :=
  ((given? params args name).filter (!·.isNull)).or (stateValue? state p)

/-- The value that is looked at for a parameter. -/
def source? (state : State) (params : Parameters) (args : Members Value) (name : String)
    (p : ParameterSpec) : Option Value :=
  (supply? state params args name p).or (given? params args name)

/-- The required parameters that nothing supplies, in declared order. -/
def lacking (state : State) (params : Parameters) (args : Members Value) : List String :=
  (params.filter fun param =>
    param.2.isRequired && (supply? state params args param.1 param.2).isNone).map (·.1)

/-- The argument that a value, or its absence, makes. -/
def argumentFrom (tree : FileTree) (name : String) (p : ParameterSpec) :
    Option Value → Except ValidationError (Option Value)
  | some .null => .ok (some .null)
  | some v => (normalizeValue tree name p v).map some
  | none => .ok p.default

theorem argumentOf_eq (tree : FileTree) (given : Members Value) (name : String)
    (p : ParameterSpec) :
    argumentOf tree given name p = argumentFrom tree name p (Members.get? name given) := by
  unfold argumentOf argumentFrom
  cases Members.get? name given with
  | none => rfl
  | some v => cases v <;> rfl

theorem argumentFrom_of_ne_null {tree : FileTree} {name : String} {p : ParameterSpec} {v : Value}
    (h : v ≠ .null) :
    argumentFrom tree name p (some v) = (normalizeValue tree name p v).map some := by
  cases v with
  | null => exact absurd rfl h
  | _ => rfl

theorem isNull_eq_false_iff {v : Value} : v.isNull = false ↔ v ≠ .null := by
  cases v <;> simp [Value.isNull]

theorem supply?_ne_null {state : State} {params : Parameters} {args : Members Value}
    {name : String} {p : ParameterSpec} {v : Value}
    (h : supply? state params args name p = some v) : v ≠ .null := by
  rw [← isNull_eq_false_iff]
  rcases Option.or_eq_some_iff.mp h with hg | ⟨_, hs⟩
  · simpa using (Option.filter_eq_some_iff.mp hg).2
  · unfold stateValue? at hs
    split at hs
    · obtain ⟨key, _, hk⟩ := Option.bind_eq_some_iff.mp hs
      simpa using (Option.filter_eq_some_iff.mp hk).2
    · cases hs

/-! ## Declared spelling -/

/-- The pairs of arguments whose keys stand for declared names, under these names. -/
def spelled (params : Parameters) (args : Members Value) : List (String × Value) :=
  args.filterMap fun (key, v) => (declared? params key).map fun name => (name, v)

theorem last?_spelled (params : Parameters) (args : Members Value) (name : String) :
    Members.last? name (spelled params args) = given? params args name := by
  have first : ∀ pairs : Members Value, Members.get? name (spelled params pairs) =
      (pairs.find? fun (key, _) => declared? params key = some name).map (·.2) := by
    intro pairs
    induction pairs with
    | nil => rfl
    | cons pair pairs ih =>
      obtain ⟨key, v⟩ := pair
      unfold spelled at ih ⊢
      cases hd : declared? params key with
      | none => simpa [hd] using ih
      | some other =>
        by_cases ho : other = name
        · simp [hd, ho, Members.get?]
        · simpa [hd, ho, Members.get?] using ih
  rw [Members.last?, spelled, ← List.filterMap_reverse]
  exact first args.reverse

/-- A pair under its declared name. -/
def spell (params : Parameters) (a : String × Value) : Except ValidationError (String × Value) :=
  match params.find? a.1 with
  | some (name, _) => .ok (name, a.2)
  | none => .error (.unknownParameter a.1)

theorem canonicalKeys_eq (params : Parameters) (args : Members Value) :
    canonicalKeys params args = (args.mapM (spell params)).map Members.ofPairs := by
  have same : ∀ f : String × Value → Except ValidationError (String × Value), f = spell params →
      (do let pairs ← args.mapM f; .ok (Members.ofPairs pairs)) =
        (args.mapM (spell params)).map Members.ofPairs := by
    rintro f rfl
    cases args.mapM (spell params) <;> rfl
  refine same _ ?_
  funext a
  obtain ⟨key, v⟩ := a
  rfl

theorem mapM_spell {params : Parameters} {args : Members Value}
    (h : ∀ a ∈ args, params.Declares a.1) :
    args.mapM (spell params) = .ok (spelled params args) := by
  induction args with
  | nil => rfl
  | cons a args ih =>
    obtain ⟨key, v⟩ := a
    rw [List.forall_mem_cons] at h
    obtain ⟨name, p, hf⟩ := Parameters.find?_of_declares h.1
    have hs : spelled params ((key, v) :: args) = (name, v) :: spelled params args := by
      simp [spelled, declared?, hf]
    rw [List.mapM_cons, ih h.2, hs]
    simp [spell, hf, bind, Except.bind, pure, Except.pure]

theorem canonicalKeys_of_declares {params : Parameters} {args : Members Value}
    (h : ∀ a ∈ args, params.Declares a.1) :
    canonicalKeys params args = .ok (Members.ofPairs (spelled params args)) := by
  rw [canonicalKeys_eq, mapM_spell h]
  rfl

theorem canonicalKeys_of_undeclared {params : Parameters} {before after : Members Value}
    {key : String} {v : Value} (hb : ∀ a ∈ before, params.Declares a.1)
    (hk : ¬ params.Declares key) :
    canonicalKeys params (before ++ (key, v) :: after) = .error (.unknownParameter key) := by
  have hf := Parameters.find?_eq_none_iff.mpr hk
  rw [canonicalKeys_eq, List.mapM_append, mapM_spell hb, List.mapM_cons]
  simp [spell, hf, bind, Except.bind, Except.map]

/-- Declared names keep their spelling. -/
theorem canonicalKeys_of_names {params : Parameters} {args : Members Value}
    (names : ∀ key ∈ Members.keys args, key ∈ Members.keys params)
    (once : (Members.keys args).Nodup) : canonicalKeys params args = .ok args := by
  have here : ∀ pairs : Members Value, (∀ key ∈ Members.keys pairs, key ∈ Members.keys params) →
      spelled params pairs = pairs := by
    intro pairs
    induction pairs with
    | nil => exact fun _ => rfl
    | cons pair pairs ih =>
      intro h
      obtain ⟨key, v⟩ := pair
      rw [Members.keys_cons, List.forall_mem_cons] at h
      obtain ⟨p, hf⟩ := Parameters.find?_of_mem_keys h.1
      have ht := ih h.2
      unfold spelled at ht ⊢
      rw [List.filterMap_cons, ht]
      simp [declared?, hf]
  rw [canonicalKeys_of_declares, here args names, Members.ofPairs_of_nodup once]
  intro a ha
  exact Parameters.declares_of_mem_keys (names a.1 (List.mem_map_of_mem (f := (·.1)) ha))

theorem given?_of_names {params : Parameters} {args : Members Value}
    (names : ∀ key ∈ Members.keys args, key ∈ Members.keys params)
    (once : (Members.keys args).Nodup) (name : String) :
    given? params args name = Members.get? name args := by
  have declared : ∀ a ∈ args, params.Declares a.1 := fun a ha =>
    Parameters.declares_of_mem_keys (names a.1 (List.mem_map_of_mem (f := (·.1)) ha))
  have same := canonicalKeys_of_names names once
  rw [canonicalKeys_of_declares declared, Except.ok.injEq] at same
  rw [← last?_spelled, ← Members.get?_ofPairs, same]

/-! ## The state -/

/-- What the state adds for one parameter. -/
def fillOne (state : State) (given : Members Value) (name : String) (p : ParameterSpec) :
    Members Value :=
  if hasArgument given name then given
  else
    match stateValue? state p with
    | some v => Members.put name v given
    | none => given

theorem fillFromState_cons (state : State) (name : String) (p : ParameterSpec)
    (params : Parameters) (given : Members Value) :
    fillFromState state ((name, p) :: params) given =
      fillFromState state params (fillOne state given name p) := rfl

theorem get?_fillOne (state : State) (given : Members Value) (name : String) (p : ParameterSpec) :
    Members.get? name (fillOne state given name p) =
      (((Members.get? name given).filter (!·.isNull)).or (stateValue? state p)).or
        (Members.get? name given) := by
  unfold fillOne hasArgument
  cases hg : Members.get? name given with
  | none => cases stateValue? state p <;> simp [hg, Members.get?_put]
  | some v =>
    by_cases hv : v.isNull = true <;> cases stateValue? state p <;>
      simp [hg, hv, Option.filter_some, Members.get?_put]

theorem get?_fillOne_of_ne {other name : String} (h : other ≠ name) (state : State)
    (given : Members Value) (p : ParameterSpec) :
    Members.get? other (fillOne state given name p) = Members.get? other given := by
  unfold fillOne
  split
  · rfl
  · split
    · exact Members.get?_put_of_ne h _ given
    · rfl

theorem mem_keys_fillOne {state : State} {given : Members Value} {name key : String}
    {p : ParameterSpec} (h : key ∈ Members.keys (fillOne state given name p)) :
    key = name ∨ key ∈ Members.keys given := by
  unfold fillOne at h
  split at h
  · exact .inr h
  · split at h
    · exact Members.mem_keys_put.mp h
    · exact .inr h

theorem nodup_keys_fillOne {state : State} {given : Members Value} {name : String}
    {p : ParameterSpec} (h : (Members.keys given).Nodup) :
    (Members.keys (fillOne state given name p)).Nodup := by
  unfold fillOne
  split
  · exact h
  · split
    · exact Members.nodup_keys_put h
    · exact h

theorem get?_fillFromState_of_not_mem {params : Parameters} {name : String}
    (h : name ∉ Members.keys params) (state : State) (given : Members Value) :
    Members.get? name (fillFromState state params given) = Members.get? name given := by
  induction params generalizing given with
  | nil => rfl
  | cons param params ih =>
    obtain ⟨other, p⟩ := param
    rw [Members.keys_cons, List.mem_cons, not_or] at h
    rw [fillFromState_cons, ih h.2, get?_fillOne_of_ne h.1]

theorem get?_fillFromState {params : Parameters} (once : (Members.keys params).Nodup)
    {name : String} {p : ParameterSpec} (h : (name, p) ∈ params) (state : State)
    (given : Members Value) :
    Members.get? name (fillFromState state params given) =
      (((Members.get? name given).filter (!·.isNull)).or (stateValue? state p)).or
        (Members.get? name given) := by
  induction params generalizing given with
  | nil => cases h
  | cons param params ih =>
    obtain ⟨other, q⟩ := param
    rw [Members.keys_cons, List.nodup_cons] at once
    rw [fillFromState_cons]
    rcases List.mem_cons.mp h with he | ht
    · obtain ⟨rfl, rfl⟩ := Prod.mk.inj he
      rw [get?_fillFromState_of_not_mem once.1, get?_fillOne]
    · have hne : name ≠ other := by
        rintro rfl
        exact once.1 (List.mem_map_of_mem (f := (·.1)) ht)
      rw [ih once.2 ht, get?_fillOne_of_ne hne]

theorem fillFromState_keys (state : State) (params : Parameters) (given : Members Value) :
    (∀ key ∈ Members.keys (fillFromState state params given),
        key ∈ Members.keys params ∨ key ∈ Members.keys given) ∧
      ((Members.keys given).Nodup → (Members.keys (fillFromState state params given)).Nodup) := by
  induction params generalizing given with
  | nil => exact ⟨fun _ h => .inr h, id⟩
  | cons param params ih =>
    obtain ⟨name, p⟩ := param
    obtain ⟨names, once⟩ := ih (fillOne state given name p)
    rw [fillFromState_cons]
    refine ⟨?_, fun h => once (nodup_keys_fillOne h)⟩
    intro key hk
    rw [Members.keys_cons, List.mem_cons]
    rcases names key hk with h | h
    · exact .inl (.inr h)
    · exact (mem_keys_fillOne h).elim (fun h => .inl (.inl h)) .inr

/-! ## The walk over the parameters -/

/-- The arguments behind the one of a name, if the name has one. -/
def inFront (name : String) (first : Option Value) (rest : Members Value) : Members Value :=
  match first with
  | some v => (name, v) :: rest
  | none => rest

theorem get?_inFront_self {name : String} {rest : Members Value} (fresh : name ∉ Members.keys rest)
    (first : Option Value) : Members.get? name (inFront name first rest) = first := by
  cases first with
  | none => exact (Members.get?_eq_none_iff name rest).mpr fresh
  | some v => simp [inFront, Members.get?]

theorem get?_inFront_of_ne {name other : String} (h : name ≠ other) (first : Option Value)
    (rest : Members Value) :
    Members.get? other (inFront name first rest) = Members.get? other rest := by
  cases first with
  | none => rfl
  | some v => simp [inFront, Members.get?, h]

theorem keys_sublist_cons_iff {name : String} {names : List String} {out : Members Value} :
    (Members.keys out).Sublist (name :: names) ↔
      ∃ first rest, out = inFront name first rest ∧ (Members.keys rest).Sublist names := by
  constructor
  · intro h
    rcases List.sublist_cons_iff.mp h with h | ⟨keys, he, h⟩
    · exact ⟨none, out, rfl, h⟩
    · obtain ⟨⟨_, v⟩, rest, rfl, rfl, rfl⟩ := List.map_eq_cons_iff.mp he
      exact ⟨some v, rest, rfl, h⟩
  · rintro ⟨first, rest, rfl, h⟩
    cases first with
    | none => exact h.cons name
    | some v => exact h.cons_cons name

theorem arrange_cons_eq_ok_iff {tree : FileTree} {given out : Members Value} {name : String}
    {p : ParameterSpec} {params : Parameters} :
    arrange tree given ((name, p) :: params) = .ok out ↔
      ∃ first rest, argumentFrom tree name p (Members.get? name given) = .ok first ∧
        arrange tree given params = .ok rest ∧ out = inFront name first rest := by
  rw [arrange, argumentOf_eq]
  constructor
  · intro h
    obtain ⟨first, ha, h⟩ := Except.bind_eq_ok_iff.mp h
    obtain ⟨rest, hr, h⟩ := Except.bind_eq_ok_iff.mp h
    exact ⟨first, rest, ha, hr, (Except.ok.inj h).symm⟩
  · rintro ⟨first, rest, ha, hr, rfl⟩
    rw [ha, hr]
    rfl

/-- Arranged arguments are those that stand in declared order and are, one by one, what the
parameters make of the given values. -/
theorem arrange_eq_ok_iff {tree : FileTree} {given out : Members Value} {params : Parameters}
    (once : (Members.keys params).Nodup) :
    arrange tree given params = .ok out ↔
      (Members.keys out).Sublist (Members.keys params) ∧
      ∀ param ∈ params, argumentFrom tree param.1 param.2 (Members.get? param.1 given) =
        .ok (Members.get? param.1 out) := by
  induction params generalizing out with
  | nil =>
    cases out with
    | nil => simp [arrange, Members.keys]
    | cons => simp [arrange, Members.keys]
  | cons param params ih =>
    obtain ⟨name, p⟩ := param
    rw [Members.keys_cons, List.nodup_cons] at once
    have other : ∀ param ∈ params, name ≠ param.1 := by
      rintro param hp rfl
      exact once.1 (List.mem_map_of_mem (f := (·.1)) hp)
    rw [arrange_cons_eq_ok_iff, Members.keys_cons, keys_sublist_cons_iff, List.forall_mem_cons]
    constructor
    · rintro ⟨first, rest, ha, hr, rfl⟩
      obtain ⟨order, each⟩ := (ih once.2).mp hr
      refine ⟨⟨first, rest, rfl, order⟩, ?_, fun param hp => ?_⟩
      · rw [ha, get?_inFront_self fun h => once.1 (order.subset h)]
      · rw [get?_inFront_of_ne (other param hp)]
        exact each param hp
    · rintro ⟨⟨first, rest, rfl, order⟩, ha, each⟩
      rw [get?_inFront_self fun h => once.1 (order.subset h)] at ha
      refine ⟨first, rest, ha, (ih once.2).mpr ⟨order, fun param hp => ?_⟩, rfl⟩
      rw [each param hp, get?_inFront_of_ne (other param hp)]

theorem arrange_total {tree : FileTree} {given : Members Value} {params : Parameters}
    (h : ∀ param ∈ params, ∃ o,
      argumentFrom tree param.1 param.2 (Members.get? param.1 given) = .ok o) :
    ∃ out, arrange tree given params = .ok out := by
  induction params with
  | nil => exact ⟨[], rfl⟩
  | cons param params ih =>
    obtain ⟨name, p⟩ := param
    rw [List.forall_mem_cons] at h
    obtain ⟨first, hf⟩ := h.1
    obtain ⟨rest, hr⟩ := ih h.2
    exact ⟨_, arrange_cons_eq_ok_iff.mpr ⟨first, rest, hf, hr, rfl⟩⟩

/-! ## Everything together -/

section Prepare

variable {tree : FileTree} {state : State} {params : Parameters} {args out : Members Value}

/-- The arguments under their declared names, with what the state adds. -/
def filled (state : State) (params : Parameters) (args : Members Value) : Members Value :=
  fillFromState state params (Members.ofPairs (spelled params args))

theorem filled_keys (state : State) (params : Parameters) (args : Members Value) :
    (∀ key ∈ Members.keys (filled state params args), key ∈ Members.keys params) ∧
      (Members.keys (filled state params args)).Nodup := by
  obtain ⟨names, once⟩ :=
    fillFromState_keys state params (Members.ofPairs (spelled params args))
  refine ⟨fun key hk => (names key hk).elim id fun h => ?_, once (Members.nodup_keys_ofPairs _)⟩
  rw [Members.mem_keys_ofPairs, spelled, List.mem_map] at h
  obtain ⟨⟨_, v⟩, hp, rfl⟩ := h
  obtain ⟨a, _, ha⟩ := List.mem_filterMap.mp hp
  simp only [declared?, Option.map_map, Option.map_eq_some_iff] at ha
  obtain ⟨⟨name, p⟩, hf, he⟩ := ha
  cases he
  exact List.mem_map_of_mem (f := (·.1)) (Parameters.mem_of_find? hf)

theorem get?_filled (once : (Members.keys params).Nodup) {name : String} {p : ParameterSpec}
    (h : (name, p) ∈ params) :
    Members.get? name (filled state params args) = source? state params args name p := by
  rw [filled, get?_fillFromState once h, Members.get?_ofPairs, last?_spelled]
  rfl

theorem source?_filter (state : State) (params : Parameters) (args : Members Value)
    (name : String) (p : ParameterSpec) :
    (source? state params args name p).filter (!·.isNull) = supply? state params args name p := by
  unfold source?
  cases hs : supply? state params args name p with
  | some v =>
    have hv := isNull_eq_false_iff.mpr (supply?_ne_null hs)
    simp [Option.filter_some, hv]
  | none =>
    have hg := (Option.or_eq_none_iff.mp hs).1
    simpa using hg

theorem missing_filled (once : (Members.keys params).Nodup) :
    missing params (filled state params args) = lacking state params args := by
  unfold missing lacking Parameters.required
  rw [List.filter_filter]
  congr 1
  refine List.filter_congr fun param hp => ?_
  rw [hasArgument, get?_filled once hp, source?_filter, Bool.and_comm, Option.not_isSome]

theorem prepare_of_declares (once : (Members.keys params).Nodup)
    (declared : ∀ a ∈ args, params.Declares a.1) :
    prepare tree state params args =
      match lacking state params args with
      | [] => arrange tree (filled state params args) params
      | names => .error (.missingRequired names) := by
  obtain ⟨names, distinct⟩ := filled_keys state params args
  have again := canonicalKeys_of_names names distinct
  rw [prepare, canonicalKeys_of_declares declared]
  change validate tree params (filled state params args) = _
  rw [validate, again, ← missing_filled once]
  rfl

theorem prepare_of_undeclared {before after : Members Value} {key : String} {v : Value}
    (hb : ∀ a ∈ before, params.Declares a.1) (hk : ¬ params.Declares key) :
    prepare tree state params (before ++ (key, v) :: after) = .error (.unknownParameter key) := by
  rw [prepare, canonicalKeys_of_undeclared hb hk]
  rfl

/-- The first key that is not declared. -/
theorem exists_undeclared (h : ¬ ∀ a ∈ args, params.Declares a.1) :
    ∃ before key v after, args = before ++ (key, v) :: after ∧
      (∀ a ∈ before, params.Declares a.1) ∧ ¬ params.Declares key := by
  induction args with
  | nil => exact absurd (List.forall_mem_nil _) h
  | cons a args ih =>
    by_cases ha : params.Declares a.1
    · rw [List.forall_mem_cons, and_iff_right ha] at h
      obtain ⟨before, key, v, after, rfl, hb, hk⟩ := ih h
      exact ⟨a :: before, key, v, after, rfl, List.forall_mem_cons.mpr ⟨ha, hb⟩, hk⟩
    · exact ⟨[], a.1, a.2, args, rfl, List.forall_mem_nil _, ha⟩

/-- When arguments are prepared, and what they are then. -/
theorem prepare_eq_ok_iff (once : (Members.keys params).Nodup) :
    prepare tree state params args = .ok out ↔
      (∀ a ∈ args, params.Declares a.1) ∧ lacking state params args = [] ∧
      (Members.keys out).Sublist (Members.keys params) ∧
      ∀ param ∈ params, argumentFrom tree param.1 param.2
        (source? state params args param.1 param.2) = .ok (Members.get? param.1 out) := by
  by_cases declared : ∀ a ∈ args, params.Declares a.1
  · rw [prepare_of_declares once declared, and_iff_right declared]
    cases hl : lacking state params args with
    | cons name names => simp
    | nil =>
      simp only [true_and]
      rw [arrange_eq_ok_iff once]
      refine and_congr Iff.rfl (forall₂_congr fun param hp => ?_)
      rw [get?_filled once hp]
  · obtain ⟨before, key, v, after, rfl, hb, hk⟩ := exists_undeclared declared
    rw [prepare_of_undeclared hb hk]
    exact ⟨nofun, fun h => absurd h.1 declared⟩

/-- A required parameter without a value: neither the value given last nor the value in the state
is anything but `null`. -/
def Unsupplied (state : State) (params : Parameters) (args : Members Value) (name : String)
    (p : ParameterSpec) : Prop :=
  p.isRequired = true ∧ (∀ v, given? params args name = some v → v = .null) ∧
    ∀ key v, p.stateFallback = some key → state.get? key = some v → v = .null

theorem filter_isNull_eq_none_iff {found : Option Value} :
    found.filter (!·.isNull) = none ↔ ∀ v, found = some v → v = .null := by
  rw [Option.filter_eq_none_iff]
  refine forall₂_congr fun v _ => ?_
  cases v <;> simp [Value.isNull]

theorem supply?_eq_none_iff {name : String} {p : ParameterSpec} (required : p.isRequired = true) :
    supply? state params args name p = none ↔ Unsupplied state params args name p := by
  have fallback : stateValue? state p = none ↔
      ∀ key v, p.stateFallback = some key → state.get? key = some v → v = .null := by
    rw [stateValue?, if_pos required, Option.bind_eq_none_iff]
    refine forall_congr' fun key => ?_
    constructor
    · intro h v hk
      exact filter_isNull_eq_none_iff.mp (h hk) v
    · intro h hk
      exact filter_isNull_eq_none_iff.mpr fun v => h v hk
  rw [supply?, Option.or_eq_none_iff, filter_isNull_eq_none_iff, fallback, Unsupplied,
    and_iff_right required]

theorem mem_lacking_iff {name : String} :
    name ∈ lacking state params args ↔
      ∃ p, (name, p) ∈ params ∧ Unsupplied state params args name p := by
  simp only [lacking, List.mem_map, List.mem_filter, Bool.and_eq_true, Option.isNone_iff_eq_none]
  constructor
  · rintro ⟨⟨_, p⟩, ⟨hp, required, none⟩, rfl⟩
    exact ⟨p, hp, (supply?_eq_none_iff required).mp none⟩
  · rintro ⟨p, hp, h⟩
    exact ⟨(name, p), ⟨hp, h.1, (supply?_eq_none_iff h.1).mpr h⟩, rfl⟩

/-- Prepared arguments, parameter by parameter. -/
structure Prepared (tree : FileTree) (state : State) (params : Parameters)
    (args out : Members Value) : Prop where
  order : (Members.keys out).Sublist (Members.keys params)
  once : (Members.keys out).Nodup
  required : ∀ name p, (name, p) ∈ params → p.isRequired = true →
    ∃ w, Members.get? name out = some w ∧ w ≠ .null
  present : ∀ name p, (name, p) ∈ params → p.isRequired = false →
    (name ∈ Members.keys out ↔ given? params args name ≠ none ∨ p.default ≠ none)
  null : ∀ name p, (name, p) ∈ params → p.isRequired = false →
    given? params args name = some .null → Members.get? name out = some .null
  absent : ∀ name p, (name, p) ∈ params → p.isRequired = false →
    given? params args name = none → Members.get? name out = p.default
  given : ∀ name p v, (name, p) ∈ params → given? params args name = some v → v ≠ .null →
    ∃ w, normalizeValue tree name p v = .ok w ∧ Members.get? name out = some w
  filled : ∀ name p, (name, p) ∈ params → p.isRequired = true →
    (∀ v, given? params args name = some v → v = .null) →
    ∃ key v w, p.stateFallback = some key ∧ state.get? key = some v ∧ v ≠ .null ∧
      normalizeValue tree name p v = .ok w ∧ Members.get? name out = some w

/-- How given arguments are prepared: unknown keys are refused first, then missing parameters, and
only then values are looked at. -/
structure Prepares (tree : FileTree) (state : State) (params : Parameters)
    (args : Members Value) : Prop where
  unknown : ∀ before key v after, args = before ++ (key, v) :: after →
    (∀ a ∈ before, params.Declares a.1) → ¬ params.Declares key →
    prepare tree state params args = .error (.unknownParameter key)
  missing : (∀ a ∈ args, params.Declares a.1) →
    (∃ param ∈ params, Unsupplied state params args param.1 param.2) →
    ∃ names, prepare tree state params args = .error (.missingRequired names) ∧
      names.Sublist (Members.keys params) ∧
      ∀ name, name ∈ names ↔ ∃ p, (name, p) ∈ params ∧ Unsupplied state params args name p
  total : (∀ a ∈ args, params.Declares a.1) →
    (∀ param ∈ params, ¬ Unsupplied state params args param.1 param.2) →
    (∀ param ∈ params, ∀ v, source? state params args param.1 param.2 = some v → v ≠ .null →
      ∃ w, normalizeValue tree param.1 param.2 v = .ok w) →
    ∃ out, prepare tree state params args = .ok out
  prepared : ∀ out, prepare tree state params args = .ok out →
    (∀ a ∈ args, params.Declares a.1) ∧
      (∀ param ∈ params, ¬ Unsupplied state params args param.1 param.2) ∧
      Prepared tree state params args out

section Parameter

variable {name : String} {p : ParameterSpec}

theorem argumentFrom_some {v : Value} {o : Option Value} (hv : v ≠ .null)
    (h : argumentFrom tree name p (some v) = .ok o) :
    ∃ w, normalizeValue tree name p v = .ok w ∧ o = some w := by
  rw [argumentFrom_of_ne_null hv] at h
  obtain ⟨w, hw, ho⟩ := Except.map_eq_ok_iff.mp h
  exact ⟨w, hw, ho.symm⟩

theorem source?_of_supply? {v : Value} (h : supply? state params args name p = some v) :
    source? state params args name p = some v := by
  rw [source?, h]
  rfl

theorem supply?_of_given? {v : Value} (h : given? params args name = some v) (hv : v ≠ .null) :
    supply? state params args name p = some v := by
  rw [supply?, h, Option.filter_some, isNull_eq_false_iff.mpr hv]
  rfl

theorem source?_of_optional (h : p.isRequired = false) :
    source? state params args name p = given? params args name := by
  have noFallback : stateValue? state p = none := by simp [stateValue?, h]
  rw [source?, supply?, noFallback]
  cases given? params args name with
  | none => rfl
  | some v => cases hv : v.isNull <;> simp [Option.filter_some, hv]

/-- What the state supplies where nothing was given. -/
theorem fallback_of_supply? {v : Value} (h : supply? state params args name p = some v)
    (hg : ∀ u, given? params args name = some u → u = .null) :
    ∃ key, p.stateFallback = some key ∧ state.get? key = some v := by
  rw [supply?, filter_isNull_eq_none_iff.mpr hg, Option.none_or, stateValue?] at h
  split at h
  · obtain ⟨key, hk, hs⟩ := Option.bind_eq_some_iff.mp h
    exact ⟨key, hk, (Option.filter_eq_some_iff.mp hs).1⟩
  · cases h

end Parameter

theorem lacking_eq_nil_iff : lacking state params args = [] ↔
    ∀ param ∈ params, ¬ Unsupplied state params args param.1 param.2 := by
  rw [List.eq_nil_iff_forall_not_mem]
  constructor
  · intro h param hp lacks
    exact h param.1 (mem_lacking_iff.mpr ⟨param.2, hp, lacks⟩)
  · intro h name hn
    obtain ⟨p, hp, lacks⟩ := mem_lacking_iff.mp hn
    exact h (name, p) hp lacks

/-- A required parameter has the value that is supplied for it. -/
theorem exists_supply (once : (Members.keys params).Nodup)
    (h : prepare tree state params args = .ok out) {name : String} {p : ParameterSpec}
    (hp : (name, p) ∈ params) (required : p.isRequired = true) :
    ∃ v w, supply? state params args name p = some v ∧ v ≠ .null ∧
      normalizeValue tree name p v = .ok w ∧ Members.get? name out = some w := by
  obtain ⟨_, supplied, _, each⟩ := (prepare_eq_ok_iff once).mp h
  obtain ⟨v, hv⟩ : ∃ v, supply? state params args name p = some v := by
    rw [← Option.isSome_iff_exists, Option.isSome_iff_ne_none]
    exact fun none => lacking_eq_nil_iff.mp supplied _ hp ((supply?_eq_none_iff required).mp none)
  have he := each _ hp
  rw [source?_of_supply? hv] at he
  obtain ⟨w, hw, ho⟩ := argumentFrom_some (supply?_ne_null hv) he
  exact ⟨v, w, hv, supply?_ne_null hv, hw, ho⟩

/-- An optional parameter has what is made of the value given for it, or of its absence. -/
theorem argumentFrom_given? (once : (Members.keys params).Nodup)
    (h : prepare tree state params args = .ok out) {name : String} {p : ParameterSpec}
    (hp : (name, p) ∈ params) (hr : p.isRequired = false) :
    argumentFrom tree name p (given? params args name) = .ok (Members.get? name out) := by
  obtain ⟨_, _, _, each⟩ := (prepare_eq_ok_iff once).mp h
  rw [← source?_of_optional hr]
  exact each _ hp

theorem argumentFrom_ne_none_iff {name : String} {p : ParameterSpec} {found o : Option Value}
    (h : argumentFrom tree name p found = .ok o) :
    o ≠ none ↔ found ≠ none ∨ p.default ≠ none := by
  cases found with
  | none =>
    rw [← Except.ok.inj h]
    simp
  | some v =>
    by_cases hv : v = .null
    · subst hv
      rw [← Except.ok.inj h]
      simp
    · obtain ⟨w, _, rfl⟩ := argumentFrom_some hv h
      simp

theorem prepared_of_ok (once : (Members.keys params).Nodup)
    (h : prepare tree state params args = .ok out) : Prepared tree state params args out := by
  obtain ⟨_, _, order, each⟩ := (prepare_eq_ok_iff once).mp h
  refine ⟨order, once.sublist order, ?required, ?present, ?null, ?absent, ?given, ?filled⟩
  case required =>
    intro name p hp required
    obtain ⟨v, w, _, hv, hw, ho⟩ := exists_supply once h hp required
    exact ⟨w, ho, normalizeValue_ne_null hw hv⟩
  case present =>
    intro name p hp hr
    rw [← argumentFrom_ne_none_iff (argumentFrom_given? once h hp hr), ne_eq,
      Members.get?_eq_none_iff, not_not]
  case null =>
    intro name p hp hr hg
    have he := argumentFrom_given? once h hp hr
    rw [hg] at he
    exact (Except.ok.inj he).symm
  case absent =>
    intro name p hp hr hg
    have he := argumentFrom_given? once h hp hr
    rw [hg] at he
    exact (Except.ok.inj he).symm
  case given =>
    intro name p v hp hg hv
    have he := each _ hp
    rw [source?_of_supply? (supply?_of_given? hg hv)] at he
    exact argumentFrom_some hv he
  case filled =>
    intro name p hp required hg
    obtain ⟨v, w, hs, hv, hw, ho⟩ := exists_supply once h hp required
    obtain ⟨key, hk, hst⟩ := fallback_of_supply? hs hg
    exact ⟨key, v, w, hk, hst, hv, hw, ho⟩

end Prepare

theorem prepare_prepares (tree : FileTree) (state : State) (params : Parameters)
    (args : Members Value) (once : (Members.keys params).Nodup) :
    Prepares tree state params args := by
  refine ⟨?unknown, ?missing, ?total, ?prepared⟩
  case unknown =>
    rintro before key v after rfl hb hk
    exact prepare_of_undeclared hb hk
  case missing =>
    rintro declared ⟨param, hp, lacks⟩
    have hn : lacking state params args ≠ [] := fun hnil =>
      lacking_eq_nil_iff.mp hnil param hp lacks
    refine ⟨lacking state params args, ?_, ?_, fun name => mem_lacking_iff⟩
    · rw [prepare_of_declares once declared]
      split
      · rename_i hnil
        exact absurd hnil hn
      · rfl
    · exact List.filter_sublist.map _
  case total =>
    intro declared supplied readable
    rw [prepare_of_declares once declared, lacking_eq_nil_iff.mpr supplied]
    refine arrange_total fun param hp => ?_
    rw [get?_filled once hp]
    cases hs : source? state params args param.1 param.2 with
    | none => exact ⟨_, rfl⟩
    | some v =>
      by_cases hv : v = .null
      · subst hv
        exact ⟨_, rfl⟩
      · obtain ⟨w, hw⟩ := readable param hp v hs hv
        exact ⟨some w, by rw [argumentFrom_of_ne_null hv, hw]; rfl⟩
  case prepared =>
    intro out h
    obtain ⟨declared, supplied, _⟩ := (prepare_eq_ok_iff once).mp h
    exact ⟨declared, lacking_eq_nil_iff.mp supplied, prepared_of_ok once h⟩

/-- A required parameter with a fallback, and an optional one with a default. -/
def tripParameters : Parameters := [
  ("city", { ParameterSpec.ofType "string" with isRequired := true, stateFallback := some "home" }),
  ("days", { ParameterSpec.ofType "integer" with default := some (.int 3) })]

theorem prepare_prepares_trip :
    (Members.keys tripParameters).Nodup ∧
      Prepares ⟨[], []⟩ ⟨[("home", .string "Oslo")]⟩ tripParameters
        [("DAYS", .string "7"), ("City", .null)] ∧
      prepare ⟨[], []⟩ ⟨[("home", .string "Oslo")]⟩ tripParameters
        [("DAYS", .string "7"), ("City", .null)] =
          .ok [("city", .string "Oslo"), ("days", .int 7)] := by
  have once : (Members.keys tripParameters).Nodup := by decide
  exact ⟨once, prepare_prepares _ _ _ _ once, rfl⟩

end Validation

end CommandContract
