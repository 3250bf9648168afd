import Mathlib.Data.List.Basic
import CommandContract.Proofs.Validation.Coercion
import CommandContract.Proofs.Validation.Prepared

set_option autoImplicit false

/-!
# Validating ahead of a run

Validation looks at the arguments alone, preparation at the state as well. What is valid is prepared
to the same arguments in every state, and what is refused for a key or a value is refused in every
state. Only what is missing may be supplied: `validate_foretells` says which of the missing
parameters are still missing then.
-/
namespace CommandContract

/-- The state has a value other than `null` for a parameter. -/
def State.Supplies (state : State) (p : ParameterSpec) : Prop :=
  ∃ key v, p.stateFallback = some key ∧ state.get? key = some v ∧ v ≠ .null

def State.blank : State := ⟨[]⟩

namespace Validation

variable {tree : FileTree} {state : State} {params : Parameters} {args given : Members Value}

/-! ## What needs no state -/

theorem stateValue?_blank (p : ParameterSpec) : stateValue? State.blank p = none := by
  have empty : State.blank.value? = fun _ => none := rfl
  simp [stateValue?, empty]

theorem fillFromState_blank (params : Parameters) (given : Members Value) :
    fillFromState State.blank params given = given := by
  induction params with
  | nil => rfl
  | cons param params ih =>
    have first : fillOne State.blank given param.1 param.2 = given := by
      simp [fillOne, stateValue?_blank]
    rw [fillFromState_cons, first, ih]

theorem fillFromState_of_complete (complete : missing params given = []) :
    fillFromState state params given = given := by
  have all : ∀ param ∈ params, param.2.isRequired = true → hasArgument given param.1 = true := by
    intro param hp required
    simp only [missing, Parameters.required, List.map_eq_nil_iff, List.filter_eq_nil_iff] at complete
    simpa using complete param (List.mem_filter.mpr ⟨hp, required⟩)
  clear complete
  induction params with
  | nil => rfl
  | cons param params ih =>
    rw [List.forall_mem_cons] at all
    have first : fillOne state given param.1 param.2 = given := by
      cases required : param.2.isRequired with
      | false => simp [fillOne, stateValue?, required]
      | true => simp [fillOne, all.1 required]
    rw [fillFromState_cons, first]
    exact ih all.2

theorem filled_blank (params : Parameters) (args : Members Value) :
    filled State.blank params args = Members.ofPairs (spelled params args) :=
  fillFromState_blank _ _

/-- Validation is preparation in a state without values. -/
theorem validate_eq_prepare (tree : FileTree) (params : Parameters) (args : Members Value) :
    validate tree params args = prepare tree State.blank params args := by
  by_cases declared : ∀ a ∈ args, params.Declares a.1
  · obtain ⟨names, distinct⟩ := filled_keys State.blank params args
    have again := canonicalKeys_of_names names distinct
    have first := canonicalKeys_of_declares declared
    rw [← filled_blank] at first
    rw [prepare, first]
    change _ = validate tree params (fillFromState State.blank params _)
    rw [fillFromState_blank, validate, validate, first, again]
  · obtain ⟨before, key, v, after, rfl, hb, hk⟩ := exists_undeclared declared
    rw [prepare_of_undeclared hb hk, validate, canonicalKeys_of_undeclared hb hk]
    rfl

/-! ## What a state supplies -/

theorem filled_of_complete (once : (Members.keys params).Nodup)
    (complete : lacking State.blank params args = []) (state : State) :
    filled state params args = filled State.blank params args := by
  rw [← missing_filled once, filled_blank] at complete
  rw [filled_blank, filled, fillFromState_of_complete complete]

theorem unsupplied_iff {name : String} {p : ParameterSpec} :
    Unsupplied state params args name p ↔
      Unsupplied State.blank params args name p ∧ ¬ state.Supplies p := by
  have nothing : ∀ key, State.blank.get? key = none := fun _ => rfl
  unfold Unsupplied State.Supplies
  constructor
  · rintro ⟨required, null, fallback⟩
    refine ⟨⟨required, null, fun key v _ hv => ?_⟩, ?_⟩
    · rw [nothing] at hv
      cases hv
    · rintro ⟨key, v, hk, hv, hn⟩
      exact hn (fallback key v hk hv)
  · rintro ⟨⟨required, null, _⟩, unsupplied⟩
    refine ⟨required, null, fun key v hk hv => ?_⟩
    by_contra hn
    exact unsupplied ⟨key, v, hk, hv, hn⟩

theorem lacking_sublist (state : State) (params : Parameters) (args : Members Value) :
    (lacking state params args).Sublist (lacking State.blank params args) := by
  refine List.Sublist.map _ (List.monotone_filter_right params fun param h => ?_)
  simp only [Bool.and_eq_true, Option.isNone_iff_eq_none] at h ⊢
  obtain ⟨required, none⟩ := h
  have unsupplied := unsupplied_iff.mp ((supply?_eq_none_iff required).mp none)
  exact ⟨required, (supply?_eq_none_iff required).mpr unsupplied.1⟩

theorem nodup_lacking (once : (Members.keys params).Nodup) (state : State)
    (args : Members Value) : (lacking state params args).Nodup :=
  once.sublist (List.filter_sublist.map _)

/-- A name that lacks in a state is one that lacks without a state and is not supplied. -/
theorem mem_lacking_iff_supplies (once : (Members.keys params).Nodup) {name : String} :
    name ∈ lacking state params args ↔ name ∈ lacking State.blank params args ∧
      ∀ p, (name, p) ∈ params → ¬ state.Supplies p := by
  simp only [mem_lacking_iff]
  constructor
  · rintro ⟨p, hp, lacks⟩
    obtain ⟨ahead, unsupplied⟩ := unsupplied_iff.mp lacks
    refine ⟨⟨p, hp, ahead⟩, fun q hq => ?_⟩
    have same : q = p := Members.eq_of_mem once hq hp
    rwa [same]
  · rintro ⟨⟨p, hp, ahead⟩, unsupplied⟩
    exact ⟨p, hp, unsupplied_iff.mpr ⟨ahead, unsupplied p hp⟩⟩

/-! ## Refused values -/

/-- A value may be refused for many reasons, but it is there. -/
theorem normalizeValue_ne_missing {name : String} {p : ParameterSpec} {v : Value}
    {names : List String} : normalizeValue tree name p v ≠ .error (.missingRequired names) := by
  intro h
  cases normalizeValue_eq_error h

theorem arrange_ne_missing {params : Parameters} {names : List String} :
    arrange tree given params ≠ .error (.missingRequired names) := by
  induction params with
  | nil => exact nofun
  | cons param params ih =>
    intro h
    rw [arrange, argumentOf_eq] at h
    rcases Except.bind_eq_error_iff.mp h with h | ⟨first, _, h⟩
    · unfold argumentFrom at h
      split at h
      · cases h
      · exact normalizeValue_ne_missing (Except.map_eq_error h)
      · cases h
    · rcases Except.bind_eq_error_iff.mp h with h | ⟨rest, _, h⟩
      · exact ih h
      · cases h

/-! ## The forecast -/

theorem prepare_missing_iff (once : (Members.keys params).Nodup) {names : List String} :
    prepare tree state params args = .error (.missingRequired names) ↔
      (∀ a ∈ args, params.Declares a.1) ∧ names ≠ [] ∧ names = lacking state params args := by
  by_cases declared : ∀ a ∈ args, params.Declares a.1
  · rw [prepare_of_declares once declared, and_iff_right declared]
    cases lacking state params args with
    | nil =>
      have found : arrange tree (filled state params args) params ≠
          .error (.missingRequired names) := arrange_ne_missing
      simp [found]
    | cons lacks others =>
      simp only [Except.error.injEq, ValidationError.missingRequired.injEq]
      constructor
      · rintro rfl
        exact ⟨List.cons_ne_nil _ _, rfl⟩
      · rintro ⟨_, rfl⟩
        rfl
  · obtain ⟨before, key, v, after, rfl, hb, hk⟩ := exists_undeclared declared
    rw [prepare_of_undeclared hb hk]
    constructor
    · intro h
      cases h
    · intro h
      exact absurd h.1 declared

theorem prepare_eq_validate (once : (Members.keys params).Nodup)
    (present : ∀ names, validate tree params args ≠ .error (.missingRequired names))
    (state : State) : prepare tree state params args = validate tree params args := by
  rw [validate_eq_prepare] at present ⊢
  by_cases declared : ∀ a ∈ args, params.Declares a.1
  · have complete : lacking State.blank params args = [] := by
      by_contra some
      exact present _ ((prepare_missing_iff once).mpr ⟨declared, some, rfl⟩)
    have still : lacking state params args = [] := by
      have fewer := lacking_sublist state params args
      rw [complete] at fewer
      exact List.sublist_nil.mp fewer
    rw [prepare_of_declares once declared, prepare_of_declares once declared, complete, still,
      filled_of_complete once complete state]
  · obtain ⟨before, key, v, after, rfl, hb, hk⟩ := exists_undeclared declared
    rw [prepare_of_undeclared hb hk, prepare_of_undeclared hb hk]

/-- What validation says about preparation in any state. -/
structure Foretells (tree : FileTree) (params : Parameters) (args : Members Value) : Prop where
  accepted : ∀ out, validate tree params args = .ok out →
    ∀ state, prepare tree state params args = .ok out
  /-- What no state value supplies is still missing, in the same order. -/
  missing : ∀ names, validate tree params args = .error (.missingRequired names) →
    ∀ state, ∃ left, names.Nodup ∧ left.Sublist names ∧
      (∀ name, name ∈ left ↔
        name ∈ names ∧ ∀ p, (name, p) ∈ params → ¬ state.Supplies p) ∧
      (left ≠ [] → prepare tree state params args = .error (.missingRequired left)) ∧
      (left = [] → ∀ others, prepare tree state params args ≠ .error (.missingRequired others))
  refused : ∀ cause, validate tree params args = .error cause →
    (∀ names, cause ≠ .missingRequired names) →
    ∀ state, prepare tree state params args = .error cause

theorem validate_foretells (tree : FileTree) (params : Parameters) (args : Members Value)
    (once : (Members.keys params).Nodup) : Foretells tree params args := by
  refine ⟨?accepted, ?missing, ?refused⟩
  case accepted =>
    intro out valid state
    have present : ∀ names, validate tree params args ≠ .error (.missingRequired names) := by
      simp [valid]
    rw [prepare_eq_validate once present, valid]
  case missing =>
    intro names h state
    rw [validate_eq_prepare] at h
    obtain ⟨declared, _, rfl⟩ := (prepare_missing_iff once).mp h
    refine ⟨lacking state params args, nodup_lacking once State.blank args,
      lacking_sublist state params args, fun _ => mem_lacking_iff_supplies once, ?_, ?_⟩
    · intro some
      exact (prepare_missing_iff once).mpr ⟨declared, some, rfl⟩
    · intro none others again
      obtain ⟨_, some, rfl⟩ := (prepare_missing_iff once).mp again
      exact some none
  case refused =>
    intro cause h other state
    have present : ∀ names, validate tree params args ≠ .error (.missingRequired names) := by
      intro names missing
      exact other names (Except.error.inj (h.symm.trans missing))
    rw [prepare_eq_validate once present, h]

/-- Two required parameters, one of them with a fallback. -/
def parcelParameters : Parameters := [
  ("sender", { ParameterSpec.ofType "string" with
    isRequired := true, stateFallback := some "user" }),
  ("weight", { ParameterSpec.ofType "integer" with isRequired := true })]

theorem validate_foretells_parcel :
    (Members.keys parcelParameters).Nodup ∧
      validate ⟨[], []⟩ parcelParameters [("SENDER", .null)] =
        .error (.missingRequired ["sender", "weight"]) ∧
      ∃ left, left.Sublist ["sender", "weight"] ∧ "weight" ∈ left ∧
        prepare ⟨[], []⟩ ⟨[("user", .string "Ada")]⟩ parcelParameters [("SENDER", .null)] =
          .error (.missingRequired left) ∧
        ∀ state, prepare ⟨[], []⟩ state parcelParameters
            [("weight", .string "3"), ("Sender", .string "Bo")] =
          .ok [("sender", .string "Bo"), ("weight", .int 3)] := by
  have once : (Members.keys parcelParameters).Nodup := by decide
  have short : validate ⟨[], []⟩ parcelParameters [("SENDER", .null)] =
      .error (.missingRequired ["sender", "weight"]) := rfl
  obtain ⟨left, _, fewer, which, still, _⟩ :=
    (validate_foretells ⟨[], []⟩ parcelParameters [("SENDER", .null)] once).missing _ short
      ⟨[("user", .string "Ada")]⟩
  have weight : "weight" ∈ left := by
    refine (which "weight").mpr ⟨by decide, ?_⟩
    rintro p hp ⟨key, v, hk, _⟩
    simp [parcelParameters] at hp
    rw [hp] at hk
    cases hk
  refine ⟨once, short, left, fewer, weight, still (List.ne_nil_of_mem weight), ?_⟩
  exact (validate_foretells ⟨[], []⟩ parcelParameters _ once).accepted _ rfl

end Validation

end CommandContract
