import CommandContract.Proofs.Chain.Course
import CommandContract.Proofs.Members

set_option autoImplicit false

/-!
# What side effects do to the state

Which keys are cleared, what every other key holds, in what order the keys stand, and that the same
effects change nothing when they are applied again. `SideEffects.apply_lawful` says so for all
effects, with the condition under which they can be applied at all; a command whose effects cannot
be applied leaves the whole chain as it was.
-/
namespace CommandContract

/-! ## Sources and conditions -/

/-- The value that an assignment makes, from the first of its sources that is given. -/
inductive StateAssignment.Gives (args : Members Value) (context : Value) (a : StateAssignment) :
    Value → Prop
  | argument {name : String} {v : Value} (source : a.parameter = some name)
      (found : Members.get? name args = some v) : Gives args context a v
  | rendered {template text : String} (free : a.parameter = none)
      (source : a.template = some template) (made : Template.render template context = .ok text) :
      Gives args context a (.string text)
  | literal {v : Value} (free : a.parameter = none) (plain : a.template = none)
      (source : a.value = some v) : Gives args context a v

/-- The argument is as said, and the condition holds. -/
structure ConditionalClear.Applies (args : Members Value) (context : Value) (c : ConditionalClear) :
    Prop where
  argument : ∀ name, c.parameter = some name → ∃ v, Members.get? name args = some v ∧
    (∀ expected, c.equals = some expected → looselySame v expected = true) ∧
    (c.equals = none → Condition.truthy v = true)
  condition : ∀ text, c.condition = some text → Condition.check text context = .ok true

namespace SideEffects

/-- The effects set a key to a value, unless they clear it. -/
def Sets (e : SideEffects) (args : Members Value) (output : Value) (key : String) (v : Value) :
    Prop :=
  ∃ a, (key, a) ∈ e.assignments ∧ a.Gives args (effectContext args output) v

def Clears (e : SideEffects) (args : Members Value) (output : Value) (key : String) : Prop :=
  key ∈ e.clears ∨
    ∃ c ∈ e.conditionalClears, c.Applies args (effectContext args output) ∧ key ∈ c.keys

/-- Every template that counts can be rendered, and every condition can be evaluated. -/
structure Evaluable (e : SideEffects) (args : Members Value) (output : Value) : Prop where
  templates : ∀ entry ∈ e.assignments, entry.2.parameter = none → ∀ template,
    entry.2.template = some template →
      ∃ text, Template.render template (effectContext args output) = .ok text
  conditions : ∀ c ∈ e.conditionalClears, ∀ text, c.condition = some text →
    ∃ b, Condition.check text (effectContext args output) = .ok b

end SideEffects

section Evaluation

variable {args : Members Value} {context : Value}

theorem StateAssignment.value?_eq_some_iff {a : StateAssignment} {v : Value} :
    a.value? args context = .ok (some v) ↔ a.Gives args context v := by
  constructor
  · intro h
    unfold value? at h
    split at h
    · rename_i name source
      exact .argument source (Except.ok.inj h)
    · rename_i template free source
      obtain ⟨text, made, hv⟩ := Except.map_eq_ok_iff.mp h
      obtain rfl := Option.some.inj hv
      exact .rendered free source made
    · rename_i free plain
      exact .literal free plain (Except.ok.inj h)
  · intro h
    unfold value?
    cases h with
    | argument source found => rw [source]; exact congrArg Except.ok found
    | rendered free source made => rw [free, source]; dsimp only; rw [made]; rfl
    | literal free plain source => rw [free, plain]; exact congrArg Except.ok source

theorem StateAssignment.exists_value?_iff {a : StateAssignment} :
    (∃ v, a.value? args context = .ok v) ↔ (a.parameter = none → ∀ template,
      a.template = some template → ∃ text, Template.render template context = .ok text) := by
  unfold value?
  cases a.parameter with
  | some name => simp
  | none =>
    cases a.template with
    | none => simp
    | some template => cases h : Template.render template context <;> simp [Except.map, h]

theorem ConditionalClear.argumentFits_iff {c : ConditionalClear} :
    c.argumentFits args = true ↔ ∀ name, c.parameter = some name →
      ∃ v, Members.get? name args = some v ∧
        (∀ expected, c.equals = some expected → looselySame v expected = true) ∧
        (c.equals = none → Condition.truthy v = true) := by
  unfold argumentFits
  cases c.parameter with
  | none => simp
  | some name =>
    cases c.equals with
    | none => simp [Option.any_eq_true]
    | some expected => simp [Option.any_eq_true]

theorem ConditionalClear.cleared_eq_ok {c : ConditionalClear} {keys : List String}
    (h : c.cleared args context = .ok keys) : ∃ holds : Bool,
      (holds = true ↔ ∀ text, c.condition = some text → Condition.check text context = .ok true) ∧
        keys = if c.argumentFits args && holds then c.keys else [] := by
  unfold cleared at h
  cases hc : c.condition with
  | none =>
    rw [hc] at h
    obtain ⟨holds, held, hk⟩ := Except.bind_eq_ok_iff.mp h
    obtain rfl := Except.ok.inj held
    exact ⟨true, by simp, (Except.ok.inj hk).symm⟩
  | some text =>
    rw [hc] at h
    obtain ⟨holds, checked, hk⟩ := Except.bind_eq_ok_iff.mp h
    exact ⟨holds, by simp [checked], (Except.ok.inj hk).symm⟩

theorem ConditionalClear.mem_of_cleared {c : ConditionalClear} {keys : List String}
    (h : c.cleared args context = .ok keys) (key : String) :
    key ∈ keys ↔ c.Applies args context ∧ key ∈ c.keys := by
  obtain ⟨holds, condition, rfl⟩ := cleared_eq_ok h
  have applies : (c.argumentFits args && holds) = true ↔ c.Applies args context := by
    rw [Bool.and_eq_true, argumentFits_iff, condition]
    exact ⟨fun h => ⟨h.1, h.2⟩, fun h => ⟨h.1, h.2⟩⟩
  rw [← applies]
  cases c.argumentFits args && holds <;> simp

theorem ConditionalClear.exists_cleared_iff {c : ConditionalClear} :
    (∃ keys, c.cleared args context = .ok keys) ↔
      ∀ text, c.condition = some text → ∃ b, Condition.check text context = .ok b := by
  unfold cleared
  cases c.condition with
  | none => simp [bind, Except.bind]
  | some text => cases h : Condition.check text context <;> simp [bind, Except.bind, h]

namespace SideEffects

/-- What is set, in the order of the entries. -/
theorem sets_eq_ok {assignments : Members StateAssignment} {sets : List (String × Value)}
    (h : SideEffects.sets args context assignments = .ok sets) :
    (Members.keys sets).Sublist (Members.keys assignments) ∧ ∀ key v, (key, v) ∈ sets ↔
      ∃ a, (key, a) ∈ assignments ∧ a.Gives args context v := by
  induction assignments generalizing sets with
  | nil =>
    obtain rfl := Except.ok.inj h
    exact ⟨.refl _, by simp⟩
  | cons entry assignments ih =>
    obtain ⟨name, a⟩ := entry
    rw [SideEffects.sets] at h
    obtain ⟨made, ha, h⟩ := Except.bind_eq_ok_iff.mp h
    obtain ⟨rest, hr, h⟩ := Except.bind_eq_ok_iff.mp h
    obtain ⟨order, given⟩ := ih hr
    have here : ∀ v, a.Gives args context v ↔ made = some v := by
      intro v
      rw [← StateAssignment.value?_eq_some_iff, ha, Except.ok.injEq]
    have split : ∀ key v, (∃ b, (key, b) ∈ (name, a) :: assignments ∧ b.Gives args context v) ↔
        (key = name ∧ made = some v) ∨ (key, v) ∈ rest := by
      intro key v
      rw [given, ← here]
      constructor
      · rintro ⟨b, hb, hv⟩
        rcases List.mem_cons.mp hb with first | below
        · obtain ⟨rfl, rfl⟩ := Prod.mk.inj first
          exact .inl ⟨rfl, hv⟩
        · exact .inr ⟨b, below, hv⟩
      · rintro (⟨rfl, hv⟩ | ⟨b, below, hv⟩)
        · exact ⟨a, List.mem_cons_self, hv⟩
        · exact ⟨b, List.mem_cons_of_mem _ below, hv⟩
    cases made with
    | none =>
      obtain rfl := Except.ok.inj h
      exact ⟨order.cons _, fun key v => by rw [split]; simp⟩
    | some w =>
      obtain rfl := Except.ok.inj h
      refine ⟨order.cons_cons _, fun key v => ?_⟩
      rw [split, List.mem_cons, Prod.mk.injEq, Option.some.injEq, eq_comm (a := w)]

theorem exists_sets_iff {assignments : Members StateAssignment} :
    (∃ sets, SideEffects.sets args context assignments = .ok sets) ↔
      ∀ entry ∈ assignments, ∃ v, entry.2.value? args context = .ok v := by
  induction assignments with
  | nil => simp [SideEffects.sets]
  | cons entry assignments ih =>
    rw [List.forall_mem_cons, ← ih, SideEffects.sets]
    constructor
    · rintro ⟨sets, h⟩
      obtain ⟨v, hv, h⟩ := Except.bind_eq_ok_iff.mp h
      obtain ⟨rest, hr, _⟩ := Except.bind_eq_ok_iff.mp h
      exact ⟨⟨v, hv⟩, rest, hr⟩
    · rintro ⟨⟨v, hv⟩, rest, hr⟩
      rw [hv, hr]
      exact ⟨_, rfl⟩

theorem mem_of_conditionalKeys {clears : List ConditionalClear} {keys : List String}
    (h : SideEffects.conditionalKeys args context clears = .ok keys) (key : String) :
    key ∈ keys ↔ ∃ c ∈ clears, c.Applies args context ∧ key ∈ c.keys := by
  induction clears generalizing keys with
  | nil =>
    obtain rfl := Except.ok.inj h
    simp
  | cons c clears ih =>
    rw [SideEffects.conditionalKeys] at h
    obtain ⟨own, hc, h⟩ := Except.bind_eq_ok_iff.mp h
    obtain ⟨rest, hr, h⟩ := Except.bind_eq_ok_iff.mp h
    obtain rfl := Except.ok.inj h
    rw [List.mem_append, c.mem_of_cleared hc, ih hr]
    simp

theorem exists_conditionalKeys_iff {clears : List ConditionalClear} :
    (∃ keys, SideEffects.conditionalKeys args context clears = .ok keys) ↔
      ∀ c ∈ clears, ∃ keys, c.cleared args context = .ok keys := by
  induction clears with
  | nil => simp [SideEffects.conditionalKeys]
  | cons c clears ih =>
    rw [List.forall_mem_cons, ← ih, SideEffects.conditionalKeys]
    constructor
    · rintro ⟨keys, h⟩
      obtain ⟨own, hc, h⟩ := Except.bind_eq_ok_iff.mp h
      obtain ⟨rest, hr, _⟩ := Except.bind_eq_ok_iff.mp h
      exact ⟨⟨own, hc⟩, rest, hr⟩
    · rintro ⟨⟨own, hc⟩, rest, hr⟩
      rw [hc, hr]
      exact ⟨_, rfl⟩

end SideEffects

end Evaluation

/-! ## A change and the state behind it -/

namespace StateChange

variable {c : StateChange} {s : State}

theorem values_apply (once : s.keys.Nodup) : (c.apply s).values =
    (Members.putAll c.sets s.values).filter fun m => !c.clears.contains m.1 := by
  have written : ∀ (pairs : List (String × Value)) (s : State),
      (pairs.foldl (fun s pair => s.set pair.1 pair.2) s).values =
        Members.putAll pairs s.values := by
    intro pairs
    induction pairs with
    | nil => exact fun _ => rfl
    | cons pair pairs ih => exact fun s => ih (s.set pair.1 pair.2)
  have removed : ∀ (keys : List String) (s : State), (keys.foldl State.remove s).values =
      keys.foldl (fun ms key => Members.erase key ms) s.values := by
    intro keys
    induction keys with
    | nil => exact fun _ => rfl
    | cons key keys ih => exact fun s => ih (s.remove key)
  rw [apply, removed, written, Members.foldl_erase _ (Members.nodup_keys_putAll _ once)]

theorem get?_apply (once : s.keys.Nodup) (apart : (Members.keys c.sets).Nodup) (key : String) :
    (c.apply s).get? key =
      if key ∈ c.clears then none else (Members.get? key c.sets).or (s.get? key) := by
  rw [State.get?, values_apply once]
  split
  · rename_i cleared
    rw [Members.get?_eq_none_iff, Members.keys_filter fun k => !c.clears.contains k]
    simp [cleared]
  · rename_i kept
    rw [Members.get?_filter (fun k => !c.clears.contains k) (by simpa using kept),
      Members.get?_putAll apart]
    rfl

theorem keys_apply (once : s.keys.Nodup) (apart : (Members.keys c.sets).Nodup) :
    (c.apply s).keys = s.keys.filter (fun k => !c.clears.contains k) ++
      ((Members.keys c.sets).filter fun k => k ∉ s.keys).filter fun k =>
        !c.clears.contains k := by
  rw [State.keys, values_apply once, Members.keys_filter fun k => !c.clears.contains k,
    Members.keys_putAll apart, List.filter_append]
  rfl

theorem nodup_keys_apply (once : s.keys.Nodup) : (c.apply s).keys.Nodup := by
  rw [State.keys, values_apply once, Members.keys_filter fun k => !c.clears.contains k]
  exact (Members.nodup_keys_putAll _ once).filter _

/-- What is set and not cleared is there already, and holds the same value. -/
theorem apply_again (once : s.keys.Nodup) (apart : (Members.keys c.sets).Nodup) :
    c.apply (c.apply s) = c.apply s := by
  have kept : (c.apply s).keys.filter (fun k => !c.clears.contains k) = (c.apply s).keys := by
    rw [State.keys, values_apply once, Members.keys_filter fun k => !c.clears.contains k,
      List.filter_filter]
    simp
  have present : ∀ key, key ∈ Members.keys c.sets → key ∉ (c.apply s).keys → key ∈ c.clears := by
    intro key set absent
    by_contra uncleared
    have found := get?_apply once apart key
    rw [if_neg uncleared, State.get?, (Members.get?_eq_none_iff _ _).mpr absent] at found
    exact (Members.get?_eq_none_iff _ _).mp (Option.or_eq_none_iff.mp found.symm).1 set
  have names : (c.apply (c.apply s)).keys = (c.apply s).keys := by
    have none : ((Members.keys c.sets).filter fun k => k ∉ (c.apply s).keys).filter
        (fun k => !c.clears.contains k) = [] := by
      simp only [List.filter_eq_nil_iff, List.mem_filter]
      rintro key ⟨set, absent⟩
      simpa using present key set (of_decide_eq_true absent)
    rw [keys_apply (nodup_keys_apply once) apart, kept, none, List.append_nil]
  have values : ∀ key, (c.apply (c.apply s)).get? key = (c.apply s).get? key := by
    intro key
    rw [get?_apply (nodup_keys_apply once) apart, get?_apply once apart]
    split
    · rfl
    · rw [← Option.or_assoc, Option.or_self]
  have once' := nodup_keys_apply (c := c) (nodup_keys_apply (c := c) once)
  exact congrArg State.mk (Members.ext_get? names once' values)

end StateChange

/-! ## Effects -/

/-- The choice of the next command changes no state. -/
theorem Chain.follow_state (e : Engine) (p : Progress) (c : CommandSpec) (link : ChainLink) :
    (follow e p c link).1.state = p.state := by
  unfold follow
  dsimp only
  split <;> rfl

namespace SideEffects

/-- The state behind effects, key by key and in its order. -/
structure Effected (e : SideEffects) (args : Members Value) (output : Value) (s t : State) :
    Prop where
  cleared : ∀ key, e.Clears args output key → key ∉ t.keys
  set : ∀ key v, ¬ e.Clears args output key → e.Sets args output key v → t.get? key = some v
  kept : ∀ key, ¬ e.Clears args output key → (∀ v, ¬ e.Sets args output key v) →
    t.get? key = s.get? key
  order : ∃ old new, t.keys = old ++ new ∧
    old.Sublist s.keys ∧ (∀ key, key ∈ old ↔ key ∈ s.keys ∧ ¬ e.Clears args output key) ∧
    new.Sublist (Members.keys e.assignments) ∧ ∀ key, key ∈ new ↔
      key ∉ s.keys ∧ ¬ e.Clears args output key ∧ ∃ v, e.Sets args output key v
  once : t.keys.Nodup
  again : e.apply args output t = .ok t

/-- All that applying effects can do, by itself and behind a command of a chain. -/
structure Lawful (e : SideEffects) (args : Members Value) (output : Value) (s : State) : Prop where
  succeeds : (∃ t, e.apply args output s = .ok t) ↔ e.Evaluable args output
  effected : ∀ t, e.apply args output s = .ok t → Effected e args output s t
  chain : ∀ (engine : Engine) (stamp : Stamp) (p : Chain.Progress) (c : CommandSpec)
    (answer : Value), c.sideEffects = some e → p.state = s →
    Chain.finalOutput c args answer = .ok output →
    (∀ cause, e.apply args output s = .error cause →
      Chain.complete engine stamp p c args answer = (p, .failed (.template cause))) ∧
    ∀ t, e.apply args output s = .ok t →
      (Chain.complete engine stamp p c args answer).1.state = t

section Apply

variable {e : SideEffects} {args : Members Value} {output : Value} {s t : State}

/-- What a change of effects sets and clears. -/
theorem change_eq_ok {c : StateChange} (h : e.change args output = .ok c) :
    (Members.keys c.sets).Sublist (Members.keys e.assignments) ∧
      (∀ key v, (key, v) ∈ c.sets ↔ e.Sets args output key v) ∧
      ∀ key, key ∈ c.clears ↔ e.Clears args output key := by
  unfold change at h
  obtain ⟨sets, hs, h⟩ := Except.bind_eq_ok_iff.mp h
  obtain ⟨keys, hk, h⟩ := Except.bind_eq_ok_iff.mp h
  obtain rfl := Except.ok.inj h
  obtain ⟨order, given⟩ := sets_eq_ok hs
  refine ⟨order, given, fun key => ?_⟩
  rw [List.mem_append, mem_of_conditionalKeys hk]
  rfl

theorem exists_change_iff : (∃ c, e.change args output = .ok c) ↔ e.Evaluable args output := by
  have templates : (∀ entry ∈ e.assignments, ∃ v, entry.2.value? args (effectContext args output) =
      .ok v) ↔ _ := forall₂_congr fun entry _ => StateAssignment.exists_value?_iff
  have conditions : (∀ c ∈ e.conditionalClears, ∃ keys, c.cleared args (effectContext args output) =
      .ok keys) ↔ _ := forall₂_congr fun c _ => ConditionalClear.exists_cleared_iff
  rw [← exists_sets_iff] at templates
  rw [← exists_conditionalKeys_iff] at conditions
  constructor
  · rintro ⟨c, h⟩
    unfold change at h
    obtain ⟨sets, hs, h⟩ := Except.bind_eq_ok_iff.mp h
    obtain ⟨keys, hk, _⟩ := Except.bind_eq_ok_iff.mp h
    exact ⟨templates.mp ⟨sets, hs⟩, conditions.mp ⟨keys, hk⟩⟩
  · intro h
    obtain ⟨sets, hs⟩ := templates.mpr h.templates
    obtain ⟨keys, hk⟩ := conditions.mpr h.conditions
    unfold change
    dsimp only
    rw [hs, hk]
    exact ⟨_, rfl⟩

theorem apply_eq_ok_iff :
    e.apply args output s = .ok t ↔ ∃ c, e.change args output = .ok c ∧ c.apply s = t :=
  Except.map_eq_ok_iff

theorem effected_of_ok (apart : (Members.keys e.assignments).Nodup) (once : s.keys.Nodup)
    (h : e.apply args output s = .ok t) : Effected e args output s t := by
  obtain ⟨c, hc, rfl⟩ := apply_eq_ok_iff.mp h
  obtain ⟨order, sets, clears⟩ := change_eq_ok hc
  have names : (Members.keys c.sets).Nodup := apart.sublist order
  have named : ∀ key, key ∈ Members.keys c.sets ↔ ∃ v, e.Sets args output key v := by
    intro key
    simp [← sets, Members.keys]
  have uncleared : ∀ key, (!c.clears.contains key) = true ↔ ¬ e.Clears args output key := by
    intro key
    simp [clears]
  refine ⟨?cleared, ?set, ?kept, ?order, StateChange.nodup_keys_apply once, ?again⟩
  case cleared =>
    intro key hk
    have absent := StateChange.get?_apply once names key
    rw [if_pos ((clears key).mpr hk)] at absent
    exact (Members.get?_eq_none_iff key _).mp absent
  case set =>
    intro key v hk hv
    have found := (Members.get?_eq_some_iff names).mpr ((sets key v).mpr hv)
    rw [StateChange.get?_apply once names, if_neg (mt (clears key).mp hk), found, Option.some_or]
  case kept =>
    intro key hk hv
    have absent : Members.get? key c.sets = none := by
      rw [Members.get?_eq_none_iff, named, not_exists]
      exact hv
    rw [StateChange.get?_apply once names, if_neg (mt (clears key).mp hk), absent, Option.none_or]
  case order =>
    refine ⟨_, _, StateChange.keys_apply once names, List.filter_sublist, fun key => ?_,
      List.filter_sublist.trans (List.filter_sublist.trans order), fun key => ?_⟩
    · rw [List.mem_filter, uncleared]
    · rw [List.mem_filter, List.mem_filter, uncleared, named, decide_eq_true_iff]
      constructor
      · rintro ⟨⟨set, new⟩, kept⟩
        exact ⟨new, kept, set⟩
      · rintro ⟨new, kept, set⟩
        exact ⟨⟨set, new⟩, kept⟩
  case again =>
    rw [apply_eq_ok_iff]
    exact ⟨c, hc, StateChange.apply_again once names⟩

theorem complete_of_error {engine : Engine} {stamp : Stamp} {p : Chain.Progress} {c : CommandSpec}
    {answer : Value} {cause : TemplateError} (declared : c.sideEffects = some e)
    (final : Chain.finalOutput c args answer = .ok output)
    (h : e.apply args output p.state = .error cause) :
    Chain.complete engine stamp p c args answer = (p, .failed (.template cause)) := by
  have faulty : Chain.changeOf c args output = .error cause := by
    rw [Chain.changeOf, declared]
    exact Except.map_eq_error h
  rw [Chain.complete, final]
  dsimp only
  rw [faulty]

theorem complete_of_ok {engine : Engine} {stamp : Stamp} {p : Chain.Progress} {c : CommandSpec}
    {answer : Value} (declared : c.sideEffects = some e)
    (final : Chain.finalOutput c args answer = .ok output)
    (h : e.apply args output p.state = .ok t) :
    (Chain.complete engine stamp p c args answer).1.state = t := by
  obtain ⟨change, evaluated, rfl⟩ := apply_eq_ok_iff.mp h
  have changes : Chain.changeOf c args output = .ok change := by
    rw [Chain.changeOf, declared]
    exact evaluated
  rw [Chain.complete, final]
  dsimp only
  rw [changes]
  dsimp only
  rw [Chain.follow_state, Chain.Progress.record_state]

end Apply

theorem apply_lawful (e : SideEffects) (args : Members Value) (output : Value) (s : State)
    (apart : (Members.keys e.assignments).Nodup) (once : s.keys.Nodup) :
    Lawful e args output s := by
  refine ⟨?succeeds, fun t h => effected_of_ok apart once h, ?chain⟩
  case succeeds =>
    rw [← exists_change_iff]
    constructor
    · rintro ⟨t, h⟩
      obtain ⟨c, hc, _⟩ := apply_eq_ok_iff.mp h
      exact ⟨c, hc⟩
    · rintro ⟨c, hc⟩
      exact ⟨c.apply s, apply_eq_ok_iff.mpr ⟨c, hc, rfl⟩⟩
  case chain =>
    rintro engine stamp p c answer declared rfl final
    exact ⟨fun cause h => complete_of_error declared final h,
      fun t h => complete_of_ok declared final h⟩

/-- A key that is set and cleared, one that a condition clears, and one that keeps its place. -/
def checkout : SideEffects where
  assignments := [
    ("total", ⟨none, none, some (.int 12)⟩), ("item", ⟨some "item", none, none⟩),
    ("note", ⟨none, some "{{ item }}!", none⟩), ("coupon", ⟨some "coupon", none, none⟩)]
  clears := ["total"]
  conditionalClears := [⟨some "item", some (.string "tea"), none, ["cart"]⟩]
  builtin := none

theorem apply_lawful_checkout :
    (Members.keys checkout.assignments).Nodup ∧
      (State.mk [("cart", .int 1), ("item", .null), ("user", .string "u")]).keys.Nodup ∧
      Lawful checkout [("item", .string "tea")] .null
        ⟨[("cart", .int 1), ("item", .null), ("user", .string "u")]⟩ ∧
      checkout.apply [("item", .string "tea")] .null
        ⟨[("cart", .int 1), ("item", .null), ("user", .string "u")]⟩ =
          .ok ⟨[("item", .string "tea"), ("user", .string "u"), ("note", .string "tea!")]⟩ := by
  have apart : (Members.keys checkout.assignments).Nodup := by decide
  have once : (State.mk [("cart", .int 1), ("item", .null), ("user", .string "u")]).keys.Nodup := by
    decide
  exact ⟨apart, once, apply_lawful _ _ _ _ apart once, rfl⟩

end SideEffects

end CommandContract
