import CommandContract.Proofs.Chain.Course
import CommandContract.Proofs.Members

set_option autoImplicit false

/-!
# What a chain does to the state

A command changes the state with all of its declared effects or not at all. `run_atomic` says for
whole runs, whether they end well or not, that the state is the one that the completed commands
make, one after the other, and that the values that none of them names are as they were.
-/
namespace CommandContract

/-! ## Names of effects -/

/-- Every state key that stands in the effects. -/
def SideEffects.names (e : SideEffects) : List String :=
  Members.keys e.assignments ++ e.clears ++ e.conditionalClears.flatMap (·.keys)

/-- Every state key that the effects of a command name. -/
def CommandSpec.stateNames (c : CommandSpec) : List String :=
  (c.sideEffects.map SideEffects.names).getD []

/-- The values under other names, in their order. -/
def State.apartFrom (names : List String) (state : State) : Members Value :=
  state.values.filter fun m => !names.contains m.1

theorem State.get?_of_apartFrom {names : List String} {s t : State}
    (h : s.apartFrom names = t.apartFrom names) {key : String} (hk : key ∉ names) :
    s.get? key = t.get? key := by
  have found : ∀ u : State, Members.get? key (u.apartFrom names) = u.get? key := by
    intro u
    exact Members.get?_filter (fun k => !names.contains k) (by simpa using hk) u.values
  rw [← found s, ← found t, h]

theorem State.apartFrom_set {names : List String} {key : String} (hk : key ∈ names) (v : Value)
    (s : State) : (s.set key v).apartFrom names = s.apartFrom names := by
  refine Members.filter_put (fun k => !names.contains k) ?_ v s.values
  simpa using hk

theorem State.apartFrom_remove {names : List String} {key : String} (hk : key ∈ names)
    (s : State) : (s.remove key).apartFrom names = s.apartFrom names := by
  refine Members.filter_erase (fun k => !names.contains k) ?_ s.values
  simpa using hk

/-- A change writes to its own keys only. -/
theorem StateChange.apartFrom_apply {names : List String} {c : StateChange}
    (sets : ∀ pair ∈ c.sets, pair.1 ∈ names) (clears : ∀ key ∈ c.clears, key ∈ names)
    (s : State) : (c.apply s).apartFrom names = s.apartFrom names := by
  have written : ∀ (pairs : List (String × Value)) (s : State),
      (∀ pair ∈ pairs, pair.1 ∈ names) →
      (pairs.foldl (fun s pair => s.set pair.1 pair.2) s).apartFrom names = s.apartFrom names := by
    intro pairs
    induction pairs with
    | nil => exact fun _ _ => rfl
    | cons pair pairs ih =>
      intro s h
      rw [List.forall_mem_cons] at h
      exact (ih _ h.2).trans (State.apartFrom_set h.1 _ s)
  have removed : ∀ (keys : List String) (s : State), (∀ key ∈ keys, key ∈ names) →
      (keys.foldl State.remove s).apartFrom names = s.apartFrom names := by
    intro keys
    induction keys with
    | nil => exact fun _ _ => rfl
    | cons key keys ih =>
      intro s h
      rw [List.forall_mem_cons] at h
      exact (ih _ h.2).trans (State.apartFrom_remove h.1 s)
  exact (removed _ _ clears).trans (written _ _ sets)

theorem SideEffects.sets_names {args : Members Value} {context : Value}
    {assignments : Members StateAssignment} {sets : List (String × Value)}
    (h : SideEffects.sets args context assignments = .ok sets) :
    ∀ pair ∈ sets, pair.1 ∈ Members.keys assignments := by
  induction assignments generalizing sets with
  | nil =>
    cases h
    simp
  | cons assignment assignments ih =>
    obtain ⟨key, a⟩ := assignment
    rw [SideEffects.sets] at h
    obtain ⟨v, _, h⟩ := Except.bind_eq_ok_iff.mp h
    obtain ⟨rest, hr, h⟩ := Except.bind_eq_ok_iff.mp h
    have inRest : ∀ pair ∈ rest, pair.1 ∈ Members.keys ((key, a) :: assignments) :=
      fun pair hp => List.mem_cons_of_mem _ (ih hr pair hp)
    obtain rfl := Except.ok.inj h
    cases v with
    | none => exact inRest
    | some v => exact List.forall_mem_cons.mpr ⟨List.mem_cons_self, inRest⟩

theorem ConditionalClear.cleared_names {args : Members Value} {context : Value}
    {c : ConditionalClear} {keys : List String} (h : c.cleared args context = .ok keys) :
    ∀ key ∈ keys, key ∈ c.keys := by
  have chosen : ∀ (holds : Bool) (key : String),
      key ∈ (if c.argumentFits args && holds then c.keys else []) → key ∈ c.keys := by
    intro holds key hk
    split at hk
    · exact hk
    · cases hk
  intro key hk
  unfold ConditionalClear.cleared at h
  split at h
  · obtain ⟨holds, _, h⟩ := Except.bind_eq_ok_iff.mp h
    exact chosen holds key (Except.ok.inj h ▸ hk)
  · obtain ⟨holds, _, h⟩ := Except.bind_eq_ok_iff.mp h
    exact chosen holds key (Except.ok.inj h ▸ hk)

theorem SideEffects.conditionalKeys_names {args : Members Value} {context : Value}
    {clears : List ConditionalClear} {keys : List String}
    (h : SideEffects.conditionalKeys args context clears = .ok keys) :
    ∀ key ∈ keys, key ∈ clears.flatMap (·.keys) := by
  induction clears generalizing keys with
  | nil =>
    cases h
    simp
  | cons clear clears ih =>
    rw [SideEffects.conditionalKeys] at h
    obtain ⟨own, hc, h⟩ := Except.bind_eq_ok_iff.mp h
    obtain ⟨rest, hr, h⟩ := Except.bind_eq_ok_iff.mp h
    obtain rfl := Except.ok.inj h
    intro key hk
    rw [List.flatMap_cons, List.mem_append]
    exact (List.mem_append.mp hk).imp (ConditionalClear.cleared_names hc key) (ih hr key)

/-- What effects change is among what they name. -/
theorem SideEffects.change_names {e : SideEffects} {args : Members Value} {output : Value}
    {c : StateChange} (h : e.change args output = .ok c) :
    (∀ pair ∈ c.sets, pair.1 ∈ e.names) ∧ ∀ key ∈ c.clears, key ∈ e.names := by
  unfold SideEffects.change at h
  obtain ⟨sets, hs, h⟩ := Except.bind_eq_ok_iff.mp h
  obtain ⟨keys, hk, h⟩ := Except.bind_eq_ok_iff.mp h
  obtain rfl := Except.ok.inj h
  simp only [SideEffects.names, List.mem_append]
  refine ⟨fun pair hp => .inl (.inl (sets_names hs pair hp)), fun key hc => ?_⟩
  exact hc.elim (fun hc => .inl (.inr hc)) fun hc => .inr (conditionalKeys_names hk key hc)

namespace Chain

theorem changeOf_apartFrom {c : CommandSpec} {args : Members Value} {output : Value}
    {change : StateChange} (h : changeOf c args output = .ok change) {names : List String}
    (named : ∀ key ∈ c.stateNames, key ∈ names) (s : State) :
    (change.apply s).apartFrom names = s.apartFrom names := by
  unfold changeOf at h
  unfold CommandSpec.stateNames at named
  split at h
  · rename_i effects declared
    rw [declared] at named
    obtain ⟨sets, clears⟩ := SideEffects.change_names h
    exact StateChange.apartFrom_apply (fun pair hp => named _ (sets pair hp))
      (fun key hk => named _ (clears key hk)) s
  · cases h
    rfl

/-! ## Commands one after the other -/

/-- The state after commands, one after the other. -/
def stateAfter (ds : List Completion) (s : State) : State :=
  ds.foldl (fun s d => d.change.apply s) s

theorem stateAfter_cons (d : Completion) (ds : List Completion) (s : State) :
    stateAfter (d :: ds) s = stateAfter ds (d.change.apply s) := rfl

/-- Every state key that one of the commands names. -/
def namesOf (ds : List Completion) : List String := ds.flatMap (·.spec.stateNames)

theorem stateAfter_apartFrom {ds : List Completion}
    (declared : ∀ d ∈ ds, changeOf d.spec d.link.args d.link.output = .ok d.change)
    {names : List String} (named : ∀ key ∈ namesOf ds, key ∈ names) (s : State) :
    (stateAfter ds s).apartFrom names = s.apartFrom names := by
  induction ds generalizing s with
  | nil => rfl
  | cons d ds ih =>
    rw [List.forall_mem_cons] at declared
    simp only [namesOf, List.flatMap_cons, List.mem_append] at named
    rw [stateAfter_cons, ih declared.2 (fun key hk => named key (.inr hk)),
      changeOf_apartFrom declared.1 fun key hk => named key (.inl hk)]

section Run

variable {e : Engine} {n : Nat} {p r : Progress} {call : Call} {ds : List Completion}
  {result : Except ChainFailure Value}

theorem Course.state_eq (h : Course e n p call ds r result) :
    r.state = stateAfter ds p.state := by
  induction h with
  | tooDeep => rfl
  | stopped h _ => exact h.state
  | faulty h _ => exact h.state
  | last h _ => exact h.state
  | further h _ _ _ _ ih => rw [ih, stateAfter_cons, h.state]

theorem Course.exit_eq (h : Course e n p call ds r result) :
    r.exit = (p.exit || ds.any fun d => signalsExit d.spec) := by
  induction h with
  | tooDeep => simp
  | stopped h _ => simp [h.exit]
  | faulty h _ => simp [h.exit]
  | last h _ => simp [h.exit]
  | further h _ _ _ _ ih => simp [ih, h.exit, Bool.or_assoc]

theorem Course.declared (h : Course e n p call ds r result) :
    ∀ d ∈ ds, d.link.name = d.spec.name ∧
      changeOf d.spec d.link.args d.link.output = .ok d.change := by
  induction h with
  | tooDeep => simp
  | stopped => simp
  | faulty h _ => simpa using ⟨h.name, h.change⟩
  | last h _ => simpa using ⟨h.name, h.change⟩
  | further h _ _ _ _ ih => exact List.forall_mem_cons.mpr ⟨⟨h.name, h.change⟩, ih⟩

end Run

/-- A command changes the state with its whole change or not at all. -/
theorem step_state (e : Engine) (stamp : Stamp) (p : Progress) (call : Call) :
    (step e stamp p call).1.state =
      stateAfter ((Visit.mk p call).completion? e).toList p.state := by
  have h := step_stepped e stamp p call
  generalize step e stamp p call = taken at h
  obtain ⟨q, s⟩ := taken
  cases h with
  | stopped partly h _ => simpa [partly, stateAfter] using h.state
  | faulty wholly h _ => simpa [wholly, stateAfter] using h.state
  | last wholly h _ => simpa [wholly, stateAfter] using h.state
  | further wholly h _ _ _ => simpa [wholly, stateAfter] using h.state

/-- A command behind which a run goes on is complete. -/
theorem completion?_of_next {e : Engine} {stamp : Stamp} {p q : Progress} {call following : Call}
    (h : step e stamp p call = (q, .next following)) :
    ∃ d, (Visit.mk p call).completion? e = some d := by
  have hs := step_stepped e stamp p call
  rw [h] at hs
  cases hs with
  | further wholly _ _ _ _ => exact ⟨_, wholly⟩

/-- Every command of a run finds the state that the commands before it made, all of which are
complete. -/
theorem visitsFrom_before {e : Engine} {stamp : Stamp} {n : Nat} {p : Progress} {call : Call}
    {earlier later : List Visit} {v : Visit}
    (h : visitsFrom e stamp n p call = earlier ++ v :: later) :
    v.before.state = stateAfter (earlier.filterMap (·.completion? e)) p.state ∧
      ∀ u ∈ earlier, ∃ d, u.completion? e = some d := by
  induction n generalizing p call earlier with
  | zero => simp [visitsFrom] at h
  | succ n ih =>
    rw [visitsFrom] at h
    cases earlier with
    | nil =>
      cases h
      exact ⟨rfl, by simp⟩
    | cons u earlier =>
      rw [List.cons_append, List.cons.injEq] at h
      obtain ⟨rfl, h⟩ := h
      split at h
      · rename_i q following hstep
        obtain ⟨d, hd⟩ := completion?_of_next hstep
        obtain ⟨hv, hu⟩ := ih h
        have hq := step_state e stamp p call
        rw [hstep, hd] at hq
        refine ⟨?_, List.forall_mem_cons.mpr ⟨⟨d, hd⟩, hu⟩⟩
        rw [hv, List.filterMap_cons, hd, stateAfter_cons]
        exact congrArg _ hq
      · simp at h

/-- What a run does to the state, command by command and as a whole. -/
structure Atomic (e : Engine) (stamp : Stamp) (s : Session) (call : Call) : Prop where
  state : (e.run stamp s call).1.state = stateAfter (completions e stamp s call) s.state
  effects : ∀ d ∈ completions e stamp s call, d.link.name = d.spec.name ∧
    changeOf d.spec d.link.args d.link.output = .ok d.change
  order : ∃ rest, (e.run stamp s call).2.chain =
    (completions e stamp s call).map (·.link.name) ++ rest ∧ rest.length ≤ 1
  before : ∀ earlier v later, visits e stamp s call = earlier ++ v :: later →
    v.before.state = stateAfter (earlier.filterMap (·.completion? e)) s.state ∧
      ∀ u ∈ earlier, ∃ d, u.completion? e = some d
  untouched : ∀ v ∈ visits e stamp s call, v.completion? e = none →
    (step e stamp v.before v.call).1.state = v.before.state
  apart : (e.run stamp s call).1.state.apartFrom (namesOf (completions e stamp s call)) =
    s.state.apartFrom (namesOf (completions e stamp s call))
  kept : ∀ key ∉ namesOf (completions e stamp s call),
    (e.run stamp s call).1.state.get? key = s.state.get? key
  exit : (e.run stamp s call).2.exit = true ↔
    ∃ d ∈ completions e stamp s call, signalsExit d.spec = true

theorem run_atomic (e : Engine) (stamp : Stamp) (s : Session) (call : Call) :
    Atomic e stamp s call := by
  have course := run_course e stamp s call
  have declared := course.declared
  have apart : (e.run stamp s call).1.state.apartFrom (namesOf (completions e stamp s call)) =
      s.state.apartFrom (namesOf (completions e stamp s call)) := by
    rw [result_state, course.state_eq]
    exact stateAfter_apartFrom (fun d hd => (declared d hd).2) (fun _ hk => hk) s.state
  refine ⟨?state, declared, ?order, ?before, ?untouched, apart, ?kept, ?exit⟩
  case state =>
    rw [result_state, course.state_eq]
    rfl
  case order =>
    obtain ⟨rest, hr, _, hs⟩ := course.chain_eq
    exact ⟨rest, (result_chain e stamp s call).trans (by simpa using hr), hs⟩
  case before =>
    intro earlier v later h
    exact visitsFrom_before h
  case untouched =>
    intro v _ partly
    rw [step_state, partly]
    rfl
  case kept =>
    intro key hk
    exact State.get?_of_apartFrom apart hk
  case exit =>
    rw [result_exit, course.exit_eq]
    simp [Progress.start]

end Chain

end CommandContract
