import CommandContract.Proofs.Chain.Atomic
import CommandContract.Proofs.Chain.Path

set_option autoImplicit false

/-!
# The trace of a chain

A recorded run leaves one event for every command that it completes, and one more if a command has
no handler or its handler fails. A command whose handler answered stands in the chain from then on,
but its event is written only when its output and its effects have been evaluated. So chain and
trace agree unless one of these evaluations fails: `run_traced`.
-/
namespace CommandContract.Chain

/-! ## What a command leaves in chain and trace -/

namespace Visit

/-- There is no handler for the command, or its handler fails. -/
def HandlerFails (e : Engine) (v : Visit) : Prop :=
  ∃ c args, v.prepared? e = some (c, args) ∧
    ∀ handler, e.registry.get? c.name = some handler →
      ∃ message,
        (handler.run v.before.tree ⟨c, args, e.manifest, v.before.state⟩).2 = .error message

/-- The handler answered, but output or effects could not be evaluated. -/
def Unfinished (e : Engine) (v : Visit) : Prop :=
  v.completion? e = none ∧
    ∃ c args answer, v.prepared? e = some (c, args) ∧ (execute e v.before c args).2 = .ok answer

/-- The name that goes into the chain: that of a command whose handler answered. -/
def answered? (e : Engine) (v : Visit) : Option String :=
  (v.prepared? e).bind fun (c, args) =>
    (execute e v.before c args).2.toOption.map fun _ => c.name

/-- The name of an unfinished command. -/
def unfinished? (e : Engine) (v : Visit) : Option String :=
  if (v.completion? e).isSome then none else v.answered? e

/-- The event of a command without a handler, or whose handler fails. -/
def failure? (e : Engine) (v : Visit) : Option TraceEvent :=
  (v.prepared? e).bind fun (c, args) =>
    match (execute e v.before c args).2 with
    | .ok _ => none
    | .error failure =>
      some (v.before.event c (v.before.chain.length + 1) args .null (some failure.message))

/-- The event of a completed command. -/
def success? (e : Engine) (v : Visit) : Option TraceEvent :=
  (v.completion? e).map fun d =>
    v.before.event d.spec (v.before.chain.length + 1) d.link.args d.link.output none

def event? (e : Engine) (v : Visit) : Option TraceEvent := (v.success? e).or (v.failure? e)

/-- The files as the handler of the command leaves them. -/
def left (e : Engine) (v : Visit) : FileTree :=
  ((v.prepared? e).map fun (c, args) => (execute e v.before c args).1.tree).getD v.before.tree

/-- The files with the line of an event at the end of the trace. -/
def written (e : Engine) (stamp : Stamp) (v : Visit) : FileTree :=
  match v.event? e with
  | some event =>
    Trace.append (v.left e) (e.config.tracePath e.manifest.root)
      (event.line (stamp.eventId v.before.events.length) stamp.time)
  | none => v.left e

section Kinds

variable {e : Engine} {v : Visit} {c : CommandSpec} {args : Members Value}

theorem execute_error_iff :
    (∃ failure, (execute e v.before c args).2 = .error failure) ↔
      ∀ handler, e.registry.get? c.name = some handler →
        ∃ message,
          (handler.run v.before.tree ⟨c, args, e.manifest, v.before.state⟩).2 = .error message := by
  unfold execute
  cases bound : e.registry.get? c.name with
  | none => simp
  | some handler =>
    cases answer : (handler.run v.before.tree ⟨c, args, e.manifest, v.before.state⟩).2 <;>
      simp [answer, Except.mapError]

theorem isSome_failure?_iff : (v.failure? e).isSome = true ↔ v.HandlerFails e := by
  unfold failure? HandlerFails
  cases hp : v.prepared? e with
  | none => simp
  | some prepared =>
    obtain ⟨c, args⟩ := prepared
    simp only [Option.bind_some, Option.some.injEq, Prod.mk.injEq]
    constructor
    · intro h
      refine ⟨c, args, ⟨rfl, rfl⟩, execute_error_iff.mp ?_⟩
      cases answer : (execute e v.before c args).2 with
      | ok => simp [answer] at h
      | error failure => exact ⟨failure, rfl⟩
    · rintro ⟨_, _, ⟨rfl, rfl⟩, h⟩
      obtain ⟨failure, answer⟩ := execute_error_iff.mpr h
      simp [answer]

theorem isSome_unfinished?_iff : (v.unfinished? e).isSome = true ↔ v.Unfinished e := by
  unfold unfinished? Unfinished answered?
  cases v.completion? e with
  | some d => simp
  | none =>
    cases hp : v.prepared? e with
    | none => simp
    | some prepared =>
      obtain ⟨c, args⟩ := prepared
      cases answer : (execute e v.before c args).2 with
      | ok output =>
        simp only [Option.isSome_none, Bool.false_eq_true, if_false, Option.bind_some, answer,
          Except.toOption, Option.map_some, Option.isSome_some, true_and, true_iff]
        exact ⟨c, args, output, rfl, answer⟩
      | error failure =>
        simp only [Option.isSome_none, Bool.false_eq_true, if_false, Option.bind_some, answer,
          Except.toOption, Option.map_none, true_and, Option.some.injEq, Prod.mk.injEq, false_iff]
        rintro ⟨_, _, _, ⟨rfl, rfl⟩, h⟩
        rw [answer] at h
        cases h

/-- What is completed has been answered. -/
theorem answered_of_completion? {d : Completion} (h : v.completion? e = some d) :
    v.failure? e = none ∧ v.unfinished? e = none ∧ v.answered? e = some d.spec.name := by
  have done := h
  simp only [completion?, Option.bind_eq_some_iff, Option.map_eq_some_iff] at h
  obtain ⟨⟨c, args⟩, prepared, answer, answered, output, _, change, _, rfl⟩ := h
  have ok : (execute e v.before c args).2 = .ok answer := by
    cases hx : (execute e v.before c args).2 with
    | ok a =>
      rw [hx] at answered
      exact congrArg _ (Option.some.inj answered)
    | error _ =>
      rw [hx] at answered
      cases answered
  refine ⟨?_, ?_, ?_⟩
  · simp [failure?, prepared, ok]
  · simp [unfinished?, done]
  · simp [answered?, prepared, answered]

theorem failure?_of_unfinished? {name : String} (h : v.unfinished? e = some name) :
    v.failure? e = none := by
  obtain ⟨_, c, args, answer, prepared, answered⟩ :=
    isSome_unfinished?_iff.mp (Option.isSome_of_eq_some h)
  simp [failure?, prepared, answered]

end Kinds

end Visit

section Record

variable {e : Engine} (enabled : e.config.trace.enabled = true) (stamp : Stamp) (p : Progress)
  (event : TraceEvent)

include enabled

theorem Progress.record_events : (p.record e stamp event).events = p.events ++ [event] := by
  rw [record, if_pos enabled]

theorem Progress.record_tree :
    (p.record e stamp event).tree = Trace.append p.tree (e.config.tracePath e.manifest.root)
      (event.line (stamp.eventId p.events.length) stamp.time) := by
  rw [record, if_pos enabled]

end Record

/-- The choice of the next command writes nothing. -/
theorem follow_keeps (e : Engine) (p : Progress) (c : CommandSpec) (link : ChainLink) :
    (follow e p c link).1.events = p.events ∧ (follow e p c link).1.tree = p.tree ∧
      (follow e p c link).1.chain = p.chain := by
  unfold follow
  dsimp only
  split <;> exact ⟨rfl, rfl, rfl⟩

/-- What one command adds to chain and trace. -/
structure Adds (e : Engine) (stamp : Stamp) (v : Visit) (q : Progress) : Prop where
  events : q.events = v.before.events ++ (v.event? e).toList
  chain : q.chain = v.before.chain ++ (v.answered? e).toList
  tree : q.tree = v.written e stamp

theorem complete_adds {e : Engine} (enabled : e.config.trace.enabled = true) {stamp : Stamp}
    {v : Visit} {q : Progress} {c : CommandSpec} {args : Members Value} {answer : Value}
    (prepared : v.prepared? e = some (c, args))
    (answered : execute e v.before c args = (q, .ok answer)) :
    Adds e stamp v (complete e stamp { q with chain := q.chain ++ [c.name] } c args answer).1 := by
  obtain ⟨tree, htree⟩ := execute_progress e v.before c args
  rw [answered] at htree
  subst htree
  have silent : v.failure? e = none := by simp [Visit.failure?, prepared, answered]
  have named : v.answered? e = some c.name := by
    simp [Visit.answered?, prepared, answered, Except.toOption]
  have left : v.left e = tree := by simp [Visit.left, prepared, answered]
  -- without a completion nothing is recorded
  have nothing : v.completion? e = none →
      Adds e stamp v { v.before with tree, chain := v.before.chain ++ [c.name] } := by
    intro partly
    have event : v.event? e = none := by simp [Visit.event?, Visit.success?, partly, silent]
    exact ⟨by simp [event], by simp [named], by simp [Visit.written, event, left]⟩
  unfold complete
  split
  · rename_i cause bad
    exact nothing (by simp [Visit.completion?, prepared, answered, bad, Except.toOption])
  · rename_i output good
    split
    · rename_i cause bad
      exact nothing (by simp [Visit.completion?, prepared, answered, good, bad, Except.toOption])
    · rename_i change done
      have event : v.event? e =
          some (v.before.event c (v.before.chain.length + 1) args output none) := by
        simp [Visit.event?, Visit.success?, Visit.completion?, prepared, answered, good, done,
          Except.toOption]
      obtain ⟨events, tree, chain⟩ := follow_keeps e _ c ⟨c.name, args, output⟩
      refine ⟨events.trans ?_, chain.trans ?_, tree.trans ?_⟩
      · rw [Progress.record_events enabled, event]
        simp [Progress.event]
      · rw [Progress.record_chain, named]
        rfl
      · rw [Progress.record_tree enabled, Visit.written, event, left]
        simp [Progress.event]

theorem step_adds {e : Engine} (enabled : e.config.trace.enabled = true) (stamp : Stamp)
    (p : Progress) (call : Call) : Adds e stamp ⟨p, call⟩ (step e stamp p call).1 := by
  have unprepared : (Visit.mk p call).prepared? e = none → Adds e stamp ⟨p, call⟩ p := by
    intro h
    have event : (Visit.mk p call).event? e = none := by
      simp [Visit.event?, Visit.success?, Visit.failure?, Visit.completion?, h]
    exact ⟨by simp [event], by simp [Visit.answered?, h],
      by simp [Visit.written, event, Visit.left, h]⟩
  unfold step
  split
  · rename_i unknown
    exact unprepared (by simp [Visit.prepared?, unknown])
  · rename_i c found
    split
    · rename_i failure invalid
      exact unprepared (by simp [Visit.prepared?, found, invalid, Except.toOption])
    · rename_i args valid
      have prepared : (Visit.mk p call).prepared? e = some (c, args) := by
        simp [Visit.prepared?, found, valid, Except.toOption]
      split
      · rename_i q failure failed
        obtain ⟨tree, htree⟩ := execute_progress e p c args
        rw [failed] at htree
        subst htree
        have event : (Visit.mk p call).event? e =
            some (p.event c (p.chain.length + 1) args .null (some failure.message)) := by
          simp [Visit.event?, Visit.success?, Visit.failure?, Visit.completion?, prepared, failed,
            Except.toOption]
        have left : (Visit.mk p call).left e = tree := by simp [Visit.left, prepared, failed]
        refine ⟨?_, ?_, ?_⟩
        · rw [Progress.record_events enabled, event]
          simp [Progress.event]
        · rw [Progress.record_chain]
          simp [Visit.answered?, prepared, failed, Except.toOption]
        · rw [Progress.record_tree enabled, Visit.written, event, left]
          simp [Progress.event]
      · rename_i q answer answered
        exact complete_adds enabled prepared answered

/-! ## Whole runs -/

/-- The event of a completed command at its place in the chain. -/
def Completion.event (d : Completion) (origin : String) (depth : Nat) : TraceEvent :=
  ⟨d.spec.name, origin, depth, d.link.args, d.link.output, none⟩

/-- The events of completed commands: each has the first of them as its origin. -/
def eventsOf (ds : List Completion) : List TraceEvent :=
  ds.mapIdx fun i d => d.event (ds.head?.getD d).link.name (i + 1)

theorem eventsOf_concat (ds : List Completion) (d : Completion) :
    eventsOf (ds ++ [d]) =
      eventsOf ds ++ [d.event (ds.head?.getD d).link.name (ds.length + 1)] := by
  unfold eventsOf
  rw [List.mapIdx_append]
  cases ds with
  | nil => rfl
  | cons first ds => simp

/-- What one command leaves behind the completed ones, if it is not complete itself. -/
def failureOf (e : Engine) (vs : List Visit) : Option TraceEvent :=
  vs.getLast?.bind (·.failure? e)

def unfinishedOf (e : Engine) (vs : List Visit) : Option String :=
  vs.getLast?.bind (·.unfinished? e)

/-- A command that leaves nothing may stand in front. -/
theorem getLast?_cons_bind {α : Type} {v : Visit} {left : Visit → Option α} (none : left v = none)
    (vs : List Visit) : (v :: vs).getLast?.bind left = vs.getLast?.bind left := by
  rw [List.getLast?_cons]
  cases vs.getLast? <;> simp [none]

section Run

variable {e : Engine} {stamp : Stamp} {n : Nat} {p q : Progress} {call : Call}
  {prior : List Completion}

theorem Standing.success? {d : Completion} (standing : Standing p prior)
    (wholly : (Visit.mk p call).completion? e = some d) (name : d.link.name = d.spec.name) :
    (Visit.mk p call).success? e =
      some (d.event (prior.head?.getD d).link.name (prior.length + 1)) := by
  rw [Visit.success?, wholly, Option.map_some, standing.length, Completion.event, Progress.event,
    standing.origin]
  cases prior with
  | nil => simp [name]
  | cons first rest => rfl

/-- A completed command goes into chain and trace alike. -/
theorem Standing.recorded {d : Completion} (standing : Standing p prior)
    (recorded : p.events = eventsOf prior) (adds : Adds e stamp ⟨p, call⟩ q)
    (wholly : (Visit.mk p call).completion? e = some d) (name : d.link.name = d.spec.name) :
    q.events = eventsOf (prior ++ [d]) ∧ q.chain = (prior ++ [d]).map (·.link.name) := by
  obtain ⟨silent, _, answered⟩ := Visit.answered_of_completion? wholly
  constructor
  · rw [adds.events, recorded, eventsOf_concat, Visit.event?, standing.success? wholly name]
    rfl
  · rw [adds.chain, answered, standing.chain, List.map_append, ← name]
    rfl

/-- A completed command that ends the run leaves nothing behind the completed ones. -/
theorem Standing.ended {d : Completion} (standing : Standing p prior)
    (recorded : p.events = eventsOf prior) (adds : Adds e stamp ⟨p, call⟩ q)
    (wholly : (Visit.mk p call).completion? e = some d) (name : d.link.name = d.spec.name) :
    q.events = eventsOf (prior ++ [d]) ++ (failureOf e [⟨p, call⟩]).toList ∧
      q.chain = (prior ++ [d]).map (·.link.name) ++ (unfinishedOf e [⟨p, call⟩]).toList := by
  obtain ⟨silent, finished, _⟩ := Visit.answered_of_completion? wholly
  obtain ⟨events, chain⟩ := standing.recorded recorded adds wholly name
  exact ⟨by simpa [failureOf, silent] using events, by simpa [unfinishedOf, finished] using chain⟩

theorem runFrom_traced (enabled : e.config.trace.enabled = true) (standing : Standing p prior)
    (recorded : p.events = eventsOf prior) :
    (runFrom e stamp n p call).1.events = eventsOf (prior ++ completionsFrom e stamp n p call) ++
        (failureOf e (visitsFrom e stamp n p call)).toList ∧
      (runFrom e stamp n p call).1.chain =
        (prior ++ completionsFrom e stamp n p call).map (·.link.name) ++
          (unfinishedOf e (visitsFrom e stamp n p call)).toList := by
  induction n generalizing p call prior with
  | zero => simp [runFrom, completionsFrom, visitsFrom, failureOf, unfinishedOf, recorded,
      standing.chain]
  | succ n ih =>
    have adds := step_adds enabled stamp p call
    have h := step_stepped e stamp p call
    unfold completionsFrom visitsFrom runFrom
    generalize step e stamp p call = taken at adds h
    obtain ⟨q, s⟩ := taken
    rw [List.filterMap_cons]
    cases h with
    | stopped partly h shallow =>
      rw [partly]
      refine ⟨adds.events.trans ?_, adds.chain.trans ?_⟩
      · simp [recorded, failureOf, Visit.event?, Visit.success?, partly]
      · simp [standing.chain, unfinishedOf, Visit.unfinished?, partly]
    | faulty wholly h rule =>
      rw [wholly]
      exact standing.ended recorded adds wholly h.name
    | last wholly h rule =>
      rw [wholly]
      exact standing.ended recorded adds wholly h.name
    | @further d following wholly h rule origin previous =>
      rw [wholly]
      -- what is left behind is left by the last command, which is a later one
      obtain ⟨silent, finished, _⟩ := Visit.answered_of_completion? wholly
      obtain ⟨events, chain⟩ := ih (standing.extend h origin previous)
        (standing.recorded recorded adds wholly h.name).1
      simp only [failureOf, unfinishedOf, getLast?_cons_bind silent, getLast?_cons_bind finished]
      simpa [failureOf, unfinishedOf, completionsFrom] using And.intro events chain

end Run

/-! ## Agreement of chain and trace -/

/-- One event without an error for every name, with its depth and the first name as its origin. -/
def Mirrors (chain : List String) (events : List TraceEvent) : Prop :=
  events.map (fun t => (t.command, t.depth, t.origin, t.error)) =
    chain.mapIdx fun i name => (name, i + 1, chain.head?.getD name, none)

/-- The events of all names, and behind them one with an error exactly if a handler failed. -/
def Faithful (chain : List String) (events : List TraceEvent) (failed : Prop) : Prop :=
  ∃ own : List TraceEvent, ∃ failure : Option TraceEvent, events = own ++ failure.toList ∧
    Mirrors chain own ∧ (∀ t ∈ failure, t.error ≠ none) ∧ (failure.isSome = true ↔ failed)

/-- What a recorded run leaves in its chain and its trace. -/
structure Traced (e : Engine) (stamp : Stamp) (s : Session) (call : Call) : Prop where
  events : (run e stamp s call).1.events = eventsOf (completions e stamp s call) ++
    (failureOf e (visits e stamp s call)).toList
  chain : (e.run stamp s call).2.chain = (completions e stamp s call).map (·.link.name) ++
    (unfinishedOf e (visits e stamp s call)).toList
  lines : ∀ v ∈ visits e stamp s call, (step e stamp v.before v.call).1.tree = v.written e stamp
  faithful : Faithful (e.run stamp s call).2.chain (run e stamp s call).1.events
      (∃ v ∈ visits e stamp s call, v.HandlerFails e) ↔
    ∀ v ∈ visits e stamp s call, ¬ v.Unfinished e

theorem mirrors_eventsOf {ds : List Completion} (named : ∀ d ∈ ds, d.link.name = d.spec.name) :
    Mirrors (ds.map (·.link.name)) (eventsOf ds) := by
  refine List.ext_getElem (by simp [eventsOf]) ?_
  intro i h₁ h₂
  have hi : i < ds.length := by simpa [eventsOf] using h₁
  have hn := named ds[i] (List.getElem_mem hi)
  have origin : (ds.head?.getD ds[i]).link.name =
      (ds.map (·.link.name)).head?.getD ds[i].link.name := by
    cases ds with
    | nil => exact absurd hi (Nat.not_lt_zero i)
    | cons first rest => rfl
  simp only [eventsOf, List.getElem_mapIdx, List.getElem_map, Completion.event, hn, origin]

theorem Mirrors.length_eq {chain : List String} {events : List TraceEvent}
    (h : Mirrors chain events) : events.length = chain.length := by
  simpa using congrArg List.length h

section Visits

variable {e : Engine} {stamp : Stamp} {s : Session} {call : Call}

/-- Only the last command of a run can be incomplete. -/
theorem exists_visit_iff {α : Type} {f : Visit → Option α}
    (complete : ∀ {v d}, v.completion? e = some d → f v = none) :
    (∃ v ∈ visits e stamp s call, (f v).isSome = true) ↔
      ((visits e stamp s call).getLast?.bind f).isSome = true := by
  cases hl : (visits e stamp s call).getLast? with
  | none =>
    rw [List.getLast?_eq_none_iff.mp hl]
    simp
  | some last =>
    obtain ⟨earlier, split⟩ := List.getLast?_eq_some_iff.mp hl
    obtain ⟨_, earlierDone⟩ := visitsFrom_before split
    rw [Option.bind_some, split]
    constructor
    · rintro ⟨v, hv, h⟩
      rcases List.mem_append.mp hv with hv | hv
      · obtain ⟨d, hd⟩ := earlierDone v hv
        rw [complete hd] at h
        cases h
      · rwa [List.mem_singleton.mp hv] at h
    · intro h
      exact ⟨last, by simp, h⟩

theorem isSome_failureOf_iff :
    (failureOf e (visits e stamp s call)).isSome = true ↔
      ∃ v ∈ visits e stamp s call, v.HandlerFails e := by
  rw [failureOf, ← exists_visit_iff fun h => (Visit.answered_of_completion? h).1]
  simp only [Visit.isSome_failure?_iff]

theorem isSome_unfinishedOf_iff :
    (unfinishedOf e (visits e stamp s call)).isSome = true ↔
      ∃ v ∈ visits e stamp s call, v.Unfinished e := by
  rw [unfinishedOf, ← exists_visit_iff fun h => (Visit.answered_of_completion? h).2.1]
  simp only [Visit.isSome_unfinished?_iff]

theorem error_of_failure? {v : Visit} {t : TraceEvent} (h : v.failure? e = some t) :
    t.error ≠ none := by
  simp only [Visit.failure?, Option.bind_eq_some_iff] at h
  obtain ⟨⟨c, args⟩, _, h⟩ := h
  dsimp only at h
  split at h
  · cases h
  · cases h
    exact Option.some_ne_none _

theorem error_of_failureOf {vs : List Visit} {t : TraceEvent} (h : failureOf e vs = some t) :
    t.error ≠ none := by
  obtain ⟨v, _, hv⟩ := Option.bind_eq_some_iff.mp h
  exact error_of_failure? hv

/-- A run does not end with a failed handler and with an unfinished command. -/
theorem failureOf_of_unfinishedOf {vs : List Visit} {name : String}
    (h : unfinishedOf e vs = some name) : failureOf e vs = none := by
  obtain ⟨v, hv, hn⟩ := Option.bind_eq_some_iff.mp h
  rw [failureOf, hv, Option.bind_some]
  exact Visit.failure?_of_unfinished? hn

end Visits

/-- A recorded run leaves the events of its completed commands and of a handler that failed. Chain
and trace agree unless a command was answered and could not be completed. -/
theorem run_traced (e : Engine) (stamp : Stamp) (s : Session) (call : Call)
    (enabled : e.config.trace.enabled = true) : Traced e stamp s call := by
  have whole := @runFrom_traced e stamp e.config.engine.maxChainDepth _ call _ enabled
    (Standing.start s) rfl
  rw [List.nil_append] at whole
  have events : (run e stamp s call).1.events = eventsOf (completions e stamp s call) ++
      (failureOf e (visits e stamp s call)).toList := whole.1
  have chain : (e.run stamp s call).2.chain = (completions e stamp s call).map (·.link.name) ++
      (unfinishedOf e (visits e stamp s call)).toList :=
    (result_chain e stamp s call).trans whole.2
  have mirrored := mirrors_eventsOf fun d (hd : d ∈ completions e stamp s call) =>
    ((run_course e stamp s call).declared d hd).1
  refine ⟨events, chain, fun v _ => (step_adds enabled stamp v.before v.call).tree, ?_⟩
  constructor
  · rintro ⟨own, failure, split, mirrors, _, _⟩ v hv unfinished
    obtain ⟨name, hu⟩ :=
      Option.isSome_iff_exists.mp (isSome_unfinishedOf_iff.mpr ⟨v, hv, unfinished⟩)
    -- then the chain has a name more than there are events
    have few : (eventsOf (completions e stamp s call)).length =
        own.length + failure.toList.length := by
      have h := congrArg List.length (events.symm.trans split)
      rwa [failureOf_of_unfinishedOf hu, Option.toList_none, List.append_nil,
        List.length_append] at h
    have many := mirrors.length_eq
    rw [chain, hu, Option.toList_some, List.length_append, List.length_singleton,
      ← mirrored.length_eq] at many
    omega
  · intro finished
    have none : unfinishedOf e (visits e stamp s call) = none := by
      rw [← Option.not_isSome_iff_eq_none, isSome_unfinishedOf_iff]
      rintro ⟨v, hv, unfinished⟩
      exact finished v hv unfinished
    refine ⟨eventsOf (completions e stamp s call), failureOf e (visits e stamp s call), events, ?_,
      fun t ht => error_of_failureOf ht, isSome_failureOf_iff⟩
    rw [chain, none, Option.toList_none, List.append_nil]
    exact mirrored

/-- The configuration `config` with its runs recorded. -/
def recording (config : Config) : Config :=
  { config with trace := { config.trace with enabled := true } }

theorem run_traced_pingPong :
    (recording pingPong.config).trace.enabled = true ∧
      Traced { pingPong with config := recording pingPong.config } blankStamp blankSession
        ⟨"ping", []⟩ ∧
      (run { pingPong with config := recording pingPong.config } blankStamp blankSession
        ⟨"ping", []⟩).1.events.map (·.command) = ["ping", "pong", "ping"] :=
  ⟨rfl, run_traced _ blankStamp blankSession ⟨"ping", []⟩ rfl, by decide +kernel⟩

/-- A command whose declared output cannot be rendered. -/
def mute : Engine :=
  let greeting := "\x7b\x7b name | shout \x7d\x7d"
  let greet := { CommandSpec.ofName "greet" with successOutput := some greeting }
  Engine.build ((Manifest.empty "table").withCommand greet) (recording Config.default)
    [("greet", fun _ => .ok .null)] true

/-- The command is in the chain, and no event of it is in the trace. -/
theorem mute_not_faithful :
    ¬ ∀ (e : Engine) (stamp : Stamp) (s : Session) (call : Call),
      e.config.trace.enabled = true →
        Faithful (e.run stamp s call).2.chain (run e stamp s call).1.events
          (∃ v ∈ visits e stamp s call, v.HandlerFails e) := by
  intro h
  obtain ⟨own, failure, split, mirrors, -⟩ := h mute blankStamp blankSession ⟨"greet", []⟩ rfl
  have chain : (mute.run blankStamp blankSession ⟨"greet", []⟩).2.chain = ["greet"] := by
    decide +kernel
  have silent : (run mute blankStamp blankSession ⟨"greet", []⟩).1.events.length = 0 := by
    decide +kernel
  have many := mirrors.length_eq
  rw [chain, List.length_singleton] at many
  rw [split, List.length_append, many] at silent
  omega

end CommandContract.Chain
