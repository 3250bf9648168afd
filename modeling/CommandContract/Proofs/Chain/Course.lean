import CommandContract.Engine.Execute
import CommandContract.Proofs.Except

set_option autoImplicit false

/-!
# The course of a run

The commands that a run calls, one after the other, and for each of them what its handler is called
with and what it completes. A command is complete when its side effects are done; until then it has
changed neither the state nor the wish to exit. `step_stepped` says everything that one command can
do to a chain, and `runFrom_course` puts the commands of a run together.
-/
namespace CommandContract

def ChainFailure.isDepth : ChainFailure → Bool
  | depthExceeded _ _ _ => true
  | _ => false

namespace Chain

/-! ## What is called -/

/-- One command that a run calls, and how far the chain was. -/
structure Visit where
  before : Progress
  call : Call

/-- A command whose side effects are done. -/
structure Completion where
  spec : CommandSpec
  link : ChainLink
  change : StateChange

namespace Visit

/-- A declared command and the arguments that it runs with. -/
def prepared? (e : Engine) (v : Visit) : Option (CommandSpec × Members Value) :=
  (e.manifest.get? v.call.name).bind fun c =>
    (argumentsOf v.before c v.call.args).toOption.map fun args => (c, args)

/-- What the handler of the command is called with. -/
def invocation? (e : Engine) (v : Visit) : Option Invocation :=
  (v.prepared? e).bind fun (c, args) =>
    (e.registry.get? c.name).map fun _ => ⟨c, args, e.manifest, v.before.state⟩

/-- What the command completes: its handler answered, and its output and its effects could be
evaluated. -/
def completion? (e : Engine) (v : Visit) : Option Completion :=
  (v.prepared? e).bind fun (c, args) =>
    (execute e v.before c args).2.toOption.bind fun answer =>
      (finalOutput c args answer).toOption.bind fun output =>
        (changeOf c args output).toOption.map fun change => ⟨c, ⟨c.name, args, output⟩, change⟩

end Visit

/-- The commands that are called while a number of them may still run. -/
def visitsFrom (e : Engine) (stamp : Stamp) : Nat → Progress → Call → List Visit
  | 0, _, _ => []
  | n + 1, p, call =>
    ⟨p, call⟩ ::
      match step e stamp p call with
      | (p, .next call) => visitsFrom e stamp n p call
      | _ => []

def completionsFrom (e : Engine) (stamp : Stamp) (n : Nat) (p : Progress) (call : Call) :
    List Completion :=
  (visitsFrom e stamp n p call).filterMap (·.completion? e)

/-- The commands that a run calls, in order. -/
def visits (e : Engine) (stamp : Stamp) (s : Session) (call : Call) : List Visit :=
  visitsFrom e stamp e.config.engine.maxChainDepth (Progress.start s) call

/-- The calls of handlers in a run, in order. -/
def invocations (e : Engine) (stamp : Stamp) (s : Session) (call : Call) : List Invocation :=
  (visits e stamp s call).filterMap (·.invocation? e)

/-- The commands that a run completes, in order. -/
def completions (e : Engine) (stamp : Stamp) (s : Session) (call : Call) : List Completion :=
  (visits e stamp s call).filterMap (·.completion? e)

theorem visitsFrom_length_le (e : Engine) (stamp : Stamp) (n : Nat) (p : Progress) (call : Call) :
    (visitsFrom e stamp n p call).length ≤ n := by
  induction n generalizing p call with
  | zero => exact Nat.le_refl 0
  | succ n ih =>
    rw [visitsFrom, List.length_cons]
    split
    · rename_i q next _
      have h := ih q next
      omega
    · simp

/-! ## One command -/

/-- What conditions and templates of the rules of a complete command see. -/
def Completion.context (d : Completion) (p : Progress) : Value :=
  Chain.context (p.origin.getD d.link) (p.previous.getD d.link) d.link

/-- A command that stopped before its side effects were done. -/
structure Stopped (e : Engine) (p : Progress) (call : Call) (q : Progress) : Prop where
  state : q.state = p.state
  exit : q.exit = p.exit
  chain : q.chain = p.chain ∨
    ∃ c, e.manifest.get? call.name = some c ∧ q.chain = p.chain ++ [c.name]

/-- A command that was completed. -/
structure Completed (e : Engine) (p : Progress) (call : Call) (d : Completion) (q : Progress) :
    Prop where
  found : e.manifest.get? call.name = some d.spec
  name : d.link.name = d.spec.name
  change : changeOf d.spec d.link.args d.link.output = .ok d.change
  state : q.state = d.change.apply p.state
  exit : q.exit = (p.exit || signalsExit d.spec)
  chain : q.chain = p.chain ++ [d.link.name]

/-- Everything that one command can do to a chain. -/
inductive Stepped (e : Engine) (p : Progress) (call : Call) (q : Progress) : Step → Prop where
  | stopped {failure : ChainFailure} (partly : (Visit.mk p call).completion? e = none)
      (h : Stopped e p call q) (shallow : failure.isDepth = false) :
      Stepped e p call q (.failed failure)
  | faulty {d : Completion} {fault : ConstructionFault}
      (wholly : (Visit.mk p call).completion? e = some d) (h : Completed e p call d q)
      (rule : next e.manifest d.spec (d.context p) = .error fault) :
      Stepped e p call q (.failed (.construction fault))
  | last {d : Completion} (wholly : (Visit.mk p call).completion? e = some d)
      (h : Completed e p call d q) (rule : next e.manifest d.spec (d.context p) = .ok none) :
      Stepped e p call q (.done d.link.output)
  | further {d : Completion} {following : Call}
      (wholly : (Visit.mk p call).completion? e = some d) (h : Completed e p call d q)
      (rule : next e.manifest d.spec (d.context p) = .ok (some following))
      (origin : q.origin = some (p.origin.getD d.link)) (previous : q.previous = some d.link) :
      Stepped e p call q (.next following)

section Record

variable (e : Engine) (stamp : Stamp) (p : Progress) (event : TraceEvent)

@[simp] theorem Progress.record_state : (p.record e stamp event).state = p.state := by
  unfold Progress.record
  split <;> rfl

@[simp] theorem Progress.record_chain : (p.record e stamp event).chain = p.chain := by
  unfold Progress.record
  split <;> rfl

@[simp] theorem Progress.record_exit : (p.record e stamp event).exit = p.exit := by
  unfold Progress.record
  split <;> rfl

@[simp] theorem Progress.record_origin : (p.record e stamp event).origin = p.origin := by
  unfold Progress.record
  split <;> rfl

@[simp] theorem Progress.record_previous : (p.record e stamp event).previous = p.previous := by
  unfold Progress.record
  split <;> rfl

end Record

/-- Running a handler changes files only. -/
theorem execute_progress (e : Engine) (p : Progress) (c : CommandSpec) (args : Members Value) :
    ∃ tree, (execute e p c args).1 = { p with tree } := by
  unfold execute
  split
  · exact ⟨p.tree, rfl⟩
  · exact ⟨_, rfl⟩

/-- A handler is called with the invocation of its visit; without a handler there is none. -/
theorem Visit.execute_eq {e : Engine} {v : Visit} {c : CommandSpec} {args : Members Value}
    (prepared : v.prepared? e = some (c, args)) :
    (∃ handler i, e.registry.get? c.name = some handler ∧ v.invocation? e = some i ∧
      (execute e v.before c args).1 = { v.before with tree := (handler.run v.before.tree i).1 } ∧
      (execute e v.before c args).2.toOption = (handler.run v.before.tree i).2.toOption) ∨
    (e.registry.get? c.name = none ∧ v.invocation? e = none ∧
      execute e v.before c args = (v.before, .error (.noHandler c.name))) := by
  cases bound : e.registry.get? c.name with
  | none =>
    refine .inr ⟨rfl, ?_, ?_⟩
    · simp [Visit.invocation?, prepared, bound]
    · rw [execute, bound]
  | some handler =>
    refine .inl ⟨handler, ⟨c, args, e.manifest, v.before.state⟩, rfl, ?_, ?_, ?_⟩
    · simp [Visit.invocation?, prepared, bound]
    · rw [execute, bound]
    · rw [execute, bound]
      exact Except.toOption_mapError _ _

theorem argumentsOf_shallow {p : Progress} {c : CommandSpec} {given : Members Value}
    {failure : ChainFailure} (h : argumentsOf p c given = .error failure) :
    failure.isDepth = false := by
  unfold argumentsOf at h
  split at h
  · cases h
  · split at h <;> (cases h; rfl)
  · cases h
    rfl

theorem execute_shallow {e : Engine} {p q : Progress} {c : CommandSpec} {args : Members Value}
    {failure : ChainFailure} (h : execute e p c args = (q, .error failure)) :
    failure.isDepth = false := by
  unfold execute at h
  split at h
  · cases h
    rfl
  · obtain ⟨message, _, he⟩ := Except.mapError_eq_error (congrArg Prod.snd h)
    rw [← he]
    rfl

/-- The choice of what follows. -/
theorem follow_stepped {e : Engine} {p q : Progress} {call : Call} {d : Completion}
    (wholly : (Visit.mk p call).completion? e = some d) (h : Completed e p call d q)
    (origin : q.origin = p.origin) (previous : q.previous = p.previous) :
    Stepped e p call (follow e q d.spec d.link).1 (follow e q d.spec d.link).2 := by
  have seen : Chain.context (q.origin.getD d.link) (q.previous.getD d.link) d.link =
      d.context p := by
    rw [origin, previous]
    rfl
  simp only [follow, seen]
  split
  · rename_i fault rule
    exact .faulty wholly h rule
  · rename_i rule
    exact .last wholly h rule
  · rename_i following rule
    refine .further wholly ⟨h.found, h.name, h.change, h.state, h.exit, h.chain⟩ rule ?_ rfl
    rw [origin]

/-- The end of a command whose handler answered. -/
theorem complete_stepped {e : Engine} {stamp : Stamp} {p q : Progress} {call : Call}
    {c : CommandSpec} {args : Members Value} {answer : Value}
    (found : e.manifest.get? call.name = some c) (valid : argumentsOf p c call.args = .ok args)
    (answered : execute e p c args = (q, .ok answer)) :
    Stepped e p call (complete e stamp { q with chain := q.chain ++ [c.name] } c args answer).1
      (complete e stamp { q with chain := q.chain ++ [c.name] } c args answer).2 := by
  have prepared : (Visit.mk p call).prepared? e = some (c, args) := by
    simp [Visit.prepared?, found, valid, Except.toOption]
  obtain ⟨tree, htree⟩ := execute_progress e p c args
  rw [answered] at htree
  subst htree
  unfold complete
  split
  · rename_i cause bad
    refine .stopped ?_ ⟨rfl, rfl, .inr ⟨c, found, rfl⟩⟩ rfl
    simp [Visit.completion?, prepared, answered, bad, Except.toOption]
  · rename_i output good
    split
    · rename_i cause bad
      refine .stopped ?_ ⟨rfl, rfl, .inr ⟨c, found, rfl⟩⟩ rfl
      simp [Visit.completion?, prepared, answered, good, bad, Except.toOption]
    · rename_i change done
      have wholly : (Visit.mk p call).completion? e = some ⟨c, ⟨c.name, args, output⟩, change⟩ := by
        simp [Visit.completion?, prepared, answered, good, done, Except.toOption]
      refine follow_stepped wholly ⟨found, rfl, done, ?_, ?_, ?_⟩ ?_ ?_ <;> simp

theorem step_stepped (e : Engine) (stamp : Stamp) (p : Progress) (call : Call) :
    Stepped e p call (step e stamp p call).1 (step e stamp p call).2 := by
  unfold step
  split
  · rename_i unknown
    refine .stopped ?_ ⟨rfl, rfl, .inl rfl⟩ rfl
    simp [Visit.completion?, Visit.prepared?, unknown]
  · rename_i c found
    split
    · rename_i failure invalid
      refine .stopped ?_ ⟨rfl, rfl, .inl rfl⟩ (argumentsOf_shallow invalid)
      simp [Visit.completion?, Visit.prepared?, found, invalid, Except.toOption]
    · rename_i args valid
      split
      · rename_i q failure failed
        obtain ⟨tree, htree⟩ := execute_progress e p c args
        rw [failed] at htree
        subst htree
        refine .stopped ?_ ⟨by simp, by simp, .inl (by simp)⟩ (execute_shallow failed)
        simp [Visit.completion?, Visit.prepared?, found, valid, failed, Except.toOption]
      · rename_i q answer answered
        exact complete_stepped found valid answered

/-! ## A whole run -/

/-- A run from a command on, with all that it completes. -/
inductive Course (e : Engine) :
    Nat → Progress → Call → List Completion → Progress → Except ChainFailure Value → Prop where
  | tooDeep (p : Progress) (call : Call) :
      Course e 0 p call [] p
        (.error (.depthExceeded call.name (p.chain.length + 1) e.config.engine.maxChainDepth))
  | stopped {n : Nat} {p q : Progress} {call : Call} {failure : ChainFailure}
      (h : Stopped e p call q) (shallow : failure.isDepth = false) :
      Course e (n + 1) p call [] q (.error failure)
  | faulty {n : Nat} {p q : Progress} {call : Call} {d : Completion} {fault : ConstructionFault}
      (h : Completed e p call d q) (rule : next e.manifest d.spec (d.context p) = .error fault) :
      Course e (n + 1) p call [d] q (.error (.construction fault))
  | last {n : Nat} {p q : Progress} {call : Call} {d : Completion}
      (h : Completed e p call d q) (rule : next e.manifest d.spec (d.context p) = .ok none) :
      Course e (n + 1) p call [d] q (.ok d.link.output)
  | further {n : Nat} {p q r : Progress} {call following : Call} {d : Completion}
      {ds : List Completion} {result : Except ChainFailure Value}
      (h : Completed e p call d q)
      (rule : next e.manifest d.spec (d.context p) = .ok (some following))
      (origin : q.origin = some (p.origin.getD d.link)) (previous : q.previous = some d.link)
      (tail : Course e n q following ds r result) : Course e (n + 1) p call (d :: ds) r result

theorem runFrom_course (e : Engine) (stamp : Stamp) (n : Nat) (p : Progress) (call : Call) :
    Course e n p call (completionsFrom e stamp n p call) (runFrom e stamp n p call).1
      (runFrom e stamp n p call).2 := by
  induction n generalizing p call with
  | zero => exact .tooDeep p call
  | succ n ih =>
    have h := step_stepped e stamp p call
    unfold completionsFrom visitsFrom runFrom
    generalize step e stamp p call = taken at h
    obtain ⟨q, s⟩ := taken
    rw [List.filterMap_cons]
    cases h with
    | stopped partly h shallow =>
      rw [partly]
      exact .stopped h shallow
    | faulty wholly h rule =>
      rw [wholly]
      exact .faulty h rule
    | last wholly h rule =>
      rw [wholly]
      exact .last h rule
    | further wholly h rule origin previous =>
      rw [wholly]
      exact .further h rule origin previous (ih q _)

/-- The names of a run: those of the completed commands, and perhaps of one that was answered but
not completed. -/
theorem Course.chain_eq {e : Engine} {n : Nat} {p r : Progress} {call : Call}
    {ds : List Completion} {result : Except ChainFailure Value}
    (h : Course e n p call ds r result) :
    ∃ rest, r.chain = p.chain ++ ds.map (·.link.name) ++ rest ∧ ds.length + rest.length ≤ n ∧
      rest.length ≤ 1 := by
  induction h with
  | tooDeep p call => exact ⟨[], by simp, by simp, by simp⟩
  | stopped h _ =>
    rcases h.chain with hc | ⟨c, _, hc⟩
    · exact ⟨[], by simp [hc], by simp, by simp⟩
    · exact ⟨[c.name], by simp [hc], by simp, by simp⟩
  | faulty h _ => exact ⟨[], by simp [h.chain], by simp, by simp⟩
  | last h _ => exact ⟨[], by simp [h.chain], by simp, by simp⟩
  | further h _ _ _ _ ih =>
    obtain ⟨rest, hr, hl, hs⟩ := ih
    refine ⟨rest, by simp [hr, h.chain], ?_, hs⟩
    simp only [List.length_cons]
    omega

@[simp] theorem Progress.start_chain (s : Session) : (Progress.start s).chain = [] := rfl

/-- The whole course of a run. -/
theorem run_course (e : Engine) (stamp : Stamp) (s : Session) (call : Call) :
    Course e e.config.engine.maxChainDepth (Progress.start s) call (completions e stamp s call)
      (run e stamp s call).1 (run e stamp s call).2 :=
  runFrom_course e stamp _ _ call

/-! ## Results -/

section Result

variable (e : Engine) (stamp : Stamp) (s : Session) (call : Call)

theorem result_state : (e.run stamp s call).1.state = (run e stamp s call).1.state := rfl

theorem result_chain : (e.run stamp s call).2.chain = (run e stamp s call).1.chain := by
  unfold Engine.run
  generalize run e stamp s call = ended
  obtain ⟨p, result⟩ := ended
  cases result <;> rfl

theorem result_exit : (e.run stamp s call).2.exit = (run e stamp s call).1.exit := by
  unfold Engine.run
  generalize run e stamp s call = ended
  obtain ⟨p, result⟩ := ended
  cases result <;> rfl

theorem result_of_ok {output : Value} (ok : (run e stamp s call).2 = .ok output) :
    (e.run stamp s call).2.error = none ∧ (e.run stamp s call).2.output = output := by
  simp [Engine.run, ok, CommandResult.ofChain]

theorem result_of_error {failure : ChainFailure}
    (failed : (run e stamp s call).2 = .error failure) :
    (e.run stamp s call).2.error = some failure.message ∧
      (e.run stamp s call).2.output = .null := by
  simp [Engine.run, failed, CommandResult.ofChain]

/-- A result is without an error iff its chain ended well. -/
theorem result_error_eq_none_iff :
    (e.run stamp s call).2.error = none ↔ ∃ output, (run e stamp s call).2 = .ok output := by
  cases h : (run e stamp s call).2 with
  | ok output => simp [result_of_ok e stamp s call h]
  | error failure => simp [result_of_error e stamp s call h]

end Result

/-- A session without files and values. -/
def blankSession : Session := ⟨⟨[], []⟩, ⟨[]⟩⟩

def blankStamp : Stamp := ⟨"", fun _ => ""⟩

end Chain

end CommandContract
