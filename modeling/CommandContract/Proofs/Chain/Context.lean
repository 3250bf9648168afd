import CommandContract.Proofs.Chain.Atomic
import CommandContract.Proofs.Chain.Path

set_option autoImplicit false

/-!
# What the rules of a link see

The first link of a chain and the last one are carried along as the chain grows. So the rules of
every link see its own arguments and output, the first link, and the link right before it, however
long the chain is: `run_informed`. A handler that fails is reported together with the command that
started the chain, unless that is its own.
-/
namespace CommandContract.Chain

/-- What conditions and templates of rules find. -/
structure Sees (seen : Value) (first before own : ChainLink) : Prop where
  names : seen.object?.map Members.keys =
    some ["input", "output", "original", "previous", "originalCommand", "previousCommand"]
  input : seen.lookup? "input" = some (.object own.args)
  output : seen.lookup? "output" = some own.output
  original : seen.lookup? "original" = some (.object
    [("name", .string first.name), ("args", .object first.args), ("output", first.output)])
  previous : seen.lookup? "previous" = some (.object
    [("name", .string before.name), ("args", .object before.args), ("output", before.output)])
  originalCommand : seen.lookup? "originalCommand" = some (.string first.name)
  previousCommand : seen.lookup? "previousCommand" = some (.string before.name)

theorem context_sees (first before own : ChainLink) :
    Sees (context first before own) first before own :=
  ⟨rfl, rfl, rfl, rfl, rfl, rfl, rfl⟩

/-- What follows a link, after what its rules chose. -/
def Step.ofChoice (own : ChainLink) : Except ConstructionFault (Option Call) → Step
  | .error fault => .failed (.construction fault)
  | .ok none => .done own.output
  | .ok (some call) => .next call

/-- The link that a command completes: prepared arguments, and what its handler answered in its
final form. -/
structure Completes (e : Engine) (v : Visit) (d : Completion) : Prop where
  found : e.manifest.get? v.call.name = some d.spec
  name : d.link.name = d.spec.name
  args : Validation.prepare v.before.tree v.before.state d.spec.parameters v.call.args =
    .ok d.link.args
  output : ∃ handler answer, e.registry.get? d.spec.name = some handler ∧
    (handler.run v.before.tree ⟨d.spec, d.link.args, e.manifest, v.before.state⟩).2 = .ok answer ∧
    finalOutput d.spec d.link.args answer = .ok d.link.output

section Step

variable {e : Engine} {stamp : Stamp} {v : Visit} {d : Completion}

theorem prepare_of_argumentsOf {p : Progress} {c : CommandSpec} {given args : Members Value}
    (h : argumentsOf p c given = .ok args) :
    Validation.prepare p.tree p.state c.parameters given = .ok args := by
  unfold argumentsOf at h
  split at h
  · rename_i prepared
    rw [prepared, Except.ok.inj h]
  · split at h <;> cases h
  · cases h

theorem prepared?_eq_some {c : CommandSpec} {args : Members Value}
    (h : v.prepared? e = some (c, args)) :
    e.manifest.get? v.call.name = some c ∧ argumentsOf v.before c v.call.args = .ok args := by
  simp only [Visit.prepared?, Option.bind_eq_some_iff, Option.map_eq_some_iff] at h
  obtain ⟨c', found, args', valid, same⟩ := h
  obtain ⟨rfl, rfl⟩ := Prod.mk.inj same
  exact ⟨found, Except.toOption_eq_some valid⟩

theorem prepared?_of_completion? (h : v.completion? e = some d) :
    v.prepared? e = some (d.spec, d.link.args) := by
  simp only [Visit.completion?, Option.bind_eq_some_iff, Option.map_eq_some_iff] at h
  obtain ⟨⟨c, args⟩, prepared, _, _, _, _, _, _, rfl⟩ := h
  exact prepared

theorem completes_of_completion? (h : v.completion? e = some d) : Completes e v d := by
  simp only [Visit.completion?, Option.bind_eq_some_iff, Option.map_eq_some_iff] at h
  obtain ⟨⟨c, args⟩, prepared, answer, answered, output, final, change, _, rfl⟩ := h
  obtain ⟨found, valid⟩ := prepared?_eq_some prepared
  refine ⟨found, rfl, prepare_of_argumentsOf valid, ?_⟩
  rcases Visit.execute_eq prepared with ⟨handler, i, bound, called, _, same⟩ | ⟨_, _, none⟩
  · have invoked : i = ⟨c, args, e.manifest, v.before.state⟩ := by
      simp only [Visit.invocation?, prepared, bound, Option.bind_some, Option.map_some] at called
      exact (Option.some.inj called).symm
    rw [same, invoked] at answered
    exact ⟨handler, answer, bound, Except.toOption_eq_some answered, Except.toOption_eq_some final⟩
  · rw [none] at answered
    cases answered

theorem step_of_completion? (h : v.completion? e = some d) :
    (step e stamp v.before v.call).2 =
      Step.ofChoice d.link (next e.manifest d.spec (d.context v.before)) := by
  have taken := step_stepped e stamp v.before v.call
  generalize step e stamp v.before v.call = after at taken
  obtain ⟨q, s⟩ := after
  cases taken with
  | stopped partly => cases partly.symm.trans h
  | faulty wholly _ rule =>
    cases wholly.symm.trans h
    rw [rule]
    rfl
  | last wholly _ rule =>
    cases wholly.symm.trans h
    rw [rule]
    rfl
  | further wholly _ rule =>
    cases wholly.symm.trans h
    rw [rule]
    rfl

/-- A handler that fails ends the run, and its own command is not what started it. -/
theorem step_of_failure (stamp : Stamp) {c : CommandSpec} {args : Members Value} {handler : Handler}
    {message : String} (prepared : v.prepared? e = some (c, args))
    (bound : e.registry.get? c.name = some handler)
    (fails : (handler.run v.before.tree ⟨c, args, e.manifest, v.before.state⟩).2 =
      .error message) :
    ∃ q, step e stamp v.before v.call =
        (q, .failed (.handler c.name message (v.before.origin.map (·.name)))) ∧
      q.chain = v.before.chain := by
  obtain ⟨found, valid⟩ := prepared?_eq_some prepared
  obtain ⟨tree, answered⟩ : ∃ tree, execute e v.before c args = ({ v.before with tree },
      .error (.handler c.name message (v.before.origin.map (·.name)))) := by
    rw [execute, bound]
    refine ⟨(handler.run v.before.tree ⟨c, args, e.manifest, v.before.state⟩).1, ?_⟩
    simp only [fails, Except.mapError]
  refine ⟨(step e stamp v.before v.call).1, Prod.ext rfl ?_, ?_⟩
  · rw [step, found]
    simp only [valid, answered]
  · rw [step, found]
    simp only [valid, answered, Progress.record_chain]

end Step

section Run

variable {e : Engine} {stamp : Stamp} {n : Nat} {p : Progress} {call : Call}
  {earlier later : List Visit} {v : Visit}

theorem visitsFrom_standing {prior : List Completion} (standing : Standing p prior)
    (h : visitsFrom e stamp n p call = earlier ++ v :: later) :
    ∃ ds, earlier.map (·.completion? e) = ds.map some ∧ Standing v.before (prior ++ ds) := by
  induction n generalizing p call earlier prior with
  | zero => simp [visitsFrom] at h
  | succ n ih =>
    rw [visitsFrom] at h
    cases earlier with
    | nil =>
      cases h
      exact ⟨[], rfl, by simpa using standing⟩
    | cons u earlier =>
      rw [List.cons_append, List.cons.injEq] at h
      obtain ⟨rfl, h⟩ := h
      have taken := step_stepped e stamp p call
      split at h
      · rename_i q following hstep
        rw [hstep] at taken
        cases taken with
        | @further d _ wholly completed rule origin previous =>
          obtain ⟨ds, hds, there⟩ := ih (standing.extend completed origin previous) h
          exact ⟨d :: ds, by simp [wholly, hds], by simpa using there⟩
      · simp at h

theorem runFrom_of_failed {q : Progress} {failure : ChainFailure}
    (h : visitsFrom e stamp n p call = earlier ++ v :: later)
    (failed : step e stamp v.before v.call = (q, .failed failure)) :
    runFrom e stamp n p call = (q, .error failure) := by
  induction n generalizing p call earlier with
  | zero => simp [visitsFrom] at h
  | succ n ih =>
    rw [visitsFrom] at h
    rw [runFrom]
    cases earlier with
    | nil =>
      cases h
      rw [failed]
    | cons u earlier =>
      rw [List.cons_append, List.cons.injEq] at h
      obtain ⟨rfl, h⟩ := h
      split at h
      · rename_i q following hstep
        rw [hstep]
        exact ih h
      · simp at h

theorem exists_split {α : Type} {xs : List α} {k : Nat} {x : α} (h : xs[k]? = some x) :
    ∃ before after, xs = before ++ x :: after ∧ before.length = k := by
  obtain ⟨hk, rfl⟩ := List.getElem?_eq_some_iff.mp h
  refine ⟨xs.take k, xs.drop (k + 1), ?_, ?_⟩
  · rw [← List.drop_eq_getElem_cons hk, List.take_append_drop]
  · exact List.length_take_of_le (Nat.le_of_lt hk)

/-- Before the visit of that number all are complete, and the chain stands behind them. -/
theorem visit_standing {s : Session} {k : Nat} (hv : (visits e stamp s call)[k]? = some v) :
    ∃ earlier later ds, visits e stamp s call = earlier ++ v :: later ∧
      earlier.filterMap (·.completion? e) = ds ∧ ds.length = k ∧ Standing v.before ds := by
  obtain ⟨earlier, later, split, hk⟩ := exists_split hv
  obtain ⟨ds, hds, standing⟩ := visitsFrom_standing (Standing.start s) split
  refine ⟨earlier, later, ds, split, ?_, ?_, by simpa using standing⟩
  · have h := congrArg (List.filterMap id) hds
    simpa [List.filterMap_map, Function.comp_def] using h
  · rw [← hk, ← List.length_map fun u : Visit => u.completion? e, hds, List.length_map]

theorem completion_standing {s : Session} {k : Nat} {d : Completion}
    (hv : (visits e stamp s call)[k]? = some v) (done : v.completion? e = some d) :
    ∃ ds rest, completions e stamp s call = ds ++ d :: rest ∧ ds.length = k ∧
      Standing v.before ds := by
  obtain ⟨earlier, later, ds, split, hds, hk, standing⟩ := visit_standing hv
  refine ⟨ds, later.filterMap (·.completion? e), ?_, hk, standing⟩
  rw [completions, split, List.filterMap_append, hds, List.filterMap_cons, done]

end Run

/-- What the links of a run are told. They are counted from zero, and the first one is its own
predecessor. -/
structure Informed (e : Engine) (stamp : Stamp) (s : Session) (call : Call) : Prop where
  completes : ∀ (k : Nat) (v : Visit) (d : Completion),
    (visits e stamp s call)[k]? = some v → v.completion? e = some d →
      (completions e stamp s call)[k]? = some d ∧ Completes e v d
  sees : ∀ (k : Nat) (v : Visit) (d : Completion),
    (visits e stamp s call)[k]? = some v → v.completion? e = some d →
      ∃ first before seen, (completions e stamp s call)[0]? = some first ∧
        (completions e stamp s call)[k - 1]? = some before ∧
        Sees seen first.link before.link d.link ∧
        (step e stamp v.before v.call).2 = Step.ofChoice d.link (next e.manifest d.spec seen)
  /-- A handler that fails ends the run with an error that names the first link, if that is another
  one. -/
  failure : ∀ (k : Nat) (v : Visit) c args handler message,
    (visits e stamp s call)[k]? = some v → v.prepared? e = some (c, args) →
    e.registry.get? c.name = some handler →
    (handler.run v.before.tree ⟨c, args, e.manifest, v.before.state⟩).2 = .error message →
      (k = 0 → (e.run stamp s call).2.error =
        some ("Command '" ++ c.name ++ "' failed: " ++ message)) ∧
      (0 < k → ∃ first, (e.run stamp s call).2.chain[0]? = some first ∧
        (e.run stamp s call).2.error = some ("Command '" ++ c.name ++ "' failed: " ++ message ++
          " (chain started by '" ++ first ++ "')"))

theorem run_informed (e : Engine) (stamp : Stamp) (s : Session) (call : Call) :
    Informed e stamp s call := by
  refine ⟨?completes, ?sees, ?failure⟩
  case completes =>
    intro k v d hv done
    obtain ⟨ds, rest, all, rfl, _⟩ := completion_standing hv done
    refine ⟨?_, completes_of_completion? done⟩
    rw [all, List.getElem?_append_right (Nat.le_refl _)]
    simp
  case sees =>
    intro k v d hv done
    obtain ⟨ds, rest, all, rfl, standing⟩ := completion_standing hv done
    have seen := standing.seenAt? d rest
    rw [← all] at seen
    simp only [seenAt?, Option.bind_eq_some_iff, Option.map_eq_some_iff] at seen
    obtain ⟨first, hf, before, hb, own, ho, same⟩ := seen
    obtain rfl : d = own := by
      rw [all, List.getElem?_append_right (Nat.le_refl _)] at ho
      simpa using ho
    refine ⟨first, before, _, hf, hb, context_sees _ _ _, ?_⟩
    rw [same]
    exact step_of_completion? done
  case failure =>
    intro k v c args handler message hv prepared bound fails
    obtain ⟨earlier, later, ds, split, _, rfl, standing⟩ := visit_standing hv
    obtain ⟨q, failed, chain⟩ := step_of_failure stamp prepared bound fails
    have ended : run e stamp s call = _ := runFrom_of_failed split failed
    have error := (result_of_error e stamp s call (congrArg Prod.snd ended)).1
    have names : (e.run stamp s call).2.chain = ds.map (·.link.name) := by
      rw [result_chain, ended, chain, standing.chain]
    rw [error, standing.origin, names]
    cases ds with
    | nil => exact ⟨fun _ => rfl, fun h => absurd h (Nat.lt_irrefl 0)⟩
    | cons first others => exact ⟨fun h => absurd h (Nat.succ_ne_zero _), fun _ => ⟨_, rfl, rfl⟩⟩

/-- A chain of four commands, the last of which has to know the third and the first. -/
def relay : Engine :=
  let link (target : String) (condition : Option String) (name : String) : CommandSpec :=
    { CommandSpec.ofName name with next := some [(target, ⟨condition, []⟩)] }
  let known := "previousCommand == 'review' && originalCommand == 'draft' && original.output == 1"
  let manifest := (((Manifest.empty "office").withCommand (link "review" none "draft")).withCommand
    (link "sign" none "review")).withCommand (link "post" (some known) "sign")
  Engine.build (manifest.withCommand (CommandSpec.ofName "post")) Config.default
    [("draft", fun _ => .ok (.int 1)), ("review", fun _ => .ok (.int 2)),
      ("sign", fun _ => .ok (.int 3)), ("post", fun _ => .error "no stamps")] true

example : (relay.run blankStamp blankSession ⟨"draft", []⟩).2.chain = ["draft", "review", "sign"] ∧
    (relay.run blankStamp blankSession ⟨"draft", []⟩).2.error =
      some "Command 'post' failed: no stamps (chain started by 'draft')" := by
  decide +kernel

end CommandContract.Chain
