import CommandContract.Engine.Execute
import CommandContract.Proofs.Chain.Course
import CommandContract.Proofs.Validation.Prepared

set_option autoImplicit false

/-!
# Preparing twice

A line is prepared when it is read, and once more when its command runs. `prepare_again` says when
the second time changes nothing: every default in use is its own normal form, and no given value has
an unstable one. `parse_again` is the same for lines and for what the first handler is called with.
-/
namespace CommandContract

/-- No command declares a parameter twice. -/
def Manifest.Distinct (m : Manifest) : Prop :=
  ∀ name c, m.get? name = some c → (Members.keys c.parameters).Nodup

theorem Manifest.distinct_empty (name : String) : (Manifest.empty name).Distinct := by
  intro _ _ h
  cases h

theorem Manifest.Distinct.withCommand {m : Manifest} (h : m.Distinct) {c : CommandSpec}
    (once : (Members.keys c.parameters).Nodup) : (m.withCommand c).Distinct := by
  intro name found hf
  rw [Manifest.get?, Manifest.withCommand, Members.get?_put] at hf
  split at hf
  · cases hf
    exact once
  · exact h name found hf

namespace Validation

/-- What has to hold of arguments so that preparing them twice is preparing them once. -/
structure Settled (tree : FileTree) (state : State) (params : Parameters)
    (args : Members Value) : Prop where
  defaults : ∀ name p d, (name, p) ∈ params → source? state params args name p = none →
    p.default = some d → d ≠ .null → normalizeValue tree name p d = .ok d
  values : ∀ name p v w members, (name, p) ∈ params →
    source? state params args name p = some v → v ≠ .null →
    normalizeValue tree name p v = .ok w → ParameterType.union p.declaredType = .ok members →
    ¬ Unstable members v w

section Prepare

variable {tree : FileTree} {state : State} {params : Parameters} {args out : Members Value}

/-- Prepared arguments are looked at as they are. -/
theorem source?_prepared (h : Prepared tree state params args out) {name : String}
    {p : ParameterSpec} (hp : (name, p) ∈ params) :
    source? state params out name p = Members.get? name out := by
  have same := given?_of_names (fun key hk => h.order.subset hk) h.once name
  cases hr : p.isRequired with
  | false => rw [source?_of_optional hr, same]
  | true =>
    obtain ⟨w, hw, hn⟩ := h.required name p hp hr
    rw [source?_of_supply? (supply?_of_given? (same.trans hw) hn), hw]

/-- A second preparation looks at the values alone. -/
theorem prepare_again_iff (once : (Members.keys params).Nodup)
    (h : prepare tree state params args = .ok out) :
    prepare tree state params out = .ok out ↔
      ∀ param ∈ params, ∀ w, Members.get? param.1 out = some w → w ≠ .null →
        normalizeValue tree param.1 param.2 w = .ok w := by
  have prepared := prepared_of_ok once h
  have each := ((prepare_eq_ok_iff once).mp h).2.2.2
  have declared : ∀ a ∈ out, params.Declares a.1 := fun a ha =>
    Parameters.declares_of_mem_keys
      (prepared.order.subset (List.mem_map_of_mem (f := (·.1)) ha))
  have supplied : lacking state params out = [] := by
    rw [lacking_eq_nil_iff]
    rintro ⟨name, p⟩ hp ⟨required, null, _⟩
    obtain ⟨w, hw, hn⟩ := prepared.required name p hp required
    rw [given?_of_names (fun key hk => prepared.order.subset hk) prepared.once] at null
    exact hn (null w hw)
  rw [prepare_eq_ok_iff once, and_iff_right declared, and_iff_right supplied,
    and_iff_right prepared.order]
  refine forall₂_congr fun param hp => ?_
  rw [source?_prepared prepared hp]
  cases ho : Members.get? param.1 out with
  | none =>
    -- an absent argument was absent before, and has no default
    have he := each param hp
    rw [ho] at he
    have absent : param.2.default = none := by
      cases hs : source? state params args param.1 param.2 with
      | none =>
        rw [hs] at he
        exact Except.ok.inj he
      | some v =>
        rw [hs] at he
        by_cases hv : v = .null
        · subst hv
          cases he
        · obtain ⟨_, _, hw⟩ := argumentFrom_some hv he
          cases hw
    simp [argumentFrom, absent]
  | some w =>
    by_cases hw : w = .null
    · subst hw
      simp [argumentFrom]
    · rw [argumentFrom_of_ne_null hw, Except.map_eq_ok_iff]
      simp [hw]

theorem prepare_again (once : (Members.keys params).Nodup)
    (h : prepare tree state params args = .ok out) :
    prepare tree state params out = .ok out ↔ Settled tree state params args := by
  have each := ((prepare_eq_ok_iff once).mp h).2.2.2
  rw [prepare_again_iff once h]
  constructor
  · intro fixed
    refine ⟨?defaults, ?values⟩
    case defaults =>
      intro name p d hp hs hd hn
      have he := each _ hp
      rw [hs] at he
      exact fixed _ hp d ((Except.ok.inj he).symm.trans hd) hn
    case values =>
      intro name p v w members hp hs hv hw declared
      have he := each _ hp
      rw [hs] at he
      obtain ⟨w', hw', ho⟩ := argumentFrom_some hv he
      obtain rfl := Except.ok.inj (hw.symm.trans hw')
      exact (normalizeValue_again declared hw).mp
        (fixed _ hp w ho (normalizeValue_ne_null hw hv))
  · rintro settled ⟨name, p⟩ hp w ho hn
    have he := each _ hp
    cases hs : source? state params args name p with
    | none =>
      rw [hs] at he
      exact settled.defaults name p w hp hs ((Except.ok.inj he).trans ho) hn
    | some v =>
      rw [hs, ho] at he
      by_cases hv : v = .null
      · subst hv
        exact absurd (Option.some.inj (Except.ok.inj he)).symm hn
      · obtain ⟨w', hw, hw'⟩ := argumentFrom_some hv he
        obtain rfl := Option.some.inj hw'
        obtain ⟨members, t, takes⟩ := normalizeValue_eq_ok_iff.mp hw
        exact (normalizeValue_again takes.declared hw).mpr
          (settled.values name p v w members hp hs hv hw takes.declared)

end Prepare

end Validation

/-! ## Lines -/

theorem Call.parse_eq_ok {tree : FileTree} {m : Manifest} {state : State} {line : String}
    {call : Call} (h : Call.parse tree m state line = .ok call) :
    ∃ raw c, Call.readLine tree m line = .ok raw ∧ m.get? raw.name = some c ∧
      call.name = raw.name ∧
      Validation.prepare tree state c.parameters raw.args = .ok call.args := by
  unfold Call.parse at h
  obtain ⟨raw, read, h⟩ := Except.bind_eq_ok_iff.mp h
  split at h
  · cases h
  · rename_i c found
    split at h
    · rename_i args prepared
      obtain rfl := Except.ok.inj h
      exact ⟨raw, c, read, found, rfl, prepared⟩
    · cases h

namespace Chain

/-- A command runs with prepared arguments, or not at all. -/
theorem toOption_argumentsOf (p : Progress) (c : CommandSpec) (given : Members Value) :
    (argumentsOf p c given).toOption =
      (Validation.prepare p.tree p.state c.parameters given).toOption := by
  unfold argumentsOf
  split
  · rename_i prepared
    rw [prepared]
    rfl
  · rename_i refused
    rw [refused]
    split <;> rfl
  · rename_i refused
    rw [refused]
    rfl

/-- What the first handler of a run is called with. -/
theorem head?_invocations {e : Engine} {stamp : Stamp} {s : Session} {call : Call}
    {c : CommandSpec} {handler : Handler} (found : e.manifest.get? call.name = some c)
    (bound : e.registry.get? c.name = some handler)
    (positive : 1 ≤ e.config.engine.maxChainDepth) :
    (invocations e stamp s call).head?.map (·.args) =
      (Validation.prepare s.tree s.state c.parameters call.args).toOption := by
  have first : (argumentsOf (Progress.start s) c call.args).toOption =
      (Validation.prepare s.tree s.state c.parameters call.args).toOption :=
    toOption_argumentsOf _ _ _
  obtain ⟨n, hn⟩ := Nat.exists_eq_add_of_le' positive
  rw [invocations, visits, hn, visitsFrom, List.filterMap_cons, Visit.invocation?, Visit.prepared?,
    found, ← first]
  cases ha : argumentsOf (Progress.start s) c call.args with
  | ok args => simp [ha, bound, Except.toOption]
  | error failure =>
    have stopped : step e stamp (Progress.start s) call = (Progress.start s, .failed failure) := by
      rw [step, found]
      simp only [ha]
    simp [ha, stopped, Except.toOption]

end Chain

/-- The command of a line runs with the arguments that were read iff these are settled. -/
theorem parse_again (e : Engine) (stamp : Stamp) (s : Session) (line : String) (call : Call)
    (distinct : e.manifest.Distinct) (parsed : e.parse s line = .ok call) :
    ∃ raw c, Call.readLine s.tree e.manifest line = .ok raw ∧
      e.manifest.get? call.name = some c ∧ e.execute stamp s line = e.run stamp s call ∧
      (Validation.prepare s.tree s.state c.parameters call.args = .ok call.args ↔
        Validation.Settled s.tree s.state c.parameters raw.args) ∧
      ∀ handler, e.registry.get? c.name = some handler → 1 ≤ e.config.engine.maxChainDepth →
        ((Chain.invocations e stamp s call).head?.map (·.args) = some call.args ↔
          Validation.Settled s.tree s.state c.parameters raw.args) := by
  obtain ⟨raw, c, read, found, name, prepared⟩ := Call.parse_eq_ok parsed
  rw [← name] at found
  have again := Validation.prepare_again (distinct _ _ found) prepared
  refine ⟨raw, c, read, found, ?_, again, ?_⟩
  · rw [Engine.execute, parsed]
  · intro handler bound positive
    rw [Chain.head?_invocations found bound positive, ← again]
    cases Validation.prepare s.tree s.state c.parameters call.args <;> simp [Except.toOption]

/-- A text and an integer, one from the state and one by default. -/
def greeting : Engine :=
  let who := { ParameterSpec.ofType "string" with isRequired := true, stateFallback := some "user" }
  let times := { ParameterSpec.ofType "integer" with default := some (.int 2) }
  let greet := ((CommandSpec.ofName "greet").withParameter "who" who).withParameter "times" times
  Engine.build ((Manifest.empty "table").withCommand greet) Config.default
    [("greet", fun i => .ok (.object i.args))] true

def adaSession : Session := ⟨⟨[], []⟩, ⟨[("user", .string "Ada")]⟩⟩

def adaCall : Call := ⟨"greet", [("who", .string "Ada"), ("times", .int 2)]⟩

theorem parse_again_greeting :
    greeting.manifest.Distinct ∧ greeting.parse adaSession "greet" = .ok adaCall ∧
      ∃ c, greeting.manifest.get? "greet" = some c ∧
        Validation.prepare adaSession.tree adaSession.state c.parameters adaCall.args =
          .ok adaCall.args ∧
        ∀ handler, greeting.registry.get? c.name = some handler →
          (Chain.invocations greeting Chain.blankStamp adaSession adaCall).head?.map (·.args) =
            some adaCall.args := by
  have distinct : greeting.manifest.Distinct := (Manifest.distinct_empty _).withCommand (by decide)
  have parsed : greeting.parse adaSession "greet" = .ok adaCall := rfl
  obtain ⟨raw, c, _, found, _, again, first⟩ :=
    parse_again greeting Chain.blankStamp adaSession "greet" adaCall distinct parsed
  have same : Validation.prepare adaSession.tree adaSession.state c.parameters adaCall.args =
      .ok adaCall.args := by
    cases found
    rfl
  refine ⟨distinct, parsed, c, found, same, fun handler bound => ?_⟩
  exact (first handler bound (by decide)).mpr (again.mp same)

/-- An integer whose default is written as a text. -/
def tally : Engine :=
  let n := { ParameterSpec.ofType "integer" with default := some (.string "42") }
  let count := (CommandSpec.ofName "count").withParameter "n" n
  Engine.build ((Manifest.empty "table").withCommand count) Config.default
    [("count", fun i => .ok (.object i.args))] true

theorem tally_count_changes :
    ∃ c, tally.manifest.get? "count" = some c ∧
      tally.parse Chain.blankSession "count" = .ok ⟨"count", [("n", .string "42")]⟩ ∧
      Validation.prepare Chain.blankSession.tree Chain.blankSession.state c.parameters
        [("n", .string "42")] = .ok [("n", .int 42)] ∧
      Validation.prepare Chain.blankSession.tree Chain.blankSession.state c.parameters
        [("n", .string "42")] ≠ .ok [("n", .string "42")] ∧
      (Chain.invocations tally Chain.blankStamp Chain.blankSession
        ⟨"count", [("n", .string "42")]⟩).head?.map (·.args) = some [("n", .int 42)] := by
  have changed : Validation.prepare Chain.blankSession.tree Chain.blankSession.state
      [("n", { ParameterSpec.ofType "integer" with default := some (.string "42") })]
      [("n", .string "42")] = .ok [("n", .int 42)] := rfl
  refine ⟨_, rfl, rfl, changed, ?_, ?_⟩
  · intro same
    cases changed.symm.trans same
  · exact (Chain.head?_invocations rfl rfl (by decide)).trans (congrArg Except.toOption changed)

end CommandContract
