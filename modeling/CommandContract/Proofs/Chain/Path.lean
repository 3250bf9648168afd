import CommandContract.Proofs.Chain.Course
import CommandContract.Proofs.Members

set_option autoImplicit false

/-!
# The path of a chain

Every command of a chain but the first is the one that the first rule that holds of the command
before it leads to. `run_walk` says so for whole runs, together with how a run may end: with the
output of a command none of whose rules holds, with a command too many, or with another failure.
-/
namespace CommandContract

/-- Every command stands under its own name. -/
def Manifest.Keyed (m : Manifest) : Prop := ∀ name c, m.get? name = some c → c.name = name

theorem Manifest.keyed_empty (name : String) : (Manifest.empty name).Keyed := by
  intro _ _ h
  cases h

theorem Manifest.Keyed.withCommand {m : Manifest} (h : m.Keyed) (c : CommandSpec) :
    (m.withCommand c).Keyed := by
  intro name found hf
  rw [Manifest.get?, Manifest.withCommand, Members.get?_put] at hf
  split at hf
  · rename_i hn
    cases hf
    exact hn.symm
  · exact h name found hf

namespace Chain

/-! ## Rules -/

/-- The condition of a rule is absent or true. -/
def RuleHolds (seen : Value) (r : NextRule) : Prop :=
  ∀ condition, r.condition = some condition → Condition.check condition seen = .ok true

/-- The condition of a rule is false, which is no fault. -/
def RuleFails (seen : Value) (r : NextRule) : Prop :=
  ∃ condition, r.condition = some condition ∧ Condition.check condition seen = .ok false

/-- The first rule that holds, after rules that fail, names a command. -/
def LeadsTo (m : Manifest) (c : CommandSpec) (seen : Value) (name : String) : Prop :=
  ∃ before target r after, c.next.getD [] = before ++ (target, r) :: after ∧
    (∀ rule ∈ before, RuleFails seen rule.2) ∧ RuleHolds seen r ∧
    resolveName? m c target = some name

/-- No rule holds, or there is none. -/
def EndsWith (c : CommandSpec) (seen : Value) : Prop :=
  ∀ rule ∈ c.next.getD [], RuleFails seen rule.2

theorem applies_eq_true_iff {seen : Value} {r : NextRule} :
    applies seen r = .ok true ↔ RuleHolds seen r := by
  unfold applies RuleHolds
  cases r.condition <;> simp

theorem applies_eq_false_iff {seen : Value} {r : NextRule} :
    applies seen r = .ok false ↔ RuleFails seen r := by
  unfold applies RuleFails
  cases r.condition <;> simp

theorem callOf_name {m : Manifest} {c : CommandSpec} {seen : Value} {target : String}
    {r : NextRule} {call : Call} (h : callOf m c seen target r = .ok call) :
    resolveName? m c target = some call.name := by
  unfold callOf at h
  split at h
  · cases h
  · rename_i name resolved
    split at h
    · cases h
      exact resolved
    · cases h

theorem firstRule_some {m : Manifest} {c : CommandSpec} {seen : Value} {call : Call}
    {rules : List (String × NextRule)} (h : firstRule m c seen rules = .ok (some call)) :
    ∃ before target r after, rules = before ++ (target, r) :: after ∧
      (∀ rule ∈ before, RuleFails seen rule.2) ∧ RuleHolds seen r ∧
      resolveName? m c target = some call.name := by
  induction rules with
  | nil => cases h
  | cons rule rules ih =>
    obtain ⟨target, r⟩ := rule
    rw [firstRule] at h
    split at h
    · cases h
    · rename_i fails
      obtain ⟨before, target', r', after, rfl, hb, hr, hn⟩ := ih h
      refine ⟨(target, r) :: before, target', r', after, rfl, ?_, hr, hn⟩
      intro rule hrule
      rcases List.mem_cons.mp hrule with rfl | hrule
      · exact applies_eq_false_iff.mp fails
      · exact hb rule hrule
    · rename_i holds
      obtain ⟨found, hfound, he⟩ := Except.map_eq_ok_iff.mp h
      cases he
      exact ⟨[], target, r, rules, rfl, by simp, applies_eq_true_iff.mp holds, callOf_name hfound⟩

theorem firstRule_none_iff {m : Manifest} {c : CommandSpec} {seen : Value}
    {rules : List (String × NextRule)} :
    firstRule m c seen rules = .ok none ↔ ∀ rule ∈ rules, RuleFails seen rule.2 := by
  induction rules with
  | nil => simp [firstRule]
  | cons rule rules ih =>
    obtain ⟨target, r⟩ := rule
    rw [firstRule, List.forall_mem_cons, ← applies_eq_false_iff, ← ih]
    split
    · rename_i fault
      simp [fault]
    · rename_i fails
      simp [fails]
    · rename_i holds
      cases callOf m c seen target r <;> simp [holds, Except.map]

theorem leadsTo_of_next {m : Manifest} {c : CommandSpec} {seen : Value} {call : Call}
    (h : next m c seen = .ok (some call)) : LeadsTo m c seen call.name :=
  firstRule_some h

theorem next_eq_none_iff {m : Manifest} {c : CommandSpec} {seen : Value} :
    next m c seen = .ok none ↔ EndsWith c seen :=
  firstRule_none_iff

/-! ## Places in a chain -/

/-- What the rules of the link at a place see: the first link, the one before (for the first link
that is itself) and the link. -/
def seenAt? (ds : List Completion) (i : Nat) : Option Value :=
  ds[0]?.bind fun first => ds[i - 1]?.bind fun before =>
    ds[i]?.map fun d => context first.link before.link d.link

/-- What the rules of the last link choose. -/
def choice? (m : Manifest) (ds : List Completion) :
    Option (Except ConstructionFault (Option Call)) :=
  ds.getLast?.bind fun d => (seenAt? ds (ds.length - 1)).map fun seen => next m d.spec seen

/-- A chain stands where the commands that it completed have brought it. -/
structure Standing (p : Progress) (prior : List Completion) : Prop where
  chain : p.chain = prior.map (·.link.name)
  origin : p.origin = prior.head?.map (·.link)
  previous : p.previous = prior.getLast?.map (·.link)

theorem Standing.start (s : Session) : Standing (Progress.start s) [] := ⟨rfl, rfl, rfl⟩

theorem Standing.length {p : Progress} {prior : List Completion} (h : Standing p prior) :
    p.chain.length = prior.length := by
  rw [h.chain, List.length_map]

theorem Standing.extend {e : Engine} {p q : Progress} {call : Call} {d : Completion}
    {prior : List Completion} (h : Standing p prior) (completed : Completed e p call d q)
    (origin : q.origin = some (p.origin.getD d.link)) (previous : q.previous = some d.link) :
    Standing q (prior ++ [d]) := by
  refine ⟨?_, ?_, ?_⟩
  · rw [completed.chain, h.chain, List.map_append]
    rfl
  · rw [origin, h.origin]
    cases prior <;> rfl
  · rw [previous, List.getLast?_concat]
    rfl

/-- The last command of a chain sees what its place in the chain says. -/
theorem Standing.seenAt? {p : Progress} {prior : List Completion} (h : Standing p prior)
    (d : Completion) (ds : List Completion) :
    Chain.seenAt? (prior ++ d :: ds) prior.length = some (d.context p) := by
  unfold Chain.seenAt? Completion.context
  rw [h.origin, h.previous]
  cases prior with
  | nil => rfl
  | cons first rest =>
    have hl : ((first :: rest) ++ d :: ds)[(first :: rest).length - 1]? =
        (first :: rest).getLast? := by
      rw [List.getElem?_append_left (by simp), List.getLast?_eq_getElem?]
    rw [hl, List.getElem?_append_right (Nat.le_refl _)]
    simp [List.getLast?_cons]

theorem Standing.choice? {p : Progress} {prior : List Completion} (h : Standing p prior)
    (m : Manifest) (d : Completion) :
    Chain.choice? m (prior ++ [d]) = some (next m d.spec (d.context p)) := by
  have hl : (prior ++ [d]).length - 1 = prior.length := by simp
  rw [Chain.choice?, List.getLast?_concat, hl, h.seenAt? d []]
  rfl

/-! ## Runs -/

section Run

variable {e : Engine} {n : Nat} {p r : Progress} {call : Call} {ds prior : List Completion}
  {result : Except ChainFailure Value}

theorem Course.completed_prefix (h : Course e n p call ds r result) :
    p.chain ++ ds.map (·.link.name) <+: r.chain := by
  obtain ⟨rest, hr, _, _⟩ := h.chain_eq
  exact ⟨rest, hr.symm⟩

theorem Course.chain_length_le (h : Course e n p call ds r result) :
    r.chain.length ≤ p.chain.length + n := by
  obtain ⟨rest, hr, hl, _⟩ := h.chain_eq
  rw [hr]
  simp only [List.length_append, List.length_map]
  omega

/-- The first name that a run adds is that of its call. -/
theorem Course.first_name (keyed : e.manifest.Keyed) (h : Course e n p call ds r result)
    {name : String} (hn : r.chain[p.chain.length]? = some name) : name = call.name := by
  have added : ∀ {q : Progress} {c : CommandSpec}, e.manifest.get? call.name = some c →
      q.chain = p.chain ++ [c.name] → q.chain[p.chain.length]? = some call.name := by
    intro q c found hq
    rw [hq, keyed _ _ found]
    simp
  cases h with
  | tooDeep => simp at hn
  | stopped h _ =>
    rcases h.chain with hc | ⟨c, found, hc⟩
    · simp [hc] at hn
    · exact Option.some.inj (hn.symm.trans (added found hc))
  | faulty h _ => exact Option.some.inj (hn.symm.trans (added h.found (h.name ▸ h.chain)))
  | last h _ => exact Option.some.inj (hn.symm.trans (added h.found (h.name ▸ h.chain)))
  | further h _ _ _ tail =>
    have hq := added h.found (h.name ▸ h.chain)
    obtain ⟨rest, hr⟩ := tail.completed_prefix
    have hlt : p.chain.length < _ := (List.getElem?_eq_some_iff.mp hq).choose
    rw [← hr, List.append_assoc, List.getElem?_append_left hlt, hq] at hn
    exact (Option.some.inj hn).symm

/-- The link at a place led to the name at the next one. -/
def LinkLeads (m : Manifest) (ds : List Completion) (chain : List String) (i : Nat)
    (name : String) : Prop :=
  ∃ d seen, ds[i]? = some d ∧ chain[i]? = some d.link.name ∧
    m.get? d.link.name = some d.spec ∧ seenAt? ds i = some seen ∧ LeadsTo m d.spec seen name

theorem Course.leads (keyed : e.manifest.Keyed) (h : Course e n p call ds r result)
    (standing : Standing p prior) {i : Nat} {name : String} (hi : prior.length ≤ i)
    (hn : r.chain[i + 1]? = some name) : LinkLeads e.manifest (prior ++ ds) r.chain i name := by
  -- a run that ends with its first command adds one name at most
  have short : ∀ {q : Progress} {c : String}, q.chain = p.chain ∨ q.chain = p.chain ++ [c] →
      q.chain[i + 1]? = none := by
    intro q c hq
    have hl := standing.length
    rw [List.getElem?_eq_none_iff]
    rcases hq with hq | hq
    · rw [hq]
      omega
    · rw [hq, List.length_append, List.length_singleton]
      omega
  induction h generalizing prior with
  | tooDeep p call => simp [short (q := p) (c := "") (.inl rfl)] at hn
  | stopped h _ =>
    rcases h.chain with hc | ⟨c, _, hc⟩
    · simp [short (c := "") (.inl hc)] at hn
    · simp [short (.inr hc)] at hn
  | faulty h _ => simp [short (.inr h.chain)] at hn
  | last h _ => simp [short (.inr h.chain)] at hn
  | @further n p q r call following d ds result h rule origin previous tail ih =>
    have extended := standing.extend h origin previous
    have hl := extended.length
    rw [List.length_append, List.length_singleton] at hl
    rcases Nat.eq_or_lt_of_le hi with rfl | hi
    · rw [← hl] at hn
      have hname := tail.first_name keyed hn
      refine ⟨d, d.context p, by simp, ?_, ?_, standing.seenAt? d ds, ?_⟩
      · obtain ⟨rest, hr⟩ := tail.completed_prefix
        rw [← hr, h.chain, ← standing.length]
        simp
      · rw [h.name, keyed _ _ h.found]
        exact h.found
      · rw [hname]
        exact leadsTo_of_next rule
    · have hs : prior ++ d :: ds = (prior ++ [d]) ++ ds := by simp
      rw [hs]
      refine ih extended (by simp; omega) hn ?_
      intro q' c hq
      rw [List.getElem?_eq_none_iff]
      rcases hq with hq | hq <;> simp [hq, hl] <;> omega

/-! ### Ends -/

/-- A run ends well only behind a completed command that chose nothing. -/
theorem Course.success (h : Course e n p call ds r result) (standing : Standing p prior)
    {output : Value} (ok : result = .ok output) :
    choice? e.manifest (prior ++ ds) = some (.ok none) ∧
      r.chain = p.chain ++ ds.map (·.link.name) ∧
      ∃ d, ds.getLast? = some d ∧ output = d.link.output := by
  induction h generalizing prior with
  | tooDeep => cases ok
  | stopped => cases ok
  | faulty => cases ok
  | @last n p q call d h rule =>
    cases ok
    exact ⟨by rw [standing.choice?, rule], by simp [h.chain], d, rfl, rfl⟩
  | @further n p q r call following d ds result h rule origin previous tail ih =>
    obtain ⟨hc, hr, l, hl, ho⟩ := ih (standing.extend h origin previous) ok
    refine ⟨by simpa using hc, by simp [hr, h.chain], l, ?_, ho⟩
    rw [List.getLast?_cons, hl]
    rfl

/-- What the completed commands chose is the call that a run goes on with. -/
def Awaits (m : Manifest) (prior : List Completion) (call : Call) : Prop :=
  prior = [] ∨ choice? m prior = some (.ok (some call))

theorem Awaits.choice_ne_none {m : Manifest} (h : Awaits m prior call) :
    choice? m prior ≠ some (.ok none) := by
  rcases h with rfl | h
  · simp [choice?]
  · simp [h]

theorem Course.success_of_choice (h : Course e n p call ds r result)
    (standing : Standing p prior) (awaits : Awaits e.manifest prior call)
    (chosen : choice? e.manifest (prior ++ ds) = some (.ok none)) :
    ∃ output, result = .ok output := by
  induction h generalizing prior with
  | tooDeep => exact absurd (List.append_nil prior ▸ chosen) awaits.choice_ne_none
  | stopped => exact absurd (List.append_nil prior ▸ chosen) awaits.choice_ne_none
  | faulty h rule =>
    rw [standing.choice?, rule] at chosen
    cases chosen
  | last h rule => exact ⟨_, rfl⟩
  | @further n p q r call following d ds result h rule origin previous tail ih =>
    refine ih (standing.extend h origin previous) (.inr ?_) (by simpa using chosen)
    rw [standing.choice?, rule]

/-- A run that completed as many commands as it may, and has another one to run, is too deep. -/
theorem Course.tooDeep_of_choice (h : Course e n p call ds r result)
    (standing : Standing p prior) (awaits : Awaits e.manifest prior call) (full : ds.length = n)
    {following : Call} (chosen : choice? e.manifest (prior ++ ds) = some (.ok (some following))) :
    result = .error
      (.depthExceeded following.name (p.chain.length + n + 1) e.config.engine.maxChainDepth) := by
  induction h generalizing prior with
  | tooDeep p call =>
    rw [List.append_nil] at chosen
    rcases awaits with rfl | awaits
    · simp [choice?] at chosen
    · rw [awaits] at chosen
      cases chosen
      rfl
  | stopped => cases full
  | faulty h rule =>
    rw [standing.choice?, rule] at chosen
    cases chosen
  | last h rule =>
    rw [standing.choice?, rule] at chosen
    cases chosen
  | @further n p q r call next d ds result h rule origin previous tail ih =>
    have hq := ih (standing.extend h origin previous) (.inr (by rw [standing.choice?, rule]))
      (Nat.succ.inj full) (by simpa using chosen)
    rw [hq, h.chain, List.length_append, List.length_singleton]
    congr 2
    omega

theorem Course.choice_of_tooDeep (h : Course e n p call ds r result) (standing : Standing p prior)
    {failure : ChainFailure} (failed : result = .error failure) (deep : failure.isDepth = true) :
    ds.length = n ∧
      (ds = [] ∨ ∃ following, choice? e.manifest (prior ++ ds) = some (.ok (some following))) := by
  induction h generalizing prior with
  | tooDeep => exact ⟨rfl, .inl rfl⟩
  | stopped _ shallow =>
    cases failed
    simp [shallow] at deep
  | faulty =>
    cases failed
    cases deep
  | last => cases failed
  | @further n p q r call following d ds result h rule origin previous tail ih =>
    obtain ⟨hl, hc⟩ := ih (standing.extend h origin previous) failed
    refine ⟨by simp [hl], .inr ?_⟩
    rcases hc with rfl | hc
    · exact ⟨following, by rw [standing.choice?, rule]⟩
    · simpa using hc

end Run

theorem choice?_eq_some_iff {m : Manifest} {ds : List Completion}
    {chosen : Except ConstructionFault (Option Call)} :
    choice? m ds = some chosen ↔ ∃ d seen, ds.getLast? = some d ∧
      seenAt? ds (ds.length - 1) = some seen ∧ next m d.spec seen = chosen := by
  simp only [choice?, Option.bind_eq_some_iff, Option.map_eq_some_iff]
  constructor
  · rintro ⟨d, hd, seen, hs, hc⟩
    exact ⟨d, seen, hd, hs, hc⟩
  · rintro ⟨d, seen, hd, hs, hc⟩
    exact ⟨d, hd, seen, hs, hc⟩

/-- A run walks along the rules of its commands, and its ends are those of the path. -/
structure Walk (e : Engine) (stamp : Stamp) (s : Session) (call : Call) : Prop where
  handlers : (invocations e stamp s call).length ≤ e.config.engine.maxChainDepth
  length : (e.run stamp s call).2.chain.length ≤ e.config.engine.maxChainDepth
  first : ∀ name, (e.run stamp s call).2.chain[0]? = some name → name = call.name
  leads : ∀ i name, (e.run stamp s call).2.chain[i + 1]? = some name →
    LinkLeads e.manifest (completions e stamp s call) (e.run stamp s call).2.chain i name
  success : (e.run stamp s call).2.error = none ↔
    ∃ d seen, (completions e stamp s call).getLast? = some d ∧
      seenAt? (completions e stamp s call) ((completions e stamp s call).length - 1) = some seen ∧
      EndsWith d.spec seen
  output : (e.run stamp s call).2.error = none →
    (e.run stamp s call).2.chain = (completions e stamp s call).map (·.link.name) ∧
      ∃ d, (completions e stamp s call).getLast? = some d ∧
        (e.run stamp s call).2.output = d.link.output
  failure : (e.run stamp s call).2.error ≠ none → (e.run stamp s call).2.output = .null
  depth : ∀ name depth max,
    (run e stamp s call).2 = .error (.depthExceeded name depth max) ↔
      (completions e stamp s call).length = e.config.engine.maxChainDepth ∧
      depth = e.config.engine.maxChainDepth + 1 ∧ max = e.config.engine.maxChainDepth ∧
      ∃ d seen following, (completions e stamp s call).getLast? = some d ∧
        seenAt? (completions e stamp s call) ((completions e stamp s call).length - 1) = some seen ∧
        next e.manifest d.spec seen = .ok (some following) ∧ following.name = name

/-- The rules of the last command choose another one after as many commands as may run iff the run
is too deep. -/
theorem run_depthExceeded_iff (e : Engine) (stamp : Stamp) (s : Session) (call : Call)
    (positive : 1 ≤ e.config.engine.maxChainDepth) (name : String) (depth max : Nat) :
    (run e stamp s call).2 = .error (.depthExceeded name depth max) ↔
      (completions e stamp s call).length = e.config.engine.maxChainDepth ∧
      depth = e.config.engine.maxChainDepth + 1 ∧ max = e.config.engine.maxChainDepth ∧
      ∃ following, choice? e.manifest (completions e stamp s call) = some (.ok (some following)) ∧
        following.name = name := by
  have course := run_course e stamp s call
  have standing := Standing.start s
  have reached : ∀ following, choice? e.manifest (completions e stamp s call) =
      some (.ok (some following)) →
      (completions e stamp s call).length = e.config.engine.maxChainDepth →
      (run e stamp s call).2 = .error (.depthExceeded following.name
        (e.config.engine.maxChainDepth + 1) e.config.engine.maxChainDepth) := by
    intro following chosen full
    simpa using course.tooDeep_of_choice standing (.inl rfl) full chosen
  constructor
  · intro deep
    obtain ⟨full, hc⟩ := course.choice_of_tooDeep standing deep rfl
    have hne : completions e stamp s call ≠ [] := by
      intro hnil
      rw [hnil, List.length_nil] at full
      omega
    obtain ⟨following, chosen⟩ := hc.resolve_left hne
    have he := (reached following chosen full).symm.trans deep
    simp only [Except.error.injEq, ChainFailure.depthExceeded.injEq] at he
    exact ⟨full, he.2.1.symm, he.2.2.symm, following, chosen, he.1⟩
  · rintro ⟨full, rfl, rfl, following, chosen, rfl⟩
    exact reached following chosen full

/-- Every run of an engine whose commands stand under their own names walks along their rules. -/
theorem run_walk (e : Engine) (stamp : Stamp) (s : Session) (call : Call)
    (keyed : e.manifest.Keyed) (positive : 1 ≤ e.config.engine.maxChainDepth) :
    Walk e stamp s call := by
  have course := run_course e stamp s call
  have standing := Standing.start s
  have hchain := result_chain e stamp s call
  have hnone := result_error_eq_none_iff e stamp s call
  refine ⟨?handlers, ?length, ?first, ?leads, ?success, ?output, ?failure, ?depth⟩
  case handlers =>
    exact Nat.le_trans (List.length_filterMap_le _ _) (visitsFrom_length_le e stamp _ _ _)
  case length =>
    rw [hchain]
    simpa using course.chain_length_le
  case first =>
    intro name hn
    rw [hchain] at hn
    exact course.first_name keyed hn
  case leads =>
    intro i name hn
    rw [hchain] at hn ⊢
    exact course.leads keyed standing (Nat.zero_le i) hn
  case success =>
    have chosen : choice? e.manifest (completions e stamp s call) = some (.ok none) ↔
        ∃ output, (run e stamp s call).2 = .ok output :=
      ⟨course.success_of_choice standing (.inl rfl), fun ⟨_, ok⟩ => (course.success standing ok).1⟩
    rw [hnone, ← chosen, choice?_eq_some_iff]
    simp only [next_eq_none_iff]
  case output =>
    intro ok
    obtain ⟨output, ok⟩ := hnone.mp ok
    obtain ⟨_, hr, d, hd, ho⟩ := course.success standing ok
    exact ⟨hchain.trans (by simpa using hr), d, hd, ho ▸ (result_of_ok e stamp s call ok).2⟩
  case failure =>
    intro failed
    cases hr : (run e stamp s call).2 with
    | ok output => exact absurd (hnone.mpr ⟨output, hr⟩) failed
    | error failure => exact (result_of_error e stamp s call hr).2
  case depth =>
    intro name depth max
    rw [run_depthExceeded_iff e stamp s call positive]
    refine and_congr Iff.rfl (and_congr Iff.rfl (and_congr Iff.rfl ?_))
    simp only [choice?_eq_some_iff]
    constructor
    · rintro ⟨following, ⟨d, seen, hd, hs, rule⟩, hn⟩
      exact ⟨d, seen, following, hd, hs, rule, hn⟩
    · rintro ⟨d, seen, following, hd, hs, rule, hn⟩
      exact ⟨following, ⟨d, seen, hd, hs, rule⟩, hn⟩

/-- Two commands that follow one another without end, the first after a rule that fails. -/
def pingPong : Engine :=
  let halt := ("halt", NextRule.mk (some "output == 1") [])
  let ping := { CommandSpec.ofName "ping" with next := some [halt, ("pong", ⟨none, []⟩)] }
  let pong := { CommandSpec.ofName "pong" with next := some [("ping", ⟨none, []⟩)] }
  let config := { Config.default with engine := { EngineSection.default with maxChainDepth := 3 } }
  Engine.build (((Manifest.empty "table").withCommand ping).withCommand pong) config
    [("ping", fun _ => .ok (.int 0)), ("pong", fun _ => .ok (.int 0))] true

theorem run_walk_pingPong :
    pingPong.manifest.Keyed ∧ 1 ≤ pingPong.config.engine.maxChainDepth ∧
      Walk pingPong blankStamp blankSession ⟨"ping", []⟩ ∧
      (pingPong.run blankStamp blankSession ⟨"ping", []⟩).2.chain = ["ping", "pong", "ping"] := by
  have keyed : pingPong.manifest.Keyed := ((Manifest.keyed_empty _).withCommand _).withCommand _
  have positive : 1 ≤ pingPong.config.engine.maxChainDepth := by decide
  exact ⟨keyed, positive, run_walk pingPong blankStamp blankSession ⟨"ping", []⟩ keyed positive,
    by decide +kernel⟩

end Chain

end CommandContract
