import CommandContract.Proofs.Chain.Trace
import CommandContract.Proofs.FileTree.Alike
import CommandContract.Proofs.Members
import CommandContract.Proofs.Text.Bytes

set_option autoImplicit false

/-!
# What a run reads of the state

Two sessions whose states hold the same under the keys that required parameters fall back to give
the same results, however much else they hold: `run_indistinct`. Handlers may look at anything but
the state. The two runs may bear other stamps, so their trace files need not be equal; `Unseen` says
that nothing else depends on the difference, and the lemmas after it that this is so for the same
stamp, for runs that are not recorded, and for handlers that read no files.
-/
namespace CommandContract

/-- The state keys that required parameters fall back to. -/
def Manifest.fallbackKeys (m : Manifest) : List String :=
  m.commands.flatMap fun (_, c) => c.parameters.filterMap fun (_, p) =>
    if p.isRequired then p.stateFallback else none

namespace State

/-- Two states that hold the same under some keys. In a state every key stands once. -/
structure Agree (keys : List String) (s t : State) : Prop where
  once : s.keys.Nodup
  onceMore : t.keys.Nodup
  values : ∀ key ∈ keys, s.get? key = t.get? key

namespace Agree

variable {keys : List String} {s t : State}

theorem set (h : Agree keys s t) (key : String) (v : Value) :
    Agree keys (s.set key v) (t.set key v) where
  once := Members.nodup_keys_put h.once
  onceMore := Members.nodup_keys_put h.onceMore
  values := by
    intro other ho
    have same := h.values other ho
    simp only [State.get?, State.set, Members.get?_put] at same ⊢
    rw [same]

theorem remove (h : Agree keys s t) (key : String) : Agree keys (s.remove key) (t.remove key) where
  once := Members.nodup_keys_erase h.once
  onceMore := Members.nodup_keys_erase h.onceMore
  values := by
    intro other ho
    have same := h.values other ho
    simp only [State.get?, State.remove] at same ⊢
    rw [Members.get?_erase h.once, Members.get?_erase h.onceMore, same]

theorem apply (h : Agree keys s t) (change : StateChange) :
    Agree keys (change.apply s) (change.apply t) := by
  obtain ⟨sets, clears⟩ := change
  have written : Agree keys (sets.foldl (fun s m => s.set m.1 m.2) s)
      (sets.foldl (fun s m => s.set m.1 m.2) t) := by
    induction sets generalizing s t with
    | nil => exact h
    | cons m sets ih => exact ih (h.set m.1 m.2)
  have removed : ∀ {s t : State}, Agree keys s t →
      Agree keys (clears.foldl State.remove s) (clears.foldl State.remove t) := by
    induction clears with
    | nil => exact fun h => h
    | cons key clears ih => exact fun h => ih (h.remove key)
  exact removed written

theorem value? (h : Agree keys s t) {key : String} (hk : key ∈ keys) :
    s.value? key = t.value? key := by
  rw [State.value?, State.value?, h.values key hk]

end Agree

end State

/-! ## Preparing arguments -/

namespace Validation

variable {t u : FileTree} {s s' : State} {params : Parameters}

theorem normalizeValue_congr
    (blobs : ∀ constraints v, Blob.normalize t constraints v = Blob.normalize u constraints v)
    (name : String) (p : ParameterSpec) (v : Value) :
    normalizeValue t name p v = normalizeValue u name p v := by
  simp only [normalizeValue, coerceTo, blobs]

theorem arrange_congr
    (blobs : ∀ constraints v, Blob.normalize t constraints v = Blob.normalize u constraints v)
    (given : Members Value) (params : Parameters) :
    arrange t given params = arrange u given params := by
  induction params with
  | nil => rfl
  | cons param params ih =>
    obtain ⟨name, p⟩ := param
    have first : argumentOf t given name p = argumentOf u given name p := by
      simp only [argumentOf, normalizeValue_congr blobs]
    rw [arrange, arrange, first, ih]

theorem fillFromState_congr (same : ∀ param ∈ params, stateValue? s param.2 = stateValue? s' param.2)
    (given : Members Value) : fillFromState s params given = fillFromState s' params given := by
  refine List.foldl_ext _ _ given fun args param hp => ?_
  simp only [same param hp]

theorem prepare_congr
    (blobs : ∀ constraints v, Blob.normalize t constraints v = Blob.normalize u constraints v)
    (same : ∀ param ∈ params, stateValue? s param.2 = stateValue? s' param.2)
    (given : Members Value) : prepare t s params given = prepare u s' params given := by
  simp only [prepare, validate, arrange_congr blobs, fillFromState_congr same]

end Validation

theorem stateValue?_of_agree {m : Manifest} {name : String} {c : CommandSpec} {s s' : State}
    (found : m.get? name = some c) (h : State.Agree m.fallbackKeys s s') :
    ∀ param ∈ c.parameters,
      Validation.stateValue? s param.2 = Validation.stateValue? s' param.2 := by
  intro param hp
  unfold Validation.stateValue?
  split
  · rename_i required
    cases hf : param.2.stateFallback with
    | none => rfl
    | some key =>
      have listed : key ∈ m.fallbackKeys := by
        refine List.mem_flatMap.mpr ⟨(name, c), Members.mem_of_get? found, ?_⟩
        refine List.mem_filterMap.mpr ⟨param, hp, ?_⟩
        simpa only [if_pos required] using hf
      exact h.value? listed
  · rfl

/-! ## Handlers -/

/-- A handler that does not look at the state. -/
def Handler.Blind (h : Handler) : Prop :=
  ∀ (tree : FileTree) (i : Invocation) (state : State), h.run tree { i with state } = h.run tree i

/-- Only handlers of the host and the built-in one that shows the state can look at it. -/
theorem Handler.blind_iff (h : Handler) : h.Blind ↔ h ≠ .builtin .state ∧
    ∀ answer, h = .host answer → ∀ (i : Invocation) (state : State),
      answer { i with state } = answer i := by
  cases h with
  | host answer =>
    constructor
    · intro blind
      refine ⟨(by intro he; cases he), fun _ he i state => ?_⟩
      cases he
      exact congrArg Prod.snd (blind ⟨[], []⟩ i state)
    · rintro ⟨_, same⟩ tree i state
      rw [run, run, same answer rfl i state]
  | builtin b =>
    constructor
    · intro blind
      refine ⟨?_, by intro _ he; cases he⟩
      intro he
      cases he
      have shown := congrArg Prod.snd
        (blind ⟨[], []⟩ ⟨CommandSpec.ofName "", [], Manifest.empty "", ⟨[]⟩⟩ ⟨[("key", .null)]⟩)
      cases shown
    · intro h tree i state
      cases b with
      | state => exact absurd rfl h.1
      | _ => rfl
  | program p =>
    constructor
    · intro _
      exact ⟨(by intro he; cases he), by intro _ he; cases he⟩
    · intro _ tree i state
      rfl

namespace Chain

/-! ## Differences that are not seen -/

/-- Differences of files that a run does not see, and that its own records do not make worse. -/
structure Unseen (e : Engine) (stamp other : Stamp) (like : FileTree → FileTree → Prop) : Prop where
  blobs : ∀ t u, like t u → ∀ constraints v,
    Blob.normalize t constraints v = Blob.normalize u constraints v
  handled : ∀ t u, like t u → ∀ name h, e.registry.get? name = some h → ∀ i,
    like (h.run t i).1 (h.run u i).1 ∧ (h.run t i).2 = (h.run u i).2
  recorded : ∀ t u, like t u → e.config.trace.enabled = true → ∀ n (event : TraceEvent),
    like
      (Trace.append t (e.config.tracePath e.manifest.root) (event.line (stamp.eventId n) stamp.time))
      (Trace.append u (e.config.tracePath e.manifest.root) (event.line (other.eventId n) other.time))

/-- Runs with the same stamp may have handlers of all kinds. -/
theorem Unseen.same (e : Engine) (stamp : Stamp) : Unseen e stamp stamp Eq where
  blobs := by
    rintro t _ rfl constraints v
    rfl
  handled := by
    rintro t _ rfl name h _ i
    exact ⟨rfl, rfl⟩
  recorded := by
    rintro t _ rfl _ n event
    rfl

/-- So may runs that are not recorded. -/
theorem Unseen.untraced {e : Engine} (off : e.config.trace.enabled = false) (stamp other : Stamp) :
    Unseen e stamp other Eq where
  blobs := (Unseen.same e stamp).blobs
  handled := (Unseen.same e stamp).handled
  recorded := by
    intro t u _ on
    rw [off] at on
    cases on

/-- The bytes that a text takes up in a line. -/
def width (s : String) : Nat := (String.ofList (Json.quoted s)).utf8ByteSize

/-- Stamps that make lines of the same length. -/
structure Even (stamp other : Stamp) : Prop where
  ids : ∀ n, width (stamp.eventId n) = width (other.eventId n)
  time : width stamp.time = width other.time

def SameLength (content other : List Nat) : Prop := content.length = other.length

theorem exists_line (event : TraceEvent) : ∃ before between after : List Char, ∀ id time,
    event.line id time =
      String.ofList (before ++ Json.quoted id ++ between ++ Json.quoted time ++ after) := by
  -- what stands behind the stamp does not depend on it
  refine ⟨'\x7b' :: (Json.quoted "trace_id" ++ [':']), ',' :: (Json.quoted "ts" ++ [':']),
    ',' :: Json.writeMembers (((event.toValue "" "").object?.getD []).drop 2), fun id time => ?_⟩
  rw [TraceEvent.line, Value.compact, TraceEvent.toValue, Json.write]
  simp only [List.cons_append, Json.writeMembers, Json.write, List.append_assoc, List.nil_append]
  rfl

theorem utf8ByteSize_line {stamp other : Stamp} (even : Even stamp other) (n : Nat)
    (event : TraceEvent) : (event.line (stamp.eventId n) stamp.time).utf8ByteSize =
      (event.line (other.eventId n) other.time).utf8ByteSize := by
  obtain ⟨before, between, after, written⟩ := exists_line event
  have ids := even.ids n
  have time := even.time
  unfold width at ids time
  simp only [written, String.ofList_append, String.utf8ByteSize_append, ids, time]

/-- Handlers that read no files do not see how the lines of two traces differ. -/
theorem Unseen.hosted {e : Engine} {stamp other : Stamp} (even : Even stamp other)
    (hosted : ∀ name p, e.registry.get? name ≠ some (.program p)) :
    Unseen e stamp other (FileTree.Alike SameLength) where
  blobs := by
    intro t u alike constraints v
    have sizes : ∀ path, t.size? path = u.size? path := alike.size? fun _ _ same => same
    simp only [Blob.normalize, Blob.record, Blob.classify, Blob.recheck, Blob.pathRecord, sizes]
  handled := by
    intro t u alike name h bound i
    cases h with
    | host answer => exact ⟨alike, rfl⟩
    | builtin b => exact ⟨alike, rfl⟩
    | program p => exact absurd bound (hosted name p)
  recorded := by
    intro t u alike _ n event
    refine alike.traced _ fun c d same => ?_
    have lines := utf8ByteSize_line even n event
    have held : c.length = d.length := by
      rcases same with rfl | same
      · rfl
      · exact same
    simp only [SameLength, List.length_append, Text.length_utf8, String.utf8ByteSize_append, lines,
      held]

/-- Differences of states that a run does not see, and that its own changes do not make worse. -/
structure Unread (e : Engine) (agree : State → State → Prop) : Prop where
  fallbacks : ∀ s t, agree s t → ∀ name c, e.manifest.get? name = some c →
    ∀ param ∈ c.parameters, Validation.stateValue? s param.2 = Validation.stateValue? t param.2
  handled : ∀ s t, agree s t → ∀ name h, e.registry.get? name = some h →
    ∀ tree (i : Invocation), h.run tree { i with state := t } = h.run tree { i with state := s }
  changed : ∀ s t, agree s t → ∀ change : StateChange, agree (change.apply s) (change.apply t)

/-- Where the states are the same, handlers may look at them. -/
theorem Unread.same (e : Engine) : Unread e Eq where
  fallbacks := by
    rintro s _ rfl name c _ param _
    rfl
  handled := by
    rintro s _ rfl name h _ tree i
    rfl
  changed := by
    rintro s _ rfl change
    rfl

theorem Unread.fallback {e : Engine}
    (blind : ∀ name h, e.registry.get? name = some h → h.Blind) :
    Unread e (State.Agree e.manifest.fallbackKeys) where
  fallbacks := fun _ _ agree _ _ found => stateValue?_of_agree found agree
  handled := by
    intro s t _ name h bound tree i
    exact (blind name h bound tree i t).trans (blind name h bound tree i s).symm
  changed := fun _ _ agree change => agree.apply change

/-! ## Two runs -/

/-- Two chains that differ in what nobody sees. -/
structure Twin (agree : State → State → Prop) (like : FileTree → FileTree → Prop)
    (p q : Progress) : Prop where
  files : like p.tree q.tree
  state : agree p.state q.state
  rest : q = { p with tree := q.tree, state := q.state }

section Run

variable {e : Engine} {stamp other : Stamp} {agree : State → State → Prop}
  {like : FileTree → FileTree → Prop} {p q : Progress} {c : CommandSpec}

theorem Twin.exists_eq (h : Twin agree like p q) : ∃ u t, like p.tree u ∧ agree p.state t ∧
    q = { p with tree := u, state := t } :=
  ⟨q.tree, q.state, h.files, h.state, h.rest⟩

theorem Twin.depth (h : Twin agree like p q) : q.chain.length = p.chain.length := by rw [h.rest]

theorem Twin.event (h : Twin agree like p q) (depth : Nat) (args : Members Value) (output : Value)
    (error : Option String) :
    q.event c depth args output error = p.event c depth args output error := by
  rw [h.rest]
  rfl

theorem Twin.argumentsOf (unseen : Unseen e stamp other like) (unread : Unread e agree)
    (h : Twin agree like p q) {name : String} (found : e.manifest.get? name = some c)
    (given : Members Value) :
    argumentsOf p c given = argumentsOf q c given := by
  obtain ⟨files, state, rest⟩ := h
  have prepared := Validation.prepare_congr (unseen.blobs p.tree q.tree files)
    (unread.fallbacks _ _ state name c found) given
  have chain : q.chain = p.chain := by rw [rest]
  simp only [Chain.argumentsOf, prepared, chain]

theorem Twin.record (unseen : Unseen e stamp other like) (h : Twin agree like p q)
    (event : TraceEvent) : Twin agree like (p.record e stamp event) (q.record e other event) := by
  obtain ⟨u, t, files, state, rfl⟩ := h.exists_eq
  unfold Progress.record
  split
  · rename_i enabled
    exact ⟨unseen.recorded p.tree u files enabled _ event, state, rfl⟩
  · exact ⟨files, state, rfl⟩

theorem Twin.execute (unseen : Unseen e stamp other like) (unread : Unread e agree)
    (h : Twin agree like p q) (args : Members Value) :
    Twin agree like (execute e p c args).1 (execute e q c args).1 ∧
      (execute e p c args).2 = (execute e q c args).2 := by
  obtain ⟨u, t, files, state, rfl⟩ := h.exists_eq
  unfold Chain.execute
  cases bound : e.registry.get? c.name with
  | none => exact ⟨⟨files, state, rfl⟩, rfl⟩
  | some handler =>
    -- the states differ in what the handler does not look at, the files in what it does not see
    have unread : handler.run u ⟨c, args, e.manifest, t⟩ =
        handler.run u ⟨c, args, e.manifest, p.state⟩ :=
      unread.handled p.state t state _ _ bound u ⟨c, args, e.manifest, p.state⟩
    obtain ⟨after, same⟩ := unseen.handled p.tree u files _ _ bound
      ⟨c, args, e.manifest, p.state⟩
    dsimp only
    rw [unread, same]
    exact ⟨⟨after, state, rfl⟩, rfl⟩

theorem Twin.follow (h : Twin agree like p q) (link : ChainLink) :
    Twin agree like (follow e p c link).1 (follow e q c link).1 ∧
      (follow e p c link).2 = (follow e q c link).2 := by
  obtain ⟨u, t, files, state, rfl⟩ := h.exists_eq
  unfold Chain.follow
  dsimp only
  split <;> exact ⟨⟨files, state, rfl⟩, rfl⟩

theorem Twin.complete (unseen : Unseen e stamp other like) (unread : Unread e agree)
    (h : Twin agree like p q) (args : Members Value) (answer : Value) :
    Twin agree like (complete e stamp p c args answer).1 (complete e other q c args answer).1 ∧
      (complete e stamp p c args answer).2 = (complete e other q c args answer).2 := by
  unfold Chain.complete
  split
  · exact ⟨h, rfl⟩
  split
  · exact ⟨h, rfl⟩
  rename_i output _ _ change _
  have changed : Twin agree like
      { p with state := change.apply p.state, exit := p.exit || signalsExit c }
      { q with state := change.apply q.state, exit := q.exit || signalsExit c } := by
    obtain ⟨files, state, rest⟩ := h
    refine ⟨files, unread.changed _ _ state change, ?_⟩
    rw [rest]
  have event := changed.event (c := c) p.chain.length args output none
  dsimp only
  rw [h.depth, event]
  exact (changed.record unseen _).follow _

theorem Twin.step (unseen : Unseen e stamp other like) (unread : Unread e agree)
    (h : Twin agree like p q) (call : Call) :
    Twin agree like (step e stamp p call).1 (step e other q call).1 ∧
      (step e stamp p call).2 = (step e other q call).2 := by
  unfold Chain.step
  split
  · exact ⟨h, rfl⟩
  rename_i c found
  rw [← h.argumentsOf unseen unread found]
  split
  · exact ⟨h, rfl⟩
  rename_i args _
  obtain ⟨after, same⟩ := h.execute (c := c) unseen unread args
  generalize Chain.execute e p c args = x at after same
  generalize Chain.execute e q c args = y at after same
  obtain ⟨p', answer⟩ := x
  obtain ⟨q', answer'⟩ := y
  obtain rfl : answer = answer' := same
  cases answer with
  | error failure =>
    dsimp only
    rw [after.depth, after.event]
    exact ⟨after.record unseen _, rfl⟩
  | ok answer =>
    have longer : Twin agree like { p' with chain := p'.chain ++ [c.name] }
        { q' with chain := q'.chain ++ [c.name] } := by
      obtain ⟨files, state, rest⟩ := after
      refine ⟨files, state, ?_⟩
      dsimp only at rest
      rw [rest]
    exact longer.complete unseen unread args answer

theorem Twin.runFrom (unseen : Unseen e stamp other like) (unread : Unread e agree) (n : Nat)
    (h : Twin agree like p q) (call : Call) :
    Twin agree like (runFrom e stamp n p call).1 (runFrom e other n q call).1 ∧
      (runFrom e stamp n p call).2 = (runFrom e other n q call).2 := by
  induction n generalizing p q call with
  | zero =>
    have chain : q.chain = p.chain := by rw [h.rest]
    rw [Chain.runFrom, Chain.runFrom, chain]
    exact ⟨h, rfl⟩
  | succ n ih =>
    obtain ⟨after, same⟩ := h.step unseen unread call
    rw [Chain.runFrom, Chain.runFrom]
    generalize Chain.step e stamp p call = x at after same
    generalize Chain.step e other q call = y at after same
    obtain ⟨p', s⟩ := x
    obtain ⟨q', s'⟩ := y
    obtain rfl : s = s' := same
    cases s with
    | next call => exact ih after call
    | done output => exact ⟨after, rfl⟩
    | failed failure => exact ⟨after, rfl⟩

theorem Twin.result (h : Twin agree like p q) (ended : Except ChainFailure Value) :
    CommandResult.ofChain p ended = CommandResult.ofChain q ended := by
  rw [h.rest]
  cases ended <;> rfl

theorem result_eq (e : Engine) (stamp : Stamp) (s : Session) (call : Call) :
    (e.run stamp s call).2 =
      CommandResult.ofChain (run e stamp s call).1 (run e stamp s call).2 := rfl

/-- Two whole runs from sessions that differ in what nobody sees. -/
theorem run_twin (unseen : Unseen e stamp other like) (unread : Unread e agree) {a b : Session}
    (files : like a.tree b.tree) (state : agree a.state b.state) (call : Call) :
    Twin agree like (run e stamp a call).1 (run e other b call).1 ∧
      (e.run stamp a call).2 = (e.run other b call).2 := by
  have start : Twin agree like (Progress.start a) (Progress.start b) := ⟨files, state, rfl⟩
  have ended : Twin agree like (run e stamp a call).1 (run e other b call).1 ∧
      (run e stamp a call).2 = (run e other b call).2 :=
    start.runFrom unseen unread e.config.engine.maxChainDepth call
  obtain ⟨after, same⟩ := ended
  refine ⟨after, ?_⟩
  rw [result_eq, result_eq, same, after.result]

end Run

/-- What two runs have in common. -/
structure Indistinct (e : Engine) (stamp other : Stamp) (like : FileTree → FileTree → Prop)
    (a b : Session) (call : Call) : Prop where
  /-- error, output, wish to exit and chain -/
  result : (e.run stamp a call).2 = (e.run other b call).2
  /-- Events bear no stamp; only the lines that are written of them do. -/
  events : (run e stamp a call).1.events = (run e other b call).1.events
  state : State.Agree e.manifest.fallbackKeys (e.run stamp a call).1.state
    (e.run other b call).1.state
  files : like (e.run stamp a call).1.tree (e.run other b call).1.tree

theorem run_indistinct {e : Engine} {stamp other : Stamp} {like : FileTree → FileTree → Prop}
    (unseen : Unseen e stamp other like)
    (blind : ∀ name h, e.registry.get? name = some h → h.Blind) {a b : Session}
    (files : like a.tree b.tree) (state : State.Agree e.manifest.fallbackKeys a.state b.state)
    (call : Call) : Indistinct e stamp other like a b call := by
  obtain ⟨after, result⟩ := run_twin unseen (Unread.fallback blind) files state call
  have events := congrArg Progress.events after.rest
  exact ⟨result, events.symm, after.state, after.files⟩

/-- A greeting that takes a missing name from the state, with a note behind it that changes the
state. -/
def reception : Engine :=
  let who := { ParameterSpec.ofType "string" with isRequired := true, stateFallback := some "user" }
  let greet := (CommandSpec.ofName "greet").withParameter "who" who
  let note := { CommandSpec.ofName "note" with
    sideEffects := some ⟨[("last", ⟨none, none, some (.bool true)⟩)], ["theme"], [], none⟩ }
  let manifest := ((Manifest.empty "hotel").withCommand
    { greet with next := some [("note", ⟨none, []⟩)] }).withCommand note
  Engine.build manifest (recording Config.default)
    [("greet", fun i => .ok (.object i.args)), ("note", fun _ => .ok .null)] true

def guest (theme : String) : Session :=
  ⟨⟨[], []⟩, ⟨[("user", .string "Ada"), ("theme", .string theme)]⟩⟩

def stamped (id : String) : Stamp := ⟨"", fun _ => id⟩

theorem reception_handlers {name : String} {h : Handler}
    (bound : reception.registry.get? name = some h) : ∃ answer, h = .host answer ∧
      ∀ (i : Invocation) (state : State), answer { i with state } = answer i := by
  have listed := Members.mem_of_get? bound
  rcases List.mem_pair.mp listed with he | he <;> cases he
  · exact ⟨_, rfl, fun _ _ => rfl⟩
  · exact ⟨_, rfl, fun _ _ => rfl⟩

theorem run_indistinct_reception :
    State.Agree reception.manifest.fallbackKeys (guest "dark").state (guest "light").state ∧
      Unseen reception (stamped "a") (stamped "b") (FileTree.Alike SameLength) ∧
      Indistinct reception (stamped "a") (stamped "b") (FileTree.Alike SameLength) (guest "dark")
        (guest "light") ⟨"greet", []⟩ ∧
      (reception.run (stamped "a") (guest "dark") ⟨"greet", []⟩).2.chain = ["greet", "note"] := by
  have keys : reception.manifest.fallbackKeys = ["user"] := rfl
  have agree : State.Agree reception.manifest.fallbackKeys (guest "dark").state
      (guest "light").state := by
    refine ⟨by decide, by decide, ?_⟩
    rw [keys, List.forall_mem_singleton]
    rfl
  have widths : width "a" = width "b" := by decide +kernel
  have even : Even (stamped "a") (stamped "b") := ⟨fun _ => widths, rfl⟩
  have unseen : Unseen reception (stamped "a") (stamped "b") (FileTree.Alike SameLength) := by
    refine Unseen.hosted even fun name p bound => ?_
    obtain ⟨_, he, _⟩ := reception_handlers bound
    cases he
  have files : FileTree.Alike SameLength (guest "dark").tree (guest "light").tree := .refl _ _
  refine ⟨agree, unseen, run_indistinct unseen ?_ files agree ⟨"greet", []⟩, by decide +kernel⟩
  intro name h bound
  obtain ⟨answer, rfl, blind⟩ := reception_handlers bound
  refine (Handler.blind_iff _).mpr ⟨(by intro he; cases he), fun other he => ?_⟩
  obtain rfl := Handler.host.inj he
  exact blind

end Chain

end CommandContract
