import CommandContract.Proofs.Chain.Agreement
import CommandContract.Proofs.Chain.Atomic
import CommandContract.Rpc

set_option autoImplicit false

/-!
# Requests that run nothing

Only requests to run something change a session. So requests of other kinds may be put into a
sequence or left out of it, and the session ends up the same and the other answers stay the same, up
to the stamps: `Rpc.requests_frame`. It also says what a sequence does to the session, and what every
answer tells of its request.
-/
namespace CommandContract

/-! ## Lines that are read with other files -/

namespace Call

variable {t u : FileTree}

theorem applyTransform_congr
    (blobs : ∀ constraints v, Blob.normalize t constraints v = Blob.normalize u constraints v)
    (spec : CommandSpec) (v : Value) : applyTransform t spec v = applyTransform u spec v := by
  simp only [applyTransform, Validation.normalizeValue_congr blobs]

theorem readLine_congr
    (blobs : ∀ constraints v, Blob.normalize t constraints v = Blob.normalize u constraints v)
    (m : Manifest) (line : String) : readLine t m line = readLine u m line := by
  simp only [readLine, bodyArguments, literalArguments, applyTransform_congr blobs]

theorem parse_congr
    (blobs : ∀ constraints v, Blob.normalize t constraints v = Blob.normalize u constraints v)
    (m : Manifest) (s : State) (line : String) : parse t m s line = parse u m s line := by
  simp only [parse, readLine_congr blobs, Validation.prepare_congr blobs fun _ _ => rfl]

end Call

namespace Rpc

variable {e : Engine} {like : FileTree → FileTree → Prop} {a b s : Session} {stamp other : Stamp}
  {r : Request} {params : Value} {key : String}

/-! ## Sequences of requests -/

structure Asked where
  stamp : Stamp
  request : Request

def Asked.runs (x : Asked) : Bool := x.request.op = "run"

/-- The session after requests that are answered in order. -/
def after (e : Engine) (s : Session) (asked : List Asked) : Session :=
  asked.foldl (fun s x => (handle e x.stamp s x.request).1) s

def textOf? (r : Request) (key : String) : Option String :=
  (r.params.member? key).bind Value.string?

/-- What a request to run something does: it executes its line, or else runs its command. -/
def perform (e : Engine) (s : Session) (x : Asked) : Session :=
  match textOf? x.request "input", textOf? x.request "command" with
  | some line, _ => (e.execute x.stamp s line).1
  | none, some command => (e.run x.stamp s ⟨command, argsOf x.request.params⟩).1
  | none, none => s

/-- The call that a request to run something makes, if it gets that far. -/
def called? (e : Engine) (s : Session) (r : Request) : Option Call :=
  match textOf? r "input", textOf? r "command" with
  | some line, _ => (e.parse s line).toOption
  | none, some command => some ⟨command, argsOf r.params⟩
  | none, none => none

/-- A place in two sequences: a request of both, or one that only one of them has. -/
inductive Turn where
  | both (stamp other : Stamp) (r : Request)
  | left (x : Asked)
  | right (x : Asked)

namespace Turn

def left? : Turn → Option Asked
  | both stamp _ r => some ⟨stamp, r⟩
  | left x => some x
  | right _ => none

def right? : Turn → Option Asked
  | both _ other r => some ⟨other, r⟩
  | left _ => none
  | right x => some x

/-- A request that only one of the sequences has runs nothing. -/
def Quiet : Turn → Prop
  | both _ _ _ => True
  | left x => x.request.op ≠ "run"
  | right x => x.request.op ≠ "run"

end Turn

def lefts (turns : List Turn) : List Asked := turns.filterMap Turn.left?

def rights (turns : List Turn) : List Asked := turns.filterMap Turn.right?

def Response.untimed (x : Response) : Response :=
  { x with receipt := { x.receipt with timestamp := "" } }

/-! ## Requests that run nothing -/

theorem ofName?_eq_run_iff (op : String) : Operation.ofName? op = some .run ↔ op = "run" := by
  constructor
  · intro h
    have named := List.find?_some h
    exact (of_decide_eq_true named).symm
  · rintro rfl
    rfl

/-- What a request that runs nothing is answered depends on the files only through blobs. -/
theorem dispatch_quiet (quiet : r.op ≠ "run") (e : Engine) (stamp other : Stamp)
    (state : a.state = b.state)
    (blobs : ∀ constraints v,
      Blob.normalize a.tree constraints v = Blob.normalize b.tree constraints v) :
    (dispatch e stamp a r).1 = a ∧ (dispatch e stamp a r).2 = (dispatch e other b r).2 ∧
      (dispatch e stamp a r).2.2 = false := by
  have apart : Operation.ofName? r.op ≠ some .run := fun h => quiet ((ofName?_eq_run_iff _).mp h)
  unfold dispatch
  cases named : Operation.ofName? r.op with
  | none => exact ⟨rfl, rfl, rfl⟩
  | some op =>
    cases op with
    | manifest => exact ⟨rfl, rfl, rfl⟩
    | state => exact ⟨rfl, by rw [state], rfl⟩
    | parse =>
      have lines : ∀ line, e.parse a line = e.parse b line := fun line => by
        rw [Engine.parse, Engine.parse, state, Call.parse_congr blobs]
      refine ⟨rfl, ?_, rfl⟩
      simp only [parse, lines]
    | validate =>
      refine ⟨rfl, ?_, rfl⟩
      simp only [validate, Engine.validate, Validation.validate, Validation.arrange_congr blobs]
    | run => exact absurd named apart

theorem handle_quiet (quiet : r.op ≠ "run") : (handle e stamp s r).1 = s :=
  (dispatch_quiet quiet e stamp stamp (rfl : s.state = s.state) fun _ _ => rfl).1

/-! ## Requests to run something -/

theorem dispatch_run (runs : r.op = "run") :
    dispatch e stamp s r = run e stamp s r.params := by
  rw [dispatch, (ofName?_eq_run_iff r.op).mpr runs]

/-- The three things that a request may ask to run: a line, a call, or nothing that it names. -/
theorem run_cases (r : Request) :
    (∃ line, ∀ e stamp s, run e stamp s r.params = ((e.execute stamp s line).1,
        resultOf (e.execute stamp s line).2, (e.execute stamp s line).2.exit) ∧
      perform e s ⟨stamp, r⟩ = (e.execute stamp s line).1 ∧
      called? e s r = (e.parse s line).toOption) ∨
    (∃ call, ∀ e stamp s, run e stamp s r.params = ((e.run stamp s call).1,
        resultOf (e.run stamp s call).2, (e.run stamp s call).2.exit) ∧
      perform e s ⟨stamp, r⟩ = (e.run stamp s call).1 ∧ called? e s r = some call) ∨
    ∃ fault, ∀ e stamp s, run e stamp s r.params = (s, .error fault, false) ∧
      perform e s ⟨stamp, r⟩ = s ∧ called? e s r = none := by
  cases input : (r.params.member? "input").bind Value.string? with
  | some line =>
    refine .inl ⟨line, fun e stamp s => ?_⟩
    simp only [run, perform, called?, textOf?, textParameter, input, and_self]
  | none =>
    cases command : (r.params.member? "command").bind Value.string? with
    | some command' =>
      refine .inr (.inl ⟨⟨command', argsOf r.params⟩, fun e stamp s => ?_⟩)
      simp only [run, perform, called?, textOf?, textParameter, input, command, and_self]
    | none =>
      refine .inr (.inr ⟨.missingParameter "command", fun e stamp s => ?_⟩)
      simp only [run, perform, called?, textOf?, textParameter, input, command, and_self]

theorem handle_run (runs : r.op = "run") : (handle e stamp s r).1 = perform e s ⟨stamp, r⟩ := by
  have handled : (handle e stamp s r).1 = (run e stamp s r.params).1 := by
    rw [← dispatch_run runs]
    rfl
  rw [handled]
  rcases run_cases r with ⟨line, h⟩ | ⟨call, h⟩ | ⟨fault, h⟩ <;>
  · obtain ⟨ran, done, -⟩ := h e stamp s
    rw [ran, done]

/-! ## Wishes to exit -/

theorem exit_iff (e : Engine) (stamp : Stamp) (s : Session) (call : Call) :
    (e.run stamp s call).2.exit = true ↔
      ∃ d ∈ Chain.completions e stamp s call, Chain.signalsExit d.spec = true := by
  rw [Chain.result_exit, (Chain.run_course e stamp s call).exit_eq]
  simp [Chain.Progress.start]

/-- Some command that the request has run wished to exit. -/
def Exits (e : Engine) (stamp : Stamp) (s : Session) (r : Request) : Prop :=
  r.op = "run" ∧ ∃ call, called? e s r = some call ∧
    ∃ d ∈ Chain.completions e stamp s call, Chain.signalsExit d.spec = true

theorem handle_exit_iff (e : Engine) (stamp : Stamp) (s : Session) (r : Request) :
    (handle e stamp s r).2.exit = true ↔ Exits e stamp s r := by
  have handled : (handle e stamp s r).2.exit = (dispatch e stamp s r).2.2 := rfl
  rw [handled]
  by_cases runs : r.op = "run"
  · rw [dispatch_run runs, Exits, and_iff_right runs]
    rcases run_cases r with ⟨line, h⟩ | ⟨call, h⟩ | ⟨fault, h⟩
    · obtain ⟨ran, -, called⟩ := h e stamp s
      rw [ran, called, Engine.execute]
      cases e.parse s line with
      | ok call => simp [exit_iff, Except.toOption]
      | error cause => simp [CommandResult.failure, Except.toOption]
    · obtain ⟨ran, -, called⟩ := h e stamp s
      rw [ran, called]
      simp [exit_iff]
    · obtain ⟨ran, -, called⟩ := h e stamp s
      rw [ran, called]
      simp
  · have same : s.state = s.state := rfl
    obtain ⟨-, -, silent⟩ := dispatch_quiet runs e stamp stamp same fun _ _ => rfl
    simp [silent, Exits, runs]

/-! ## Two sessions -/

/-- Sessions of one state, whose files differ in what nobody sees. -/
structure Same (like : FileTree → FileTree → Prop) (a b : Session) : Prop where
  files : like a.tree b.tree
  state : a.state = b.state

theorem Same.run (h : Same like a b) (unseen : Chain.Unseen e stamp other like) (call : Call) :
    Same like (e.run stamp a call).1 (e.run other b call).1 ∧
      (e.run stamp a call).2 = (e.run other b call).2 := by
  obtain ⟨after, result⟩ := Chain.run_twin unseen (.same e) h.files h.state call
  exact ⟨⟨after.files, after.state⟩, result⟩

theorem Same.execute (h : Same like a b) (unseen : Chain.Unseen e stamp other like)
    (line : String) : Same like (e.execute stamp a line).1 (e.execute other b line).1 ∧
      (e.execute stamp a line).2 = (e.execute other b line).2 := by
  have read : e.parse a line = e.parse b line := by
    rw [Engine.parse, Engine.parse, h.state, Call.parse_congr (unseen.blobs _ _ h.files)]
  rw [Engine.execute, Engine.execute, read]
  cases e.parse b line with
  | ok call => exact h.run unseen call
  | error cause => exact ⟨h, rfl⟩

theorem Same.handle (h : Same like a b)
    (blobs : ∀ t u, like t u → ∀ constraints v,
      Blob.normalize t constraints v = Blob.normalize u constraints v)
    (unseen : r.op = "run" → Chain.Unseen e stamp other like) :
    Same like (handle e stamp a r).1 (handle e other b r).1 ∧
      (handle e stamp a r).2.untimed = (handle e other b r).2.untimed := by
  have dispatched : Same like (dispatch e stamp a r).1 (dispatch e other b r).1 ∧
      (dispatch e stamp a r).2 = (dispatch e other b r).2 := by
    by_cases runs : r.op = "run"
    · rw [dispatch_run runs, dispatch_run runs]
      rcases run_cases r with ⟨line, asked⟩ | ⟨call, asked⟩ | ⟨fault, asked⟩
      · rw [(asked e stamp a).1, (asked e other b).1]
        obtain ⟨after, same⟩ := h.execute (unseen runs) line
        exact ⟨after, by rw [same]⟩
      · rw [(asked e stamp a).1, (asked e other b).1]
        obtain ⟨after, same⟩ := h.run (unseen runs) call
        exact ⟨after, by rw [same]⟩
      · rw [(asked e stamp a).1, (asked e other b).1]
        exact ⟨h, rfl⟩
    · obtain ⟨-, same, -⟩ := dispatch_quiet runs e stamp other h.state (blobs _ _ h.files)
      refine ⟨?_, same⟩
      have kept : ∀ stamp s, (dispatch e stamp s r).1 = s := fun _ _ => handle_quiet runs
      rw [kept, kept]
      exact h
  obtain ⟨after, same⟩ := dispatched
  refine ⟨after, ?_⟩
  have written : ∀ stamp s, (Rpc.handle e stamp s r).2.untimed =
      respond "" r (dispatch e stamp s r).2.1 (dispatch e stamp s r).2.2 := fun _ _ => rfl
  rw [written, written, same]

/-! ## Two sequences -/

/-- What differs between two sequences makes no difference to what they run. -/
structure Overlooks (e : Engine) (like : FileTree → FileTree → Prop) (turns : List Turn) :
    Prop where
  blobs : ∀ t u, like t u → ∀ constraints v,
    Blob.normalize t constraints v = Blob.normalize u constraints v
  runs : ∀ stamp other r, .both stamp other r ∈ turns → r.op = "run" →
    Chain.Unseen e stamp other like

/-- The differences may be of any kind if each request to run something has one stamp. -/
theorem Overlooks.punctual {turns : List Turn}
    (one : ∀ stamp other r, .both stamp other r ∈ turns → r.op = "run" → stamp = other) :
    Overlooks e Eq turns where
  blobs := (Chain.Unseen.same e ⟨"", fun _ => ""⟩).blobs
  runs := by
    intro stamp other r listed runs
    obtain rfl := one stamp other r listed runs
    exact .same e stamp

theorem Same.after {turns : List Turn} (h : Same like a b)
    (quiet : ∀ turn ∈ turns, turn.Quiet) (overlooks : Overlooks e like turns) :
    Same like (after e a (lefts turns)) (after e b (rights turns)) := by
  induction turns generalizing a b with
  | nil => exact h
  | cons turn turns ih =>
    obtain ⟨here, there⟩ := List.forall_mem_cons.mp quiet
    have below : Overlooks e like turns :=
      ⟨overlooks.blobs, fun _ _ _ listed => overlooks.runs _ _ _ (List.mem_cons_of_mem _ listed)⟩
    cases turn with
    | both stamp other r =>
      have answered := h.handle overlooks.blobs (overlooks.runs stamp other r List.mem_cons_self)
      exact ih answered.1 there below
    | left x =>
      -- a request of one side only leaves the session of that side as it is
      refine ih ?_ there below
      change Same like (Rpc.handle e x.stamp a x.request).1 b
      rw [handle_quiet here]
      exact h
    | right x =>
      refine ih ?_ there below
      change Same like a (Rpc.handle e x.stamp b x.request).1
      rw [handle_quiet here]
      exact h

theorem after_eq_foldl_perform (e : Engine) (s : Session) (asked : List Asked) :
    after e s asked = (asked.filter Asked.runs).foldl (perform e) s := by
  induction asked generalizing s with
  | nil => rfl
  | cons x asked ih =>
    rw [after, List.foldl_cons, List.filter_cons]
    by_cases runs : x.request.op = "run"
    · have performs : x.runs = true := decide_eq_true runs
      rw [if_pos performs, List.foldl_cons, handle_run runs]
      exact ih _
    · have performs : ¬ x.runs = true := fun h => runs (of_decide_eq_true h)
      rw [if_neg performs, handle_quiet runs]
      exact ih s

/-! ## Answers -/

/-- What an answer says of its request. -/
structure Echoes (e : Engine) (stamp : Stamp) (s : Session) (r : Request) (written : Value) :
    Prop where
  id : written.member? "id" = some (.string r.id)
  op : (written.member? "receipt").bind (Value.member? "op") = some (.string r.op)
  success : ∃ b, written.member? "success" = some (.bool b) ∧
    (b = true ↔ (written.member? "result").isSome = true) ∧
    (b = true ↔ written.member? "error" = none)
  exit : written.member? "exit" = some (.bool true) ↔ Exits e stamp s r

theorem echoes (e : Engine) (stamp : Stamp) (s : Session) (r : Request) :
    Echoes e stamp s r (handle e stamp s r).2.toValue := by
  have wish := handle_exit_iff e stamp s r
  have id : (handle e stamp s r).2.id = r.id := rfl
  have op : (handle e stamp s r).2.receipt.op = r.op := rfl
  -- of how the answer came about no more is needed
  generalize (handle e stamp s r).2 = answer at wish id op
  obtain ⟨id', receipt, result, exit⟩ := answer
  dsimp only at wish id op
  subst id
  cases result with
  | ok v =>
    refine ⟨rfl, ?_, ⟨true, rfl, ?_⟩, ?_⟩
    · rw [← op]
      rfl
    · simp [Response.toValue, Value.member?, Members.get?]
    · rw [← wish]
      simp [Response.toValue, Value.member?, Members.get?]
  | error fault =>
    refine ⟨rfl, ?_, ⟨false, rfl, ?_⟩, ?_⟩
    · rw [← op]
      rfl
    · simp [Response.toValue, Value.member?, Members.get?]
    · rw [← wish]
      simp [Response.toValue, Value.member?, Members.get?]

/-! ## The frame -/

/-- Two sequences end alike, and what both of them ask is answered alike. -/
structure Framed (e : Engine) (like : FileTree → FileTree → Prop) (s : Session)
    (turns : List Turn) : Prop where
  ending : Same like (after e s (lefts turns)) (after e s (rights turns))
  answers : ∀ before stamp other r rest, turns = before ++ .both stamp other r :: rest →
    (handle e stamp (after e s (lefts before)) r).2.untimed =
      (handle e other (after e s (rights before)) r).2.untimed

theorem framed {turns : List Turn} (files : like s.tree s.tree)
    (quiet : ∀ turn ∈ turns, turn.Quiet) (overlooks : Overlooks e like turns) :
    Framed e like s turns := by
  have start : Same like s s := ⟨files, rfl⟩
  refine ⟨start.after quiet overlooks, ?_⟩
  rintro before stamp other r rest rfl
  have runs := overlooks.runs stamp other r (List.mem_append_right _ List.mem_cons_self)
  have earlier : Overlooks e like before :=
    ⟨overlooks.blobs, fun _ _ _ listed => overlooks.runs _ _ _ (List.mem_append_left _ listed)⟩
  have reached := start.after (fun turn h => quiet turn (List.mem_append_left _ h)) earlier
  exact (reached.handle overlooks.blobs runs).2

theorem requests_frame (e : Engine) (s : Session) {turns : List Turn}
    (quiet : ∀ turn ∈ turns, turn.Quiet) :
    ((∀ stamp other r, .both stamp other r ∈ turns → r.op = "run" → stamp = other) →
        Framed e Eq s turns) ∧
      (∀ like, like s.tree s.tree → Overlooks e like turns → Framed e like s turns) ∧
      (∀ asked, after e s asked = (asked.filter Asked.runs).foldl (perform e) s) ∧
      ∀ stamp r, Echoes e stamp s r (handle e stamp s r).2.toValue :=
  ⟨fun one => framed rfl quiet (.punctual one),
    fun _ files overlooks => framed files quiet overlooks,
    after_eq_foldl_perform e s, fun stamp r => echoes e stamp s r⟩

/-- A guest is greeted and then the state is asked for; one sequence asks for it before as well, and
the other has a request of an unknown kind between the two. -/
def reception (other : Stamp) : List Turn := [
  .left ⟨Chain.stamped "a", ⟨"state", .null, "1"⟩⟩,
  .both (Chain.stamped "a") other ⟨"run", .object [("input", .string "greet()")], "2"⟩,
  .right ⟨other, ⟨"dance", .null, "3"⟩⟩,
  .both (Chain.stamped "a") other ⟨"state", .null, "4"⟩]

theorem quiet_reception (other : Stamp) : ∀ turn ∈ reception other, turn.Quiet := by
  simp [reception, Turn.Quiet]

theorem stamps_of_reception {first second : Stamp}
    (h : .both first second r ∈ reception other) : first = Chain.stamped "a" ∧ second = other := by
  simp only [reception, List.mem_cons, Turn.both.injEq, reduceCtorEq, List.not_mem_nil, false_or,
    or_false] at h
  rcases h with ⟨one, two, -⟩ | ⟨one, two, -⟩ <;> exact ⟨one, two⟩

theorem overlooks_reception : Overlooks Chain.reception (FileTree.Alike Chain.SameLength)
    (reception (Chain.stamped "b")) := by
  have widths : Chain.width "a" = Chain.width "b" := by decide +kernel
  have even : Chain.Even (Chain.stamped "a") (Chain.stamped "b") := ⟨fun _ => widths, rfl⟩
  have unseen : Chain.Unseen Chain.reception (Chain.stamped "a") (Chain.stamped "b")
      (FileTree.Alike Chain.SameLength) := by
    refine .hosted even fun name p bound => ?_
    obtain ⟨_, he, _⟩ := Chain.reception_handlers bound
    cases he
  refine ⟨unseen.blobs, fun stamp other r listed _ => ?_⟩
  obtain ⟨rfl, rfl⟩ := stamps_of_reception listed
  exact unseen

theorem requests_frame_reception :
    Framed Chain.reception Eq (Chain.guest "dark") (reception (Chain.stamped "a")) ∧
      Framed Chain.reception (FileTree.Alike Chain.SameLength) (Chain.guest "dark")
        (reception (Chain.stamped "b")) ∧
      ((after Chain.reception (Chain.guest "dark")
        (rights (reception (Chain.stamped "b")))).state.get? "last").isSome = true := by
  obtain ⟨one, -, -, -⟩ := requests_frame Chain.reception (Chain.guest "dark")
    (quiet_reception (Chain.stamped "a"))
  obtain ⟨-, any, -, -⟩ := requests_frame Chain.reception (Chain.guest "dark")
    (quiet_reception (Chain.stamped "b"))
  refine ⟨one fun stamp other r listed _ => ?_, any _ (.refl _ _) overlooks_reception,
    by decide +kernel⟩
  obtain ⟨rfl, rfl⟩ := stamps_of_reception listed
  rfl

end Rpc

end CommandContract
