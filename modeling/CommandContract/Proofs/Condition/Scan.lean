import CommandContract.Proofs.Condition.Grammar

set_option autoImplicit false

/-!
# Faults in the order of the tokens

A scan that takes token after token and knows nothing of the strength of operators, of expressions
or of values: it remembers what may come next and how many parentheses are open. It ends with the
fault that the reader reports, or with none where the reader has none: `scan_start`. Behind an
operator it goes on from the same place, whatever stands before the operator.
-/
namespace CommandContract.Condition

/-- What may come next. -/
inductive Stage where
  /-- an operand, an opening parenthesis or a negation -/
  | due
  /-- the second operand of a comparison -/
  | compared
  /-- what follows an operand that has not been compared -/
  | bare
  /-- what follows a complete part -/
  | complete
  deriving DecidableEq, Repr

/-- A stage of the scan, and the number of parentheses that are open. -/
structure Place where
  stage : Stage
  depth : Nat
  deriving DecidableEq, Repr

namespace Place

def start : Place := ⟨.due, 0⟩

/-- The fault of a token that cannot follow a complete part. -/
def surplus (depth : Nat) (t : Token) : Fault :=
  if depth = 0 then .unexpectedToken t else .expectedClosing

def afterPart (depth : Nat) : Token → Except Fault Place
  | .either => .ok ⟨.due, depth⟩
  | .both => .ok ⟨.due, depth⟩
  | .closing =>
    match depth with
    | 0 => .error (surplus 0 .closing)
    | depth + 1 => .ok ⟨.complete, depth⟩
  | t => .error (surplus depth t)

/-- The place behind a token. -/
def after : Place → Token → Except Fault Place
  | ⟨.due, depth⟩, .negation => .ok ⟨.due, depth⟩
  | ⟨.due, depth⟩, .opening => .ok ⟨.due, depth + 1⟩
  | ⟨.due, depth⟩, .literal _ => .ok ⟨.bare, depth⟩
  | ⟨.due, depth⟩, .path _ => .ok ⟨.bare, depth⟩
  | ⟨.due, _⟩, t => .error (.expectedValue t)
  | ⟨.compared, depth⟩, .literal _ => .ok ⟨.complete, depth⟩
  | ⟨.compared, depth⟩, .path _ => .ok ⟨.complete, depth⟩
  | ⟨.compared, _⟩, t => .error (.expectedValue t)
  | ⟨.bare, depth⟩, .comparison _ => .ok ⟨.compared, depth⟩
  | ⟨.bare, depth⟩, t => afterPart depth t
  | ⟨.complete, depth⟩, t => afterPart depth t

/-- Whether the tokens may end. -/
def finish : Place → Except Fault Unit
  | ⟨.due, _⟩ => .error .unexpectedEnd
  | ⟨.compared, _⟩ => .error .unexpectedEnd
  | ⟨_, 0⟩ => .ok ()
  | ⟨_, _ + 1⟩ => .error .expectedClosing

/-- The place behind some tokens. -/
def follow (p : Place) : List Token → Except Fault Place
  | [] => .ok p
  | t :: ts => do
    let q ← p.after t
    q.follow ts

def scan (p : Place) (ts : List Token) : Except Fault Unit := do
  let q ← p.follow ts
  q.finish

variable {p q : Place} {ts : List Token} {t : Token}

theorem follow_append (p : Place) (ts us : List Token) :
    p.follow (ts ++ us) = p.follow ts >>= fun q => q.follow us := by
  induction ts generalizing p with
  | nil => rfl
  | cons t ts ih =>
    change (p.after t >>= fun q => q.follow (ts ++ us)) = _
    simp only [ih]
    rw [follow, bind_assoc]

/-- What has been scanned leaves nothing but its place. -/
theorem scan_append (h : p.follow ts = .ok q) (us : List Token) :
    p.scan (ts ++ us) = q.scan us := by
  rw [scan, follow_append, h]
  rfl

theorem scan_cons (p : Place) (t : Token) (ts : List Token) :
    p.scan (t :: ts) = p.after t >>= fun q => q.scan ts := by
  rw [scan, follow, bind_assoc]
  rfl

theorem scan_cons_ok (h : p.after t = .ok q) (ts : List Token) : p.scan (t :: ts) = q.scan ts := by
  rw [scan_cons, h]
  rfl

/-- An operand that nothing is compared with is a complete part. -/
theorem scan_bare (h : Uncompared ts) (depth : Nat) :
    (Place.mk .bare depth).scan ts = (Place.mk .complete depth).scan ts := by
  cases ts with
  | nil => cases depth <;> rfl
  | cons t ts =>
    have same : (Place.mk .bare depth).after t = (Place.mk .complete depth).after t := by
      cases t with
      | comparison op => exact absurd rfl (h op ts)
      | _ => rfl
    rw [scan_cons, scan_cons, same]

theorem finish_eq_ok (h : p.finish = .ok ()) :
    p = ⟨.bare, 0⟩ ∨ p = ⟨.complete, 0⟩ := by
  obtain ⟨stage, depth⟩ := p
  cases stage with
  | due | compared => cases h
  | bare =>
    cases depth with
    | zero => exact .inl rfl
    | succ depth => cases h
  | complete =>
    cases depth with
    | zero => exact .inr rfl
    | succ depth => cases h

/-- Behind a condition and an operator a scan starts anew. -/
theorem follow_joined {op : Token} (joins : op = .either ∨ op = .both)
    (h : start.scan ts = .ok ()) : start.follow (ts ++ [op]) = .ok start := by
  obtain ⟨p, followed, ends⟩ := Except.bind_eq_ok_iff.mp h
  rw [follow_append, followed]
  rcases finish_eq_ok ends with rfl | rfl <;> rcases joins with rfl | rfl <;> rfl

end Place

/-! ## The scan of what the reader leaves -/

/-- The scan behind a part that no operator follows. -/
def scanBehind (depth : Nat) : List Token → Except Fault Unit
  | [] => (Place.mk .complete depth).finish
  | .closing :: ts =>
    match depth with
    | 0 => .error (Place.surplus 0 .closing)
    | depth + 1 => (Place.mk .complete depth).scan ts
  | t :: _ => .error (Place.surplus depth t)

/-- The scan behind a part that no `&&` follows. -/
def scanBehindBoth (depth : Nat) : List Token → Except Fault Unit
  | .either :: ts => (Place.mk .due depth).scan ts
  | ts => scanBehind depth ts

theorem scanBehindBoth_eq {ts : List Token} (h : ∀ us, ts ≠ .either :: us) (depth : Nat) :
    scanBehindBoth depth ts = scanBehind depth ts := by
  unfold scanBehindBoth
  split
  · exact absurd rfl (h _)
  · rfl

theorem scan_complete {ts : List Token} (h : ∀ us, ts ≠ .both :: us) (depth : Nat) :
    (Place.mk .complete depth).scan ts = scanBehindBoth depth ts := by
  cases ts with
  | nil => rfl
  | cons t ts =>
    cases t with
    | both => exact absurd rfl (h ts)
    | closing => cases depth <;> rfl
    | _ => rfl

/-! ## The scan and the reader -/

section Reader

variable {ts rest : List Token} {e : Expression} {fuel : Nat}

/-- Behind an operand that is due there may be a comparison, else it is a part by itself. -/
theorem scan_operand (a : Operand) (depth : Nat) (ts : List Token) :
    (Place.mk .due depth).scan (a.token :: ts) =
      readComparison (a.token :: ts) >>= fun r => (Place.mk .complete depth).scan r.2 := by
  have here : (Place.mk .due depth).scan (a.token :: ts) = (Place.mk .bare depth).scan ts :=
    Place.scan_cons_ok (by cases a <;> rfl) ts
  rw [here]
  by_cases compared : ∃ op us, ts = .comparison op :: us
  · obtain ⟨op, us, rfl⟩ := compared
    have sign : (Place.mk .bare depth).scan (.comparison op :: us) =
        (Place.mk .compared depth).scan us := Place.scan_cons_ok rfl us
    rw [sign, readComparison, readOperand_eq_ok_iff.mpr rfl]
    cases us with
    | nil => rfl
    | cons t us => cases t <;> rfl
  · have stop : Uncompared ts := fun op us h => compared ⟨op, us, h⟩
    rw [Place.scan_bare stop, readComparison_stop a stop]
    rfl

/-- A scan behind what is read with an amount of fuel. -/
structure ScansAt (fuel : Nat) : Prop where
  either : ∀ ts depth, 4 * ts.length + 3 ≤ fuel → (Place.mk .due depth).scan ts =
    readEither fuel ts >>= fun r => scanBehind depth r.2
  afterEither : ∀ a ts depth, 4 * ts.length ≤ fuel → scanBehindBoth depth ts =
    moreEither fuel a ts >>= fun r => scanBehind depth r.2
  both : ∀ ts depth, 4 * ts.length + 2 ≤ fuel → (Place.mk .due depth).scan ts =
    readBoth fuel ts >>= fun r => scanBehindBoth depth r.2
  afterBoth : ∀ a ts depth, 4 * ts.length ≤ fuel → (Place.mk .complete depth).scan ts =
    moreBoth fuel a ts >>= fun r => scanBehindBoth depth r.2
  unary : ∀ ts depth, 4 * ts.length + 1 ≤ fuel → (Place.mk .due depth).scan ts =
    readUnary fuel ts >>= fun r => (Place.mk .complete depth).scan r.2

theorem length_readBoth (h : readBoth fuel ts = .ok (e, rest)) : rest.length ≤ ts.length := by
  obtain ⟨s, rfl, -⟩ := (soundAt fuel).both h
  simp

theorem length_readUnary (h : readUnary fuel ts = .ok (e, rest)) : rest.length ≤ ts.length := by
  obtain ⟨s, rfl, -⟩ := (soundAt fuel).unary h
  simp

section Step

variable (scans : ScansAt fuel) (a : Expression) (ts : List Token) (depth : Nat)
include scans

theorem ScansAt.either_succ (enough : 4 * ts.length + 3 ≤ fuel + 1) :
    (Place.mk .due depth).scan ts = readEither (fuel + 1) ts >>= fun r => scanBehind depth r.2 := by
  rw [readEither, bind_assoc, scans.both ts depth (by omega)]
  refine Except.bind_congr_ok fun r read => ?_
  obtain ⟨a, rest⟩ := r
  have := length_readBoth read
  exact scans.afterEither a rest depth (by omega)

theorem ScansAt.afterEither_succ (enough : 4 * ts.length ≤ fuel + 1) :
    scanBehindBoth depth ts = moreEither (fuel + 1) a ts >>= fun r => scanBehind depth r.2 := by
  by_cases next : ∃ us, ts = .either :: us
  · obtain ⟨us, rfl⟩ := next
    rw [List.length_cons] at enough
    rw [moreEither_cons, bind_assoc, scanBehindBoth, scans.both us depth (by omega)]
    refine Except.bind_congr_ok fun r read => ?_
    obtain ⟨b, rest⟩ := r
    have := length_readBoth read
    exact scans.afterEither (.either a b) rest depth (by omega)
  · have stop : ∀ us, ts ≠ .either :: us := fun us h => next ⟨us, h⟩
    rw [moreEither_stop stop, scanBehindBoth_eq stop]
    rfl

theorem ScansAt.both_succ (enough : 4 * ts.length + 2 ≤ fuel + 1) :
    (Place.mk .due depth).scan ts =
      readBoth (fuel + 1) ts >>= fun r => scanBehindBoth depth r.2 := by
  rw [readBoth, bind_assoc, scans.unary ts depth (by omega)]
  refine Except.bind_congr_ok fun r read => ?_
  obtain ⟨a, rest⟩ := r
  have := length_readUnary read
  exact scans.afterBoth a rest depth (by omega)

theorem ScansAt.afterBoth_succ (enough : 4 * ts.length ≤ fuel + 1) :
    (Place.mk .complete depth).scan ts =
      moreBoth (fuel + 1) a ts >>= fun r => scanBehindBoth depth r.2 := by
  by_cases next : ∃ us, ts = .both :: us
  · obtain ⟨us, rfl⟩ := next
    rw [List.length_cons] at enough
    have sign : (Place.mk .complete depth).scan (.both :: us) = (Place.mk .due depth).scan us :=
      Place.scan_cons_ok rfl us
    rw [moreBoth_cons, bind_assoc, sign, scans.unary us depth (by omega)]
    refine Except.bind_congr_ok fun r read => ?_
    obtain ⟨b, rest⟩ := r
    have := length_readUnary read
    exact scans.afterBoth (.both a b) rest depth (by omega)
  · have stop : ∀ us, ts ≠ .both :: us := fun us h => next ⟨us, h⟩
    rw [moreBoth_stop stop, scan_complete stop]
    rfl

theorem ScansAt.unary_succ (enough : 4 * ts.length + 1 ≤ fuel + 1) :
    (Place.mk .due depth).scan ts =
      readUnary (fuel + 1) ts >>= fun r => (Place.mk .complete depth).scan r.2 := by
  cases ts with
  | nil => rfl
  | cons t us =>
    rw [List.length_cons] at enough
    cases t with
    | negation =>
      have sign : (Place.mk .due depth).scan (.negation :: us) = (Place.mk .due depth).scan us :=
        Place.scan_cons_ok rfl us
      rw [readUnary, bind_assoc, sign, scans.unary us depth (by omega)]
      rfl
    | opening =>
      have sign : (Place.mk .due depth).scan (.opening :: us) =
          (Place.mk .due (depth + 1)).scan us := Place.scan_cons_ok rfl us
      rw [readUnary, bind_assoc, sign, scans.either us (depth + 1) (by omega)]
      refine Except.bind_congr_ok fun r _ => ?_
      obtain ⟨a, rest⟩ := r
      cases rest with
      | nil => rfl
      | cons t rest => cases t <;> rfl
    | literal v =>
      have read := readUnary_operand (.literal v) us fuel
      exact (scan_operand (.literal v) depth us).trans (by rw [← read]; rfl)
    | path p =>
      have read := readUnary_operand (.path p) us fuel
      exact (scan_operand (.path p) depth us).trans (by rw [← read]; rfl)
    | closing | both | either | comparison => rfl

end Step

theorem scansAt (fuel : Nat) : ScansAt fuel := by
  induction fuel with
  | zero =>
    refine ⟨by omega, fun a ts depth enough => ?_, by omega, fun a ts depth enough => ?_, by omega⟩
    all_goals
      obtain rfl : ts = [] := List.length_eq_zero_iff.mp (by omega)
      rfl
  | succ fuel ih =>
    exact ⟨ih.either_succ, ih.afterEither_succ, ih.both_succ, ih.afterBoth_succ, ih.unary_succ⟩

/-- The reader fails exactly where the scan does. -/
theorem scan_start (ts : List Token) : Place.start.scan ts = ofTokens ts >>= fun _ => .ok () := by
  have whole := (scansAt (steps ts)).either ts 0 (by rw [steps]; omega)
  rw [ofTokens, bind_assoc]
  refine whole.trans (Except.bind_congr_ok fun r _ => ?_)
  obtain ⟨e, rest⟩ := r
  cases rest with
  | nil => rfl
  | cons t rest => cases t <;> rfl

theorem scan_start_eq_error_iff {f : Fault} :
    Place.start.scan ts = .error f ↔ ofTokens ts = .error f := by
  rw [scan_start, Except.bind_eq_error_iff]
  exact or_iff_left nofun

/-- Behind a condition and an operator there are the faults of what follows. -/
theorem ofTokens_joined {left : List Token} {op : Token} (joins : op = .either ∨ op = .both)
    (h : ofTokens left = .ok e) (right : List Token) {f : Fault} :
    ofTokens (left ++ op :: right) = .error f ↔ ofTokens right = .error f := by
  have scanned : Place.start.scan left = .ok () := by
    rw [scan_start, h]
    rfl
  have split : left ++ op :: right = (left ++ [op]) ++ right := by simp
  rw [← scan_start_eq_error_iff, split, Place.scan_append (Place.follow_joined joins scanned),
    scan_start_eq_error_iff]

end Reader

end CommandContract.Condition
