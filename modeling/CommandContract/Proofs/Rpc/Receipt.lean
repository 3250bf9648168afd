import CommandContract.Proofs.Json.Printing
import CommandContract.Rpc

set_option autoImplicit false

/-!
# What the digests of a receipt depend on

The digests are taken of compact text, and in compact text members stand in the order in which they
were given. So parameters that are equal as JSON values, which objects are in any order of their
members, have one digested text exactly if they are written in the same order:
`Rpc.receipt_digests`. In general they have two, as `Rpc.receipt_digests_differ` shows.
-/
namespace CommandContract

/-! ## Values in another order -/

mutual

/-- Two values that are equal as JSON values: members stand in any order, at any depth, and a zero
may have either sign. -/
inductive Rearranged : Value → Value → Prop
  | same (v : Value) : Rearranged v v
  | zero {x : Binary64} (zero : x.isZero = true) :
      Rearranged (.number (.float x)) (.number (.float x.neg))
  | array {xs ys : List Value} (items : RearrangedItems xs ys) : Rearranged (.array xs) (.array ys)
  | object {ms ns : List (String × Value)} (members : RearrangedMembers ms ns) :
      Rearranged (.object ms) (.object ns)

inductive RearrangedItems : List Value → List Value → Prop
  | nil : RearrangedItems [] []
  | cons {v w : Value} {xs ys : List Value} (first : Rearranged v w)
      (rest : RearrangedItems xs ys) : RearrangedItems (v :: xs) (w :: ys)

inductive RearrangedMembers : List (String × Value) → List (String × Value) → Prop
  | nil : RearrangedMembers [] []
  | pick {key : String} {v w : Value} {ms before after : List (String × Value)}
      (first : Rearranged v w) (rest : RearrangedMembers ms (before ++ after)) :
      RearrangedMembers ((key, v) :: ms) (before ++ (key, w) :: after)

end

theorem RearrangedMembers.nil_iff {ms ns : List (String × Value)} (h : RearrangedMembers ms ns) :
    ms = [] ↔ ns = [] := by
  cases h with
  | nil => exact Iff.rfl
  | pick first rest => simp

theorem Value.Distinct.tail {m : String × Value} {ms : List (String × Value)}
    (h : Value.Distinct (.object (m :: ms))) : Value.Distinct (.object ms) :=
  .object (List.nodup_cons.mp h.once).2 fun _ hm => h.inside (List.mem_cons_of_mem m hm)

/-! ## Compact text tells the order -/

namespace Json

variable {key key' : String} {v w : Value} {ms ns : List (String × Value)} {rest rest' : List Char}

theorem quoted_append_inj (h : quoted key ++ rest = quoted key' ++ rest') :
    key = key' ∧ rest = rest' := by
  have read : ∀ (s : String) (behind : List Char),
      readString (s.toList.flatMap escapeChar ++ '"' :: behind) = some (s, behind) := by
    intro s behind
    rw [readString_of_quoted (quoted_escape s.toList behind), textOf_single]
  have inner : key.toList.flatMap escapeChar ++ '"' :: rest =
      key'.toList.flatMap escapeChar ++ '"' :: rest' := by
    simpa [quoted] using h
  have both := (read key rest).symm.trans ((congrArg readString inner).trans (read key' rest'))
  exact Prod.mk.inj (Option.some.inj both)

/-- The comma and the members behind the first one, or the brace. -/
def writeBehind : List (String × Value) → List Char
  | [] => ['\x7d']
  | m :: ms => ',' :: writeMembers (m :: ms)

theorem writeMembers_cons (key : String) (v : Value) (ms : List (String × Value)) :
    writeMembers ((key, v) :: ms) = quoted key ++ ':' :: (write v ++ writeBehind ms) := by
  cases ms with
  | nil => rfl
  | cons m ms => exact writeMembers_more key v m ms

theorem text_of_isZero {x : Binary64} (h : x.isZero = true) :
    x.text = (if x.negative then ['-'] else []) ++ ['0', '.', '0'] := by
  have nothing : x.mantissa = 0 := by simpa [Binary64.isZero] using h
  have short : Decimal.shortest .toEven x = ⟨x.negative, 0, 0⟩ := by
    rw [Decimal.shortest, if_pos nothing]
  rw [Binary64.text, short, h, Bool.true_or, if_pos rfl]
  cases x.negative <;> rfl

theorem write_neg_ne {x : Binary64} (h : x.isZero = true) :
    write (.number (.float x)) ++ rest ≠ write (.number (.float x.neg)) ++ rest' := by
  have other : x.neg.isZero = true := h
  rw [write, write, Number.text, Number.text, text_of_isZero h, text_of_isZero other, Binary64.neg]
  cases x.negative <;> simp

mutual

/-- Of two texts of values that are equal as JSON values, neither begins the other. -/
theorem write_append_inj : ∀ {v w : Value}, Rearranged v w → w.Distinct →
    ∀ {rest rest' : List Char}, write v ++ rest = write w ++ rest' → v = w ∧ rest = rest'
  | _, _, .same v, _, _, _, h => ⟨rfl, List.append_cancel_left h⟩
  | _, _, .zero zero, _, _, _, h => absurd h (write_neg_ne zero)
  | .array xs, .array ys, .array items, distinct, _, _, h => by
    have inside : ∀ w ∈ ys, w.Distinct := by
      cases distinct with
      | array inside => exact inside
    have below := (List.cons.inj h).2
    obtain ⟨rfl, behind⟩ := writeItems_append_inj items inside below
    exact ⟨rfl, behind⟩
  | .object ms, .object ns, .object members, distinct, _, _, h => by
    have below := (List.cons.inj h).2
    obtain ⟨rfl, behind⟩ := writeMembers_append_inj members distinct below
    exact ⟨rfl, behind⟩

theorem writeItems_append_inj : ∀ {xs ys : List Value}, RearrangedItems xs ys →
    (∀ w ∈ ys, w.Distinct) → ∀ {rest rest' : List Char},
      writeItems xs ++ rest = writeItems ys ++ rest' → xs = ys ∧ rest = rest'
  | _, _, .nil, _, _, _, h => ⟨rfl, List.append_cancel_left h⟩
  | [v], [w], .cons first .nil, distinct, rest, rest', h => by
    have split : write v ++ (']' :: rest) = write w ++ (']' :: rest') := by
      simpa [writeItems] using h
    obtain ⟨rfl, behind⟩ := write_append_inj first (distinct w List.mem_cons_self) split
    exact ⟨rfl, (List.cons.inj behind).2⟩
  | v :: _ :: _, w :: _ :: _, .cons first (.cons second others), distinct, _, _, h => by
    rw [writeItems_more, writeItems_more, List.append_assoc, List.append_assoc] at h
    obtain ⟨here, there⟩ := List.forall_mem_cons.mp distinct
    obtain ⟨rfl, behind⟩ := write_append_inj first here h
    obtain ⟨same, left⟩ :=
      writeItems_append_inj (.cons second others) there (List.cons.inj behind).2
    exact ⟨congrArg _ same, left⟩

theorem writeMembers_append_inj : ∀ {ms ns : List (String × Value)}, RearrangedMembers ms ns →
    Value.Distinct (.object ns) → ∀ {rest rest' : List Char},
      writeMembers ms ++ rest = writeMembers ns ++ rest' → ms = ns ∧ rest = rest'
  | _, _, .nil, _, _, _, h => ⟨rfl, List.append_cancel_left h⟩
  | _, _, @RearrangedMembers.pick key _ w ms before after first others, distinct, _, _, h => by
    cases before with
    | nil =>
      rw [List.nil_append, writeMembers_cons, writeMembers_cons] at h
      simp only [List.append_assoc, List.cons_append] at h
      obtain ⟨-, colon⟩ := quoted_append_inj h
      obtain ⟨rfl, behind⟩ := write_append_inj first (distinct.inside List.mem_cons_self)
        (List.cons.inj colon).2
      have later : Value.Distinct (.object after) := distinct.tail
      cases ms with
      | nil =>
        obtain rfl : after = [] := others.nil_iff.mp rfl
        exact ⟨rfl, (List.cons.inj behind).2⟩
      | cons m ms =>
        cases after with
        | nil => exact absurd (others.nil_iff.mpr rfl) (List.cons_ne_nil m ms)
        | cons n after =>
          obtain ⟨same, left⟩ := writeMembers_append_inj others later (List.cons.inj behind).2
          exact ⟨congrArg _ same, left⟩
    | cons m before =>
      -- another name is written first
      obtain ⟨other, u⟩ := m
      rw [List.cons_append, writeMembers_cons, writeMembers_cons] at h
      simp only [List.append_assoc, List.cons_append] at h
      obtain ⟨rfl, -⟩ := quoted_append_inj h
      have again : key ∈ Members.keys (before ++ (key, w) :: after) := by
        simp [Members.keys]
      exact absurd again (List.nodup_cons.mp distinct.once).1

end

end Json

theorem Value.compact_eq_iff {v w : Value} (h : Rearranged v w) (distinct : w.Distinct) :
    v.compact = w.compact ↔ v = w := by
  refine ⟨fun same => ?_, congrArg _⟩
  have text : Json.write v ++ [] = Json.write w ++ [] := by
    rw [List.append_nil, List.append_nil]
    exact String.ofList_injective same
  exact (Json.write_append_inj h distinct text).1

/-! ## Receipts -/

namespace Rpc

/-- Two digests are those of the compact texts of two values, and the texts are the same exactly if
the values have their members in the same order and their zeros with the same signs. -/
structure Digested (v w : Value) (digest other : String) : Prop where
  digest : digest = Sha256.ofText v.compact
  other : other = Sha256.ofText w.compact
  text : v.compact = w.compact ↔ v = w

theorem receipt_digests {q r : Request} (params : Rearranged q.params r.params)
    (distinct : r.params.Distinct) (e e' : Engine) (stamp stamp' : Stamp) (s s' : Session) :
    Digested q.params r.params (handle e stamp s q).2.receipt.inputsHash
        (handle e' stamp' s' r).2.receipt.inputsHash ∧
      (∀ v w, (handle e stamp s q).2.result = .ok v → (handle e' stamp' s' r).2.result = .ok w →
        Rearranged v w → w.Distinct →
          Digested v w (handle e stamp s q).2.receipt.outputsHash
            (handle e' stamp' s' r).2.receipt.outputsHash) ∧
      (∀ fault fault', (handle e stamp s q).2.result = .error fault →
        (handle e' stamp' s' r).2.result = .error fault' →
          (handle e stamp s q).2.receipt.outputsHash =
            (handle e' stamp' s' r).2.receipt.outputsHash) := by
  have outputs : ∀ (e : Engine) (stamp : Stamp) (s : Session) (r : Request),
      (handle e stamp s r).2.receipt.outputsHash = outputsHash (handle e stamp s r).2.result :=
    fun _ _ _ _ => rfl
  refine ⟨⟨rfl, rfl, Value.compact_eq_iff params distinct⟩, ?_, ?_⟩
  · intro v w first second rearranged once
    have text := Value.compact_eq_iff rearranged once
    rw [outputs, outputs, first, second]
    exact ⟨rfl, rfl, text⟩
  · intro fault fault' first second
    rw [outputs, outputs, first, second]
    rfl

/-- Members in one order, and in the other. -/
def forth : Members Value := [("a", .int 1), ("b", .array [.object []])]

def back : Members Value := [("b", .array [.object []]), ("a", .int 1)]

theorem rearranged_back : Rearranged (.object forth) (.object back) := by
  have last : RearrangedMembers [("b", .array [.object []])] ([("b", .array [.object []])] ++ []) :=
    @RearrangedMembers.pick "b" _ _ [] [] [] (.same _) .nil
  exact .object (@RearrangedMembers.pick "a" _ _ _ [("b", .array [.object []])] [] (.same _) last)

theorem distinct_back : Value.Distinct (.object back) := by decide

def idle : Engine := Engine.build (Manifest.empty "table") Config.default [] false

def inquiry (ms : Members Value) : Request := ⟨"state", .object ms, "1"⟩

/-- The answer where the state has the members of the parameters, in their order. -/
def asked (ms : Members Value) : Response :=
  (handle idle ⟨"", fun _ => ""⟩ ⟨⟨[], []⟩, ⟨ms⟩⟩ (inquiry ms)).2

theorem receipt_digests_back :
    Rearranged (inquiry forth).params (inquiry back).params ∧ (inquiry back).params.Distinct ∧
      Digested (.object forth) (.object back) (asked forth).receipt.inputsHash
        (asked back).receipt.inputsHash ∧
      Digested (.object forth) (.object back) (asked forth).receipt.outputsHash
        (asked back).receipt.outputsHash := by
  obtain ⟨inputs, outputs, -⟩ := receipt_digests (q := inquiry forth) (r := inquiry back)
    rearranged_back distinct_back idle idle ⟨"", fun _ => ""⟩ ⟨"", fun _ => ""⟩
    ⟨⟨[], []⟩, ⟨forth⟩⟩ ⟨⟨[], []⟩, ⟨back⟩⟩
  exact ⟨rearranged_back, distinct_back, inputs,
    outputs _ _ rfl rfl rearranged_back distinct_back⟩

/-- Parameters that are equal as JSON values, and results that are, with different digests. -/
theorem receipt_digests_differ :
    (inquiry forth).op = (inquiry back).op ∧
      Rearranged (inquiry forth).params (inquiry back).params ∧
      (inquiry forth).params.compact ≠ (inquiry back).params.compact ∧
      (asked forth).receipt.inputsHash ≠ (asked back).receipt.inputsHash ∧
      (asked forth).receipt.outputsHash ≠ (asked back).receipt.outputsHash :=
  ⟨rfl, rearranged_back, by decide +kernel, by decide +kernel, by decide +kernel⟩

end Rpc

end CommandContract
