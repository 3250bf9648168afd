import CommandContract.Proofs.Chain.Context
import CommandContract.Proofs.Template.HandOver
import CommandContract.Proofs.Validation.Prepared

set_option autoImplicit false

/-!
# Values that are handed on

A rule hands an argument of its command on if it has a hole for it. Where all rules do so for one
name, a value that templates do not change reaches every command of a run, however long the run is:
`Chain.visits_receive`.
-/
namespace CommandContract

namespace Template

/-- A hole for a path, with the filter `json` or without any. -/
inductive Hands (path : String) : String → Prop
  | json (usable : Usable path) : Hands path (jsonHole path)
  | plain (usable : Usable path) (last : path.toList.getLast? ≠ some '\x7d') :
      Hands path (plainHole path)

theorem Hands.renderToValue {context v : Value} {path hole : String} (h : Hands path hole)
    (found : context.lookup? path = some v) (encodable : v.Encodable) (shallow : v.depth ≤ 127)
    (stays : v ≠ .null ∧ ∀ s, v = .string s → Value.ofJson? s = none) :
    Template.renderToValue hole context = .ok v := by
  cases h with
  | json usable => exact (Found.mk usable found encodable).json_iff.mpr shallow
  | plain usable last =>
    rw [(Found.mk usable found encodable).plain shallow last, Value.handed_eq_self_iff.mpr stays]

end Template

namespace Validation

variable {params : Parameters} {args : Members Value} {key name : String} {w : Value}

theorem sameLetters_of_declared? (h : declared? params key = some name) :
    Text.sameLetters name key = true := by
  obtain ⟨⟨_, p⟩, found, rfl⟩ := Option.map_eq_some_iff.mp h
  unfold Parameters.find? at found
  split at found
  · cases found
    exact Text.sameLetters_self key
  · have letters := List.find?_some found
    exact letters

/-- What was given for a name that no other key stands for. -/
theorem given?_of_alone (declared : name ∈ Members.keys params) (once : (Members.keys args).Nodup)
    (alone : ∀ key ∈ Members.keys args, Text.sameLetters name key = true → key = name) :
    given? params args name = Members.get? name args := by
  obtain ⟨p, itself⟩ := Parameters.find?_of_mem_keys declared
  have only : ∀ pairs : Members Value,
      (∀ key ∈ Members.keys pairs, Text.sameLetters name key = true → key = name) →
      (pairs.find? fun pair => declared? params pair.1 = some name).map (·.2) =
        Members.get? name pairs := by
    intro pairs alone
    induction pairs with
    | nil => rfl
    | cons pair pairs ih =>
      obtain ⟨key, v⟩ := pair
      rw [Members.keys_cons, List.forall_mem_cons] at alone
      by_cases hk : key = name
      · subst hk
        simp [declared?, itself, Members.get?]
      · have other : declared? params key ≠ some name := fun h =>
          hk (alone.1 (sameLetters_of_declared? h))
        simpa [other, hk, Members.get?] using ih alone.2
  have backwards : ∀ key ∈ Members.keys args.reverse, Text.sameLetters name key = true →
      key = name := by
    intro key hk
    refine alone key ?_
    rwa [Members.keys, List.map_reverse, List.mem_reverse] at hk
  have last : given? params args name = Members.last? name args := only args.reverse backwards
  rw [last, ← Members.get?_ofPairs, Members.ofPairs_of_nodup once]

end Validation

namespace Chain

/-! ## One rule -/

/-- The arguments of a command stand under `input`. -/
theorem lookup?_input {name : String} (plain : '.' ∉ name.toList)
    (tail : ∀ c ∈ name.toList.getLast?, Text.isBlank c = false) (first before own : ChainLink) :
    (context first before own).lookup? ("input." ++ name) = Members.get? name own.args := by
  have path : ("input." ++ name).toList = "input".toList ++ '.' :: name.toList := by
    rw [String.toList_append]
    rfl
  have tight : Text.Tight ("input".toList ++ '.' :: name.toList) := by
    refine ⟨by simp, ?_, ?_⟩
    · intro c hc
      cases hc
      decide
    · intro c hc
      rw [List.getLast?_append_of_ne_nil _ (List.cons_ne_nil _ _), List.getLast?_cons] at hc
      cases hl : name.toList.getLast? with
      | none =>
        rw [hl] at hc
        cases hc
        decide
      | some d =>
        rw [hl] at hc
        cases hc
        exact tail d hl
  rw [Value.lookup?, path, Text.trim_of_tight tight]
  have input : (context first before own).step? "input".toList = some (.object own.args) := rfl
  rw [Text.splitOn_append_cons (by decide), Text.splitOn_of_not_mem plain]
  change ((context first before own).step? "input".toList).bind (·.walk? [name.toList]) = _
  rw [input]
  change (Members.get? (String.ofList name.toList) own.args).bind some = _
  rw [String.ofList_toList, Option.bind_fun_some]

/-- A call has the arguments of its rule, each of them rendered. -/
theorem callOf_arguments {m : Manifest} {c : CommandSpec} {seen : Value} {target : String}
    {rule : NextRule} {call : Call} (called : callOf m c seen target rule = .ok call)
    (once : (Members.keys rule.arguments).Nodup) :
    Members.keys call.args = Members.keys rule.arguments ∧
      ∀ key v, Members.get? key rule.arguments = some v →
        ∃ w, Template.renderValue seen v = .ok w ∧ Members.get? key call.args = some w := by
  unfold callOf at called
  split at called
  · cases called
  · split at called
    · rename_i args made
      cases called
      obtain ⟨keys, values⟩ := Template.renderMembers_eq_ok made
      rw [Members.ofPairs_of_nodup (keys ▸ once)]
      exact ⟨keys, values⟩
    · cases called

/-- No hole changes the value. -/
def Steady (w : Value) : Prop :=
  ∀ context path hole, Template.Hands path hole → context.lookup? path = some w →
    Template.renderToValue hole context = .ok w

theorem get?_callOf {m : Manifest} {c : CommandSpec} {seen w : Value} {target : String}
    {rule : NextRule} {call : Call} {key path hole : String} (steady : Steady w)
    (called : callOf m c seen target rule = .ok call)
    (once : (Members.keys rule.arguments).Nodup)
    (given : Members.get? key rule.arguments = some (.string hole))
    (hands : Template.Hands path hole) (found : seen.lookup? path = some w) :
    Members.get? key call.args = some w := by
  obtain ⟨u, rendered, placed⟩ := (callOf_arguments called once).2 key _ given
  rw [placed, Except.ok.inj (rendered.symm.trans (steady _ _ _ hands found))]

/-- A rule that hands an argument of its command on, under the same name and no other. -/
structure Passes (name : String) (rule : NextRule) : Prop where
  once : (Members.keys rule.arguments).Nodup
  alone : ∀ key ∈ Members.keys rule.arguments, Text.sameLetters name key = true → key = name
  hole : ∃ hole, Members.get? name rule.arguments = some (.string hole) ∧
    Template.Hands ("input." ++ name) hole

theorem firstRule_called {m : Manifest} {c : CommandSpec} {seen : Value} {call : Call}
    {rules : List (String × NextRule)} (h : firstRule m c seen rules = .ok (some call)) :
    ∃ rule ∈ rules, callOf m c seen rule.1 rule.2 = .ok call := by
  induction rules with
  | nil => cases h
  | cons rule rules ih =>
    rw [firstRule] at h
    split at h
    · cases h
    · obtain ⟨later, mem, called⟩ := ih h
      exact ⟨later, List.mem_cons_of_mem rule mem, called⟩
    · obtain ⟨found, called, same⟩ := Except.map_eq_ok_iff.mp h
      cases same
      exact ⟨rule, List.mem_cons_self, called⟩

/-! ## A whole run -/

/-- Every rule of every command hands the argument on, and every command declares it. -/
structure HandsOn (m : Manifest) (name : String) : Prop where
  /-- the name is one segment of a path -/
  plain : '.' ∉ name.toList
  tail : ∀ c ∈ name.toList.getLast?, Text.isBlank c = false
  declared : ∀ target c, m.get? target = some c → name ∈ Members.keys c.parameters
  rules : ∀ target c, m.get? target = some c → ∀ rule ∈ c.next.getD [], Passes name rule.2

/-- A call that gives the value to a parameter of its command. -/
def Gives (m : Manifest) (name : String) (w : Value) (call : Call) : Prop :=
  ∀ c, m.get? call.name = some c → Validation.given? c.parameters call.args name = some w

/-- A command that is called with the value runs with it. -/
def Arrives (e : Engine) (name : String) (w : Value) (v : Visit) : Prop :=
  Gives e.manifest name w v.call →
    ∀ c args, v.prepared? e = some (c, args) → Members.get? name args = some w

variable {e : Engine} {stamp : Stamp} {n : Nat} {p : Progress} {call : Call} {name : String}
  {w : Value}

/-- What one command that ran with the value calls, it calls with the value. -/
theorem gives_of_next {d : Completion} {following : Call} (onward : HandsOn e.manifest name)
    (steady : Steady w) (found : e.manifest.get? call.name = some d.spec)
    (held : Members.get? name d.link.args = some w)
    (rule : next e.manifest d.spec (d.context p) = .ok (some following)) :
    Gives e.manifest name w following := by
  obtain ⟨⟨target, r⟩, mem, called⟩ := firstRule_called rule
  obtain ⟨once, alone, hole, given, hands⟩ := onward.rules _ _ found _ mem
  have seen : (d.context p).lookup? ("input." ++ name) = some w := by
    rw [Completion.context, lookup?_input onward.plain onward.tail, held]
  have keys := (callOf_arguments called once).1
  intro c hc
  rw [Validation.given?_of_alone (onward.declared _ _ hc) (keys ▸ once) (keys ▸ alone)]
  exact get?_callOf steady called once given hands seen

/-- A value that is given to the first command reaches every command of the run. -/
theorem visits_receive (onward : HandsOn e.manifest name) (steady : Steady w)
    (arrives : ∀ v ∈ visitsFrom e stamp n p call, Arrives e name w v)
    (first : Gives e.manifest name w call) :
    ∀ v ∈ visitsFrom e stamp n p call, Gives e.manifest name w v.call := by
  induction n generalizing p call with
  | zero => exact fun v hv => absurd hv List.not_mem_nil
  | succ n ih =>
    rw [visitsFrom, List.forall_mem_cons] at arrives ⊢
    refine ⟨first, ?_⟩
    have taken := step_stepped e stamp p call
    generalize step e stamp p call = after at taken arrives
    obtain ⟨q, s⟩ := after
    cases taken with
    | stopped | faulty | last => exact fun v hv => absurd hv List.not_mem_nil
    | further wholly completed rule =>
      have held := arrives.1 first _ _ (prepared?_of_completion? wholly)
      exact ih arrives.2 (gives_of_next onward steady completed.found held rule)

end Chain

end CommandContract
