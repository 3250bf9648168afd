import CommandContract.Engine.Basic
import CommandContract.Proofs.Chain.Path
import CommandContract.Proofs.Manifest.Merge
import CommandContract.Proofs.Text.Pieces

set_option autoImplicit false

/-!
# Which handler answers

A registry is written in three stages: by the host, by the built-in handlers and by the programs.
The later stages write only names that are still free, so what a name resolves to can be said without
the stages: `Engine.build_resolves`. A binding of the host is never replaced, and without the consent
of the configuration no program is bound.
-/
namespace CommandContract

open RawManifest (qualified)

/-! ## The registry -/

namespace Registry

variable {name other : String}

theorem get?_bind_of_ne (different : other ≠ name) (r : Registry) (h : Handler) :
    (r.bind name h).get? other = r.get? other := by
  obtain ⟨bindings⟩ := r
  simp only [bind, get?]
  induction bindings with
  | nil => simp [insert, Members.get?, Ne.symm different]
  | cons b rest ih =>
    obtain ⟨k, g⟩ := b
    rw [insert]
    split
    · rename_i same
      simp [Members.get?, ← same, Ne.symm different]
    · split
      · simp [Members.get?, Ne.symm different]
      · simp only [Members.get?, ih]

theorem get?_bind (r : Registry) (h : Handler) :
    (r.bind name h).get? other = if other = name then some h else r.get? other := by
  split
  · rename_i same
    rw [same, get?_bind_self]
  · rename_i different
    exact get?_bind_of_ne different r h

/-- What is bound stays, and a free name gets what the rule gives for the first of its commands for
which it gives anything. -/
theorem get?_bindFree (rule : CommandSpec → Option Handler) (commands : List CommandSpec)
    (r : Registry) : (bindFree rule commands r).get? name =
      (r.get? name).or (commands.findSome? fun c => if c.name = name then rule c else none) := by
  induction commands generalizing r with
  | nil => simp [bindFree]
  | cons c commands ih =>
    rw [bindFree, List.foldl_cons, ← bindFree, ih, List.findSome?_cons]
    split
    · rename_i bound
      obtain ⟨h, found⟩ := Option.isSome_iff_exists.mp bound
      by_cases own : c.name = name
      · rw [← own, found, Option.some_or, Option.some_or]
      · rw [if_neg own]
    · rename_i free
      have none : r.get? c.name = none := Option.not_isSome_iff_eq_none.mp free
      split
      · rename_i h given
        by_cases own : c.name = name
        · rw [← own, get?_bind_self, none, if_pos rfl, given, Option.some_or, Option.none_or]
        · rw [get?_bind_of_ne (Ne.symm own), if_neg own]
      · rename_i nothing
        rw [nothing, ite_self]

end Registry

/-! ## Names in a manifest -/

/-- A command stands under its name and no other one does. -/
theorem Manifest.Keyed.findSome?_commands {α : Type} {m : Manifest} (keyed : m.Keyed)
    (once : (Members.keys m.commands).Nodup) (name : String) (rule : CommandSpec → Option α) :
    ((m.commands.map (·.2)).findSome? fun c => if c.name = name then rule c else none) =
      (m.get? name).bind rule := by
  have own : ∀ k c, (k, c) ∈ m.commands → c.name = k := fun k c member =>
    keyed k c ((Members.get?_eq_some_iff once).mpr member)
  rw [Manifest.get?]
  generalize m.commands = commands at own once
  induction commands with
  | nil => rfl
  | cons head commands ih =>
    obtain ⟨k, c⟩ := head
    rw [Members.keys_cons, List.nodup_cons] at once
    have others := ih (fun k c member => own k c (List.mem_cons_of_mem _ member)) once.2
    have key : c.name = k := own k c List.mem_cons_self
    rw [List.map_cons, List.findSome?_cons, others, key, Members.get?]
    by_cases same : k = name
    · have absent := (Members.get?_eq_none_iff name commands).mpr (same ▸ once.1)
      rw [if_pos same, if_pos same, absent, Option.bind_some]
      cases rule c <;> rfl
    · rw [if_neg same, if_neg same]

/-- What stands behind the last slash of a name, or all of a name without a slash. -/
inductive LastSegment (name segment : String) : Prop
  | whole (same : name = segment)
  | within (nspace : String) (inside : name = qualified nspace segment)

theorem CommandSpec.lastSegment_eq_iff {c : CommandSpec} {segment : String}
    (plain : '/' ∉ segment.toList) : c.lastSegment = segment ↔ LastSegment c.name segment := by
  have plain' : '/' ∉ segment.toList.reverse := by rwa [List.mem_reverse]
  constructor
  · intro h
    unfold lastSegment cutName? at h
    by_cases slash : '/' ∈ c.name.toList.reverse
    · obtain ⟨last, before, split, none⟩ := List.eq_append_cons_of_mem slash
      rw [split, Text.cutAt?_append_cons none] at h
      have back : c.name.toList = before.reverse ++ '/' :: last.reverse := by
        rw [← List.reverse_reverse c.name.toList, split]
        simp
      refine .within (String.ofList before.reverse) ?_
      rw [← String.toList_inj, back, ← h]
      simp [qualified]
    · rw [Text.cutAt?_of_not_mem slash] at h
      exact .whole h
  · rintro (same | ⟨nspace, inside⟩)
    · have reversed : '/' ∉ c.name.toList.reverse := by rwa [same]
      rw [lastSegment, cutName?, Text.cutAt?_of_not_mem reversed]
      exact same
    · have split : c.name.toList.reverse = segment.toList.reverse ++ '/' :: nspace.toList.reverse := by
        simp [inside, qualified]
      rw [lastSegment, cutName?, split, Text.cutAt?_append_cons plain']
      simp

theorem Builtin.ofSpec?_eq_some_iff {c : CommandSpec} {b : Builtin} :
    Builtin.ofSpec? c = some b ↔ c.kind = .internal ∧ LastSegment c.name b.name := by
  have plain : '/' ∉ b.name.toList := by cases b <;> decide
  have chosen : all.find? (·.name = c.lastSegment) = some b ↔ c.lastSegment = b.name := by
    constructor
    · intro h
      simpa [eq_comm] using List.find?_some h
    · intro h
      rw [h]
      cases b <;> decide
  rw [← CommandSpec.lastSegment_eq_iff plain, ← chosen, Builtin.ofSpec?]
  split <;> simp_all

theorem Program.ofSpec?_eq_some_iff {root : String} {c : CommandSpec} {p : Program} :
    Program.ofSpec? root c = some p ↔
      c.kind = .externalMethod ∧ ∃ path, c.resolvedPath = some path ∧ p = ⟨path, c.methodName, root⟩ := by
  rw [Program.ofSpec?]
  split
  · rename_i kind
    rw [Option.map_eq_some_iff]
    exact ⟨fun ⟨path, resolved, made⟩ => ⟨kind, path, resolved, made.symm⟩,
      fun ⟨_, path, resolved, made⟩ => ⟨path, resolved, made.symm⟩⟩
  · rename_i other
    exact ⟨nofun, fun h => absurd h.1 other⟩

/-! ## The engine -/

namespace Engine

variable {m : Manifest} {config : Config} {hosts : List (String × (Invocation → Except String Value))}
  {builtins : Bool} {name : String}

theorem get?_hostRegistry : (hostRegistry hosts).get? name =
    (Members.last? name hosts).map Handler.host := by
  induction hosts using List.reverseRecOn with
  | nil => rfl
  | append_singleton hosts pair ih =>
    obtain ⟨k, answer⟩ := pair
    have step : hostRegistry (hosts ++ [(k, answer)]) = (hostRegistry hosts).bind k (.host answer) :=
      List.foldl_append
    rw [step, Registry.get?_bind, ih, Members.last?_append_singleton]
    by_cases same : k = name
    · rw [if_pos same.symm, if_pos same, Option.map_some]
    · rw [if_neg (Ne.symm same), if_neg same]

/-- The handler that a name has: the last one that the host bound to it; else the built-in one of an
internal command; else the program of an external command. -/
inductive Resolves (m : Manifest) (config : Config)
    (hosts : List (String × (Invocation → Except String Value))) (builtins : Bool) (name : String) :
    Handler → Prop
  | host {before after : List (String × (Invocation → Except String Value))}
      {answer : Invocation → Except String Value} (bound : hosts = before ++ (name, answer) :: after)
      (last : name ∉ Members.keys after) : Resolves m config hosts builtins name (.host answer)
  | builtin {c : CommandSpec} {b : Builtin} (free : name ∉ Members.keys hosts) (on : builtins = true)
      (known : m.get? name = some c) (kind : c.kind = .internal) (segment : LastSegment name b.name) :
      Resolves m config hosts builtins name (.builtin b)
  | program {c : CommandSpec} {path : String} (free : name ∉ Members.keys hosts)
      (allowed : config.engine.allowExternal = true) (known : m.get? name = some c)
      (kind : c.kind = .externalMethod) (resolved : c.resolvedPath = some path) :
      Resolves m config hosts builtins name (.program ⟨path, c.methodName, m.root⟩)

theorem get?_build (once : (Members.keys m.commands).Nodup) (keyed : m.Keyed) :
    (build m config hosts builtins).registry.get? name =
      ((Members.last? name hosts).map Handler.host).or
        ((if builtins then (m.get? name).bind builtinRule else none).or
          (if config.engine.allowExternal then (m.get? name).bind (programRule m) else none)) := by
  have stage : ∀ (rule : CommandSpec → Option Handler) (on : Bool) (r : Registry),
      (if on then r.bindFree rule (m.commands.map (·.2)) else r).get? name =
        (r.get? name).or (if on then (m.get? name).bind rule else none) := by
    intro rule on r
    cases on with
    | false => simp
    | true =>
      rw [if_pos rfl, if_pos rfl, Registry.get?_bindFree, keyed.findSome?_commands once]
  rw [build, stage, stage, get?_hostRegistry, Option.or_assoc]

theorem builtinRule_eq_some_iff {c : CommandSpec} {h : Handler} :
    builtinRule c = some h ↔
      ∃ b : Builtin, h = .builtin b ∧ c.kind = .internal ∧ LastSegment c.name b.name := by
  rw [builtinRule, Option.map_eq_some_iff]
  simp only [Builtin.ofSpec?_eq_some_iff]
  exact exists_congr fun b => ⟨fun ⟨own, made⟩ => ⟨made.symm, own⟩, fun ⟨made, own⟩ => ⟨own, made.symm⟩⟩

theorem programRule_eq_some_iff {c : CommandSpec} {h : Handler} :
    programRule m c = some h ↔
      ∃ path, h = .program ⟨path, c.methodName, m.root⟩ ∧ c.kind = .externalMethod ∧
        c.resolvedPath = some path := by
  rw [programRule, Option.map_eq_some_iff]
  simp only [Program.ofSpec?_eq_some_iff]
  constructor
  · rintro ⟨_, ⟨kind, path, resolved, rfl⟩, rfl⟩
    exact ⟨path, rfl, kind, resolved⟩
  · rintro ⟨path, rfl, kind, resolved⟩
    exact ⟨_, ⟨kind, path, resolved, rfl⟩, rfl⟩

theorem resolves_of_get?_build (once : (Members.keys m.commands).Nodup) (keyed : m.Keyed)
    {h : Handler} (found : (build m config hosts builtins).registry.get? name = some h) :
    Resolves m config hosts builtins name h := by
  rw [get?_build once keyed] at found
  obtain bound | ⟨unbound, found⟩ := Option.or_eq_some_iff.mp found
  · obtain ⟨answer, last, rfl⟩ := Option.map_eq_some_iff.mp bound
    obtain ⟨before, after, split, behind⟩ := Members.last?_eq_some_iff.mp last
    exact .host split behind
  · have free := Members.last?_eq_none_iff.mp (Option.map_eq_none_iff.mp unbound)
    obtain own | ⟨-, outside⟩ := Option.or_eq_some_iff.mp found
    · obtain ⟨on, own⟩ := Option.ite_none_right_eq_some.mp own
      obtain ⟨c, known, rule⟩ := Option.bind_eq_some_iff.mp own
      obtain ⟨b, rfl, kind, segment⟩ := builtinRule_eq_some_iff.mp rule
      rw [keyed name c known] at segment
      exact .builtin free on known kind segment
    · obtain ⟨allowed, outside⟩ := Option.ite_none_right_eq_some.mp outside
      obtain ⟨c, known, rule⟩ := Option.bind_eq_some_iff.mp outside
      obtain ⟨path, rfl, kind, resolved⟩ := programRule_eq_some_iff.mp rule
      exact .program free allowed known kind resolved

theorem Resolves.get?_build (once : (Members.keys m.commands).Nodup) (keyed : m.Keyed)
    {h : Handler} (resolves : Resolves m config hosts builtins name h) :
    (build m config hosts builtins).registry.get? name = some h := by
  have unbound : name ∉ Members.keys hosts →
      (Members.last? name hosts).map Handler.host = none := fun free =>
    Option.map_eq_none_iff.mpr (Members.last?_eq_none_iff.mpr free)
  rw [Engine.get?_build once keyed]
  cases resolves with
  | @host before after answer bound last =>
    rw [bound, Members.last?_append_cons last before answer]
    rfl
  | @builtin c b free on known kind segment =>
    rw [← keyed name c known] at segment
    have rule : builtinRule c = some (.builtin b) :=
      builtinRule_eq_some_iff.mpr ⟨b, rfl, kind, segment⟩
    rw [unbound free, if_pos on, known, Option.bind_some, rule]
    rfl
  | @program c path free allowed known kind resolved =>
    have rule : programRule m c = some (.program ⟨path, c.methodName, m.root⟩) :=
      programRule_eq_some_iff.mpr ⟨path, rfl, kind, resolved⟩
    have external : builtinRule c = none := by
      refine Option.eq_none_iff_forall_ne_some.mpr fun h own => ?_
      obtain ⟨b, -, internal, -⟩ := builtinRule_eq_some_iff.mp own
      rw [kind] at internal
      cases internal
    rw [unbound free, if_pos allowed, known, Option.bind_some, Option.bind_some, rule, external,
      ite_self]
    rfl

/-- What a built engine resolves a name to, and nothing else. The handler that the host bound last to
a name is there, whatever the manifest says of it, and a program is there only by consent. -/
theorem build_resolves (once : (Members.keys m.commands).Nodup) (keyed : m.Keyed) (config : Config)
    (hosts : List (String × (Invocation → Except String Value))) (builtins : Bool) (name : String) :
    (∀ h, (build m config hosts builtins).registry.get? name = some h ↔
      Resolves m config hosts builtins name h) ∧
    (∀ before answer after, hosts = before ++ (name, answer) :: after → name ∉ Members.keys after →
      (build m config hosts builtins).registry.get? name = some (.host answer)) ∧
    (∀ p, (build m config hosts builtins).registry.get? name = some (.program p) →
      config.engine.allowExternal = true) := by
  refine ⟨fun h => ⟨resolves_of_get?_build once keyed, fun resolves => ?_⟩,
    fun before answer after bound last => ?_, fun p found => ?_⟩
  · exact resolves.get?_build once keyed
  · exact (Resolves.host bound last).get?_build once keyed
  · cases resolves_of_get?_build once keyed found with
    | program _ allowed => exact allowed

def press : CommandSpec :=
  { CommandSpec.ofName "press" with
    kind := .externalMethod, methodName := some "run", resolvedPath := some "/shop/press.sh" }

/-- A press outside, and two commands with built-in handlers, one of them in a namespace. -/
def printShop : Manifest :=
  ((Manifest.empty "shop").withCommand press
    |>.withCommand { CommandSpec.ofName "core/help" with kind := .internal })
    |>.withCommand { CommandSpec.ofName "echo" with kind := .internal }

/-- The host binds one name twice. -/
def printers : List (String × (Invocation → Except String Value)) :=
  [("echo", fun _ => .error "paper jam"), ("echo", fun i => .ok (.object i.args))]

def trusting : Config := { Config.default with engine := ⟨16, true, none⟩ }

theorem build_resolves_printShop : (Members.keys printShop.commands).Nodup ∧ printShop.Keyed ∧
    (build printShop trusting printers true).registry.get? "echo" =
      some (.host fun i => .ok (.object i.args)) ∧
    (build printShop trusting printers true).registry.get? "core/help" = some (.builtin .help) ∧
    (build printShop trusting printers true).registry.get? "press" =
      some (.program ⟨"/shop/press.sh", some "run", ""⟩) ∧
    ∀ p, (build printShop Config.default printers true).registry.get? "press" ≠
      some (.program p) := by
  have once : (Members.keys printShop.commands).Nodup := by decide
  have keyed : printShop.Keyed :=
    (((Manifest.keyed_empty _).withCommand _).withCommand _).withCommand _
  have law := build_resolves once keyed
  refine ⟨once, keyed, ?_, ?_, ?_, fun p found => ?_⟩
  · exact (law trusting printers true "echo").2.1 [_] _ [] rfl List.not_mem_nil
  · have free : "core/help" ∉ Members.keys printers := by decide
    have inside : LastSegment "core/help" Builtin.help.name := .within "core" rfl
    exact ((law trusting printers true "core/help").1 _).mpr (.builtin free rfl rfl rfl inside)
  · have free : "press" ∉ Members.keys printers := by decide
    have resolves : Resolves printShop trusting printers true "press"
        (.program ⟨"/shop/press.sh", press.methodName, printShop.root⟩) :=
      .program free rfl rfl rfl rfl
    exact ((law trusting printers true "press").1 _).mpr resolves
  · cases (law Config.default printers true "press").2.2 p found

end Engine

end CommandContract
