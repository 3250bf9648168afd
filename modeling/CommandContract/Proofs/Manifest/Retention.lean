import CommandContract.Proofs.Command.Codec
import CommandContract.Proofs.Manifest.Composition

set_option autoImplicit false

/-!
# What is left of the unknown members of merged descriptors

A merge has all members that are offered to an object which it has: `Value.merge_offered`. So a
command that is read of a merge is written with the unknown members of both sides, at the command
and at each parameter, but for a `null` that came into an object: `CommandSpec.descriptor_kept`.
-/
namespace CommandContract

open Fields (KeepsUnknown)

variable {p : Precedence} {base incoming v w : Value} {key : String} {path : List String}

/-! ## Merging -/

namespace Value

theorem at?_cons_of_ne_nil (ne : path ≠ []) (key : String) (v : Value) :
    v.at? (key :: path) = (v.part key).at? path := by
  obtain ⟨k, path, rfl⟩ := List.exists_cons_of_ne_nil ne
  rw [at?, part]
  cases v.member? key <;> rfl

theorem at?_append (way : List String) (path : List String) (v : Value) :
    v.at? (way ++ path) = (v.at? way).bind (at? path) := by
  induction way generalizing v with
  | nil => rfl
  | cons key way ih =>
    rw [List.cons_append, at?, at?, Option.bind_assoc]
    exact Option.bind_congr fun w _ => ih w

/-- One of two values that are merged has a member at a place. A `null` that comes in counts only if
there is no object for it to come into. -/
def Offers (base incoming : Value) (path : List String) (key : String) : Prop :=
  (∃ v, base.at? (path ++ [key]) = some v) ∨
    ∃ v, incoming.at? (path ++ [key]) = some v ∧ (v ≠ null ∨ ∀ ms, ¬ base.HasObject path ms)

theorem eq_object_of_at? (ne : path ≠ []) (h : v.at? path = some w) : ∃ ms, v = object ms := by
  obtain ⟨k, path, rfl⟩ := List.exists_cons_of_ne_nil ne
  cases v with
  | object ms => exact ⟨ms, rfl⟩
  | _ => cases h

/-- Whoever offers a member offers the object that it stands in. -/
theorem Offers.above {below : String} (h : Offers base incoming (path ++ [key]) below) :
    Offers base incoming path key := by
  rcases h with ⟨v, hv⟩ | ⟨v, hv, -⟩
  · rw [at?_append] at hv
    obtain ⟨w, hw, -⟩ := Option.bind_eq_some_iff.mp hv
    exact .inl ⟨w, hw⟩
  · rw [at?_append] at hv
    obtain ⟨w, hw, inside⟩ := Option.bind_eq_some_iff.mp hv
    obtain ⟨ms, rfl⟩ := eq_object_of_at? (List.cons_ne_nil below []) inside
    exact .inr ⟨object ms, hw, .inl (by intro he; cases he)⟩

theorem mem_keys_of_at? {ms : Members Value} (reached : v.HasObject path ms)
    (h : v.at? (path ++ [key]) = some w) : key ∈ Members.keys ms := by
  rw [at?_append, reached, Option.bind_some, at?, member?] at h
  obtain ⟨u, hu, -⟩ := Option.bind_eq_some_iff.mp h
  exact List.mem_map_of_mem (Members.mem_of_get? hu)

/-- What is offered by a value that is not taken is offered by an object, and of two values in
conflict one is no object. -/
theorem mem_keys_of_conflict {kept other : Value} (one : kept.isLeaf = true ∨ other.isLeaf = true)
    {ms : Members Value} (reached : kept.HasObject path ms)
    (offers : (∃ v, kept.at? (path ++ [key]) = some v) ∨ ∃ v, other.at? (path ++ [key]) = some v) :
    key ∈ Members.keys ms := by
  rcases offers with ⟨v, hv⟩ | ⟨v, hv⟩
  · exact mem_keys_of_at? reached hv
  · obtain ⟨_, rfl⟩ := eq_object_of_at? (by simp) hv
    rcases one with leaf | leaf
    · exact absurd reached (not_hasObject_of_isLeaf leaf)
    · cases leaf

/-- The members that are offered at the top are those that stand there and those that are new. -/
theorem Offers.top {existing ns : Members Value}
    (offers : Offers (object existing) (object ns) [] key) :
    key ∈ Members.keys existing ∨ key ∈ Members.keys (newMembers existing ns) := by
  by_cases present : key ∈ Members.keys existing
  · exact .inl present
  have top : (object existing).HasObject [] existing := rfl
  rcases offers with ⟨v, hv⟩ | ⟨v, hv, solid⟩
  · exact absurd (mem_keys_of_at? top hv) present
  · have hn : v ≠ null := solid.resolve_right fun nothing => nothing existing top
    have solid : v.isNull = false := by
      rw [← Bool.not_eq_true, isNull_eq_true_iff]
      exact hn
    have given : Members.get? key ns = some v := by simpa [at?, member?] using hv
    have new : (key, v) ∈ newMembers existing ns :=
      List.mem_filter.mpr ⟨Members.mem_of_get? given, by simp [present, solid]⟩
    exact .inr (List.mem_map_of_mem new)

/-- If a merge has an object at a place, that object has every member that is offered to it. -/
theorem merge_offered (hd : incoming.Distinct) {ms : Members Value}
    (reached : (merge p base incoming).HasObject path ms)
    (offers : Offers base incoming path key) : key ∈ Members.keys ms := by
  revert reached offers
  have longer : ∀ path : List String, path ++ [key] ≠ [] := fun path => by simp
  refine merge_induction p
    (motive := fun path base incoming result => result.HasObject path ms →
      Offers base incoming path key → key ∈ Members.keys ms)
    ?nothing ?blank ?conflict ?objects ?member path base incoming hd
  case nothing =>
    rintro path base reached (⟨v, hv⟩ | ⟨v, hv, -⟩)
    · exact mem_keys_of_at? reached hv
    · obtain ⟨_, he⟩ := eq_object_of_at? (longer path) hv
      cases he
  case blank =>
    rintro path incoming reached (⟨v, hv⟩ | ⟨v, hv, -⟩)
    · obtain ⟨_, he⟩ := eq_object_of_at? (longer path) hv
      cases he
    · exact mem_keys_of_at? reached hv
  case conflict =>
    intro path base incoming hb hi one reached offers
    have offers := Or.imp_right (fun ⟨v, hv, _⟩ => Exists.intro v hv) offers
    cases p with
    | keepExisting => exact mem_keys_of_conflict one reached offers
    | takeIncoming => exact mem_keys_of_conflict one.symm reached offers.symm
  case objects =>
    rintro existing ns merged names reached offers
    cases reached
    rw [names, List.mem_append]
    exact offers.top
  case member =>
    intro first path base incoming result ih reached offers
    refine ih (hasObject_cons_iff.mp reached) ?_
    simpa only [Offers, List.cons_append, at?_cons_of_ne_nil (longer path), hasObject_cons_iff]
      using offers

end Value

/-! ## Commands read of a merge -/

namespace Members

variable {α β : Type}

theorem get?_map (f : α → β) (key : String) (ms : Members α) :
    get? key (ms.map fun (k, a) => (k, f a)) = (get? key ms).map f := by
  induction ms with
  | nil => rfl
  | cons head rest ih =>
    obtain ⟨k, a⟩ := head
    by_cases h : k = key <;> simp [get?, h, ih]

theorem exists_get?_of_mem_keys {key : String} {ms : Members α} (h : key ∈ keys ms) :
    ∃ a, get? key ms = some a := by
  cases hg : get? key ms with
  | none => exact absurd h ((get?_eq_none_iff key ms).mp hg)
  | some a => exact ⟨a, rfl⟩

theorem exists_get?_of_forall₂ {R : α → β → Prop} {ms : Members α} {ns : Members β} {a : α}
    (each : List.Forall₂ (fun m n => n.1 = m.1 ∧ R m.2 n.2) ms ns) (h : get? key ms = some a) :
    ∃ b, get? key ns = some b ∧ R a b := by
  induction each with
  | nil => cases h
  | cons first _ ih =>
    rename_i m n ms ns _
    obtain ⟨k, a'⟩ := m
    obtain ⟨k', b⟩ := n
    obtain ⟨rfl, hr⟩ := first
    by_cases hk : k' = key
    · rw [get?, if_pos hk] at h ⊢
      cases h
      exact ⟨b, rfl, hr⟩
    · rw [get?, if_neg hk] at h ⊢
      exact ih h

end Members

namespace CommandSpec

variable {ms : Members Value} {c : CommandSpec}

/-- The unknown members that two values offer to a command and to its parameters stand in what the
command is written to, with what they were merged to. -/
structure Retains (c : CommandSpec) (base incoming merged : Value) : Prop where
  command : ∀ key, key ∉ fieldNames → base.Offers incoming [] key →
    ∃ v, merged.at? [key] = some v ∧ c.toValue.at? [key] = some v
  parameter : ∀ name key, key ∉ ParameterSpec.fieldNames →
    base.Offers incoming ["parameters", name] key →
      ∃ v, merged.at? ["parameters", name, key] = some v ∧
        c.toValue.at? ["parameters", name, key] = some v

theorem Keeps.retains (h : c.Keeps ms) (hd : incoming.Distinct)
    (merged : Value.merge p base incoming = .object ms) : c.Retains base incoming (.object ms) where
  command := by
    intro key unknown offers
    have top : (Value.merge p base incoming).HasObject [] ms := congrArg some merged
    obtain ⟨v, hv⟩ := Members.exists_get?_of_mem_keys (Value.merge_offered hd top offers)
    have written := h.unknown.member? unknown
    refine ⟨v, by simp [Value.at?, Value.member?, hv], ?_⟩
    simp [Value.at?, written, hv]
  parameter := by
    intro name key unknown offers
    have top : (Value.merge p base incoming).HasObject [] ms := congrArg some merged
    have second : base.Offers incoming ["parameters"] name := offers.above
    have first : base.Offers incoming [] "parameters" := second.above
    -- reading says that there are objects on the way
    obtain ⟨v, hv⟩ := Members.exists_get?_of_mem_keys (Value.merge_offered hd top first)
    obtain ⟨descriptors, rfl, each⟩ := h.parameters v hv
    have inside : (Value.merge p base incoming).HasObject ["parameters"] descriptors := by
      simp [Value.HasObject, merged, Value.at?, Value.member?, hv]
    obtain ⟨d, hd'⟩ := Members.exists_get?_of_mem_keys (Value.merge_offered hd inside second)
    obtain ⟨q, hq, keeps⟩ :=
      Members.exists_get?_of_forall₂ (R := fun v q => ParameterSpec.Keeps q v) each hd'
    obtain ⟨ps, rfl, kept⟩ := keeps.unknown
    have deeper : (Value.merge p base incoming).HasObject ["parameters", name] ps := by
      simp [Value.HasObject, merged, Value.at?, Value.member?, hv, hd']
    obtain ⟨u, hu⟩ := Members.exists_get?_of_mem_keys (Value.merge_offered hd deeper offers)
    have written := kept.member? unknown
    refine ⟨u, by simp [Value.at?, Value.member?, hv, hd', hu], ?_⟩
    rw [Value.at?, h.parametersWritten, Option.bind_some, Value.at?, Value.member?,
      Members.get?_map, hq, Option.map_some, Option.bind_some, Value.at?, written, hu]
    rfl

end CommandSpec

/-! ## Composing files -/

namespace RawManifest

variable {name project : String} {commands entries properties : Members Value} {c : CommandSpec}

theorem keeps_of_commandOf? {v : Value} (h : commandOf? project name v = some c) :
    ∃ ms, v = .object ms ∧ c.Keeps ms := by
  obtain ⟨d, hd, hc⟩ := Option.map_eq_some_iff.mp h
  cases v with
  | object ms =>
    have read := CommandSpec.ofMembers?_eq_some_iff.mp hd
    have named : c.Keeps (Members.put "name" (.string name) ms) := by
      split at hc
      · subst hc
        exact (read.resolved _).keeps.of_put (by decide) (by decide)
      · subst hc
        exact read.keeps
    exact ⟨ms, rfl, named.of_put (by decide) (by decide)⟩
  | _ => cases hd

end RawManifest

/-! ## Descriptors -/

/-- A command that was read is written with all that its descriptor says. Where the descriptor is a
merge, the command keeps the unknown members of what was there and those of what came in, but for a
`null` that came into an object; and so it is for the entries of a file, of routes only the rules. -/
theorem CommandSpec.descriptor_kept :
    (∀ ms c, CommandSpec.ofValue? (.object ms) = some c → c.Keeps ms) ∧
      (∀ p base incoming ms c, Value.Distinct incoming →
        Value.merge p base incoming = .object ms → CommandSpec.ofValue? (.object ms) = some c →
          c.Retains base incoming (.object ms)) ∧
      ∀ commands file entries name properties project merged c,
        Value.Distinct (.object entries) →
        Members.get? name entries = some (.object properties) →
        Members.get? name (RawManifest.composeFile commands file entries) = some merged →
        RawManifest.commandOf? project name merged = some c →
          c.Retains ((Value.object commands).part name)
            (.object (RawManifest.counted file properties)) merged := by
  refine ⟨fun ms c read => (CommandSpec.ofMembers?_eq_some_iff.mp read).keeps, ?_, ?_⟩
  · intro p base incoming ms c hd merged read
    exact (CommandSpec.ofMembers?_eq_some_iff.mp read).keeps.retains hd merged
  · intro commands file entries name properties project merged c hd entry held loaded
    obtain ⟨ms, rfl, keeps⟩ := RawManifest.keeps_of_commandOf? loaded
    have composed := RawManifest.get?_composeFile hd.once entry commands file
    rw [held] at composed
    exact keeps.retains (RawManifest.distinct_counted (hd.member entry) file)
      (Option.some.inj composed).symm

namespace Greeting

/-! ## A greeting -/

def told : Members Value :=
  [("kept", .null), ("parameters", .object [("who", .object [("min", .int 1), ("hue", .int 2)])])]

def added : Members Value :=
  [("blank", .null), ("mood", .int 3), ("parameters", .object [("who", .object [("ink", .int 4)])])]

def merged : Members Value :=
  [("kept", .null),
    ("parameters", .object [("who", .object [("min", .int 1), ("hue", .int 2), ("ink", .int 4)])]),
    ("mood", .int 3)]

theorem distinct_added : Value.Distinct (.object added) := by decide

theorem descriptor_kept_greeting : ∃ c, CommandSpec.ofValue? (.object merged) = some c ∧
    c.Keeps merged ∧ c.Retains (.object told) (.object added) (.object merged) ∧
    ∃ d, RawManifest.commandOf? "" "greet" (.object merged) = some d ∧
      d.Retains (.object told) (.object added) (.object merged) := by
  obtain ⟨keeps, retains, composes⟩ := CommandSpec.descriptor_kept
  refine ⟨_, rfl, keeps _ _ rfl, retains .keepExisting _ _ _ _ distinct_added rfl rfl, _, rfl, ?_⟩
  exact composes [("greet", .object told)] .runtime [("greet", .object added)] "greet" added "" _ _
    (Value.Distinct.empty.put distinct_added) rfl rfl rfl

def routes : Members Value := [("note", .int 5)]

/-- The entries of one command in three files. -/
def composed : Members Value :=
  RawManifest.composeFile
    (RawManifest.composeFile (RawManifest.composeFile [] .commands [("greet", .object told)])
      .runtime [("greet", .object added)])
    .routes [("greet", .object routes)]

/-- A `null` that comes into an object is lost, and so is all that routes say but the rules. -/
theorem unknown_lost :
    (Value.object added).at? ["blank"] = some .null ∧
      (Value.object routes).at? ["note"] = some (.int 5) ∧
      ∃ c, (Members.get? "greet" composed).bind (RawManifest.commandOf? "" "greet") = some c ∧
        c.toValue.at? ["mood"] = some (.int 3) ∧ c.toValue.at? ["blank"] = none ∧
        c.toValue.at? ["note"] = none :=
  ⟨rfl, rfl, _, rfl, rfl, rfl, rfl⟩

end Greeting

end CommandContract
