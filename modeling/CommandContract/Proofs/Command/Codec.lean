import CommandContract.Command.Codec
import CommandContract.Proofs.Json.Fields

set_option autoImplicit false

/-!
# Commands that are read, written and read again

A command or a parameter that was read of a descriptor is read again from its written form, and the
members of the descriptor that are no fields stand behind the fields there, in their order:
`CommandSpec.keeps` and `ParameterSpec.keeps`.
-/
namespace CommandContract

open Fields (Rereads Declared KeepsUnknown rereads_string rereads_bool rereads_array optional_any)

/-! ## Parameters -/

theorem Transform.rereads : Rereads Transform.ofValue? Transform.toValue where
  again := by
    intro v t h
    obtain ⟨ms, -, h⟩ := Option.bind_eq_some_iff.mp h
    obtain ⟨condition, hc, h⟩ := Option.bind_eq_some_iff.mp h
    obtain ⟨chosen, -, h⟩ := Option.bind_eq_some_iff.mp h
    obtain ⟨otherwise, ho, h⟩ := Option.bind_eq_some_iff.mp h
    cases h
    simp only [ofValue?, toValue, Fields.ofValue?, Option.bind_eq_bind, Option.bind_some]
    rw [rereads_string.optional hc, optional_any ho]
    · simp [Fields.required, Members.get?_append, Members.get?]
    all_goals simp [Members.get?_append, Members.get?]
  solid := nofun

theorem BlobConstraints.rereads : Rereads BlobConstraints.ofValue? BlobConstraints.toValue where
  again := by
    intro v c h
    obtain ⟨ms, -, h⟩ := Option.bind_eq_some_iff.mp h
    obtain ⟨maxSize, hm, h⟩ := Option.bind_eq_some_iff.mp h
    obtain ⟨types, ht, h⟩ := Option.bind_eq_some_iff.mp h
    obtain ⟨extensions, he, h⟩ := Option.bind_eq_some_iff.mp h
    cases h
    simp only [ofValue?, toValue, Fields.ofValue?, Option.bind_eq_bind, Option.bind_some]
    rw [optional_any hm, rereads_string.list.leftOut ht, rereads_string.list.leftOut he]
    · rfl
    all_goals simp [Members.get?_append]
  solid := nofun

namespace ParameterSpec

def written (p : ParameterSpec) : Members Value :=
  [("type", .string p.declaredType), ("required", .bool p.isRequired)] ++
    Fields.present "default" id p.default ++ Fields.present "enum" .array p.allowed ++
    Fields.present "min" binary p.min ++ Fields.present "max" binary p.max ++
    Fields.present "runtimeFallback" .string p.stateFallback ++
    Fields.present "transform" Transform.toValue p.transform ++
    Fields.present "constraints" BlobConstraints.toValue p.constraints ++
    Fields.present "description" .string p.description

theorem toValue_eq (p : ParameterSpec) : p.toValue = .object (p.written ++ p.extra) := rfl

theorem ofValue?_toValue (p : ParameterSpec) :
    ofValue? p.toValue = ofMembers? (p.written ++ p.extra) := by
  rw [toValue_eq, ofValue?, Value.object?, Option.bind_some]

theorem declared_written (p : ParameterSpec) : Declared fieldNames p.written := by
  have heads : Declared fieldNames
      [("type", .string p.declaredType), ("required", .bool p.isRequired)] := by
    simp [Declared, fieldNames]
  unfold written
  iterate 8 refine Declared.append ?_ (Fields.declared_present (by decide) _ _)
  exact heads

theorem rereads_binary : Rereads Fields.binary? binary where
  again := by
    intro v x h
    cases v <;> cases h
    rfl
  solid := nofun

/-- What stands under the names of the fields of a parameter, and what the others are. -/
structure ReadFrom (p : ParameterSpec) (ms : Members Value) : Prop where
  declaredType : Fields.withDefault "type" "string" Value.string? ms = some p.declaredType
  isRequired : Fields.withDefault "required" false Fields.bool? ms = some p.isRequired
  default : Fields.optional "default" some ms = some p.default
  allowed : Fields.optional "enum" Value.array? ms = some p.allowed
  min : Fields.optional "min" Fields.binary? ms = some p.min
  max : Fields.optional "max" Fields.binary? ms = some p.max
  stateFallback : Fields.optional "runtimeFallback" Value.string? ms = some p.stateFallback
  transform : Fields.optional "transform" Transform.ofValue? ms = some p.transform
  constraints : Fields.optional "constraints" BlobConstraints.ofValue? ms = some p.constraints
  description : Fields.optional "description" Value.string? ms = some p.description
  extra : Fields.unknown fieldNames ms = p.extra

theorem ofMembers?_eq_some_iff {ms : Members Value} {p : ParameterSpec} :
    ofMembers? ms = some p ↔ p.ReadFrom ms := by
  constructor
  · intro h
    obtain ⟨declaredType, ht, h⟩ := Option.bind_eq_some_iff.mp h
    obtain ⟨isRequired, hr, h⟩ := Option.bind_eq_some_iff.mp h
    obtain ⟨default, hd, h⟩ := Option.bind_eq_some_iff.mp h
    obtain ⟨allowed, ha, h⟩ := Option.bind_eq_some_iff.mp h
    obtain ⟨min, hmin, h⟩ := Option.bind_eq_some_iff.mp h
    obtain ⟨max, hmax, h⟩ := Option.bind_eq_some_iff.mp h
    obtain ⟨stateFallback, hs, h⟩ := Option.bind_eq_some_iff.mp h
    obtain ⟨transform, htr, h⟩ := Option.bind_eq_some_iff.mp h
    obtain ⟨constraints, hc, h⟩ := Option.bind_eq_some_iff.mp h
    obtain ⟨description, hde, h⟩ := Option.bind_eq_some_iff.mp h
    cases h
    exact ⟨ht, hr, hd, ha, hmin, hmax, hs, htr, hc, hde, rfl⟩
  · intro h
    simp only [ofMembers?, h.declaredType, h.isRequired, h.default, h.allowed, h.min, h.max,
      h.stateFallback, h.transform, h.constraints, h.description, h.extra, Option.bind_eq_bind,
      Option.bind_some]

theorem ReadFrom.keepsUnknown {ms : Members Value} {p : ParameterSpec} (h : p.ReadFrom ms) :
    KeepsUnknown fieldNames ms p.toValue :=
  ⟨p.written, p.declared_written, by rw [toValue_eq, h.extra]⟩

theorem ReadFrom.again {ms : Members Value} {p : ParameterSpec} (h : p.ReadFrom ms) :
    p.ReadFrom (p.written ++ p.extra) := by
  have field : ∀ key ∈ fieldNames,
      Members.get? key (p.written ++ p.extra) = Members.get? key p.written := by
    rw [← h.extra]
    exact fun key => Fields.get?_append_unknown
  refine ⟨rereads_string.withDefault rfl h.declaredType ?_,
    rereads_bool.withDefault rfl h.isRequired ?_, optional_any h.default ?_,
    rereads_array.optional h.allowed ?_, rereads_binary.optional h.min ?_,
    rereads_binary.optional h.max ?_, rereads_string.optional h.stateFallback ?_,
    Transform.rereads.optional h.transform ?_, BlobConstraints.rereads.optional h.constraints ?_,
    rereads_string.optional h.description ?_, ?extra⟩
  case extra =>
    rw [← h.extra]
    exact Fields.unknown_append_unknown p.declared_written
  -- what stands under the names of the fields
  all_goals
    refine (field _ (by decide)).trans ?_
    simp [written, Members.get?_append, Members.get?]

theorem rereads : Rereads ofValue? toValue where
  again := by
    intro v p h
    obtain ⟨ms, -, h⟩ := Option.bind_eq_some_iff.mp h
    rw [ofValue?_toValue]
    exact ofMembers?_eq_some_iff.mpr (ofMembers?_eq_some_iff.mp h).again
  solid := by
    intro p h
    rw [toValue_eq] at h
    cases h

/-- A parameter keeps what its descriptor says. -/
structure Keeps (p : ParameterSpec) (descriptor : Value) : Prop where
  again : ofValue? p.toValue = some p
  unknown : ∃ ms, descriptor = .object ms ∧ KeepsUnknown fieldNames ms p.toValue

theorem keeps {v : Value} {p : ParameterSpec} (h : ofValue? v = some p) : p.Keeps v := by
  obtain ⟨ms, hv, hp⟩ := Option.bind_eq_some_iff.mp h
  cases v <;> cases hv
  exact ⟨rereads.again _ p h, ms, rfl, (ofMembers?_eq_some_iff.mp hp).keepsUnknown⟩

end ParameterSpec

/-! ## Effects and rules -/

theorem StateAssignment.rereads : Rereads StateAssignment.ofValue? StateAssignment.toValue where
  again := by
    intro v a h
    obtain ⟨ms, -, h⟩ := Option.bind_eq_some_iff.mp h
    obtain ⟨parameter, hp, h⟩ := Option.bind_eq_some_iff.mp h
    obtain ⟨template, ht, h⟩ := Option.bind_eq_some_iff.mp h
    obtain ⟨value, hv, h⟩ := Option.bind_eq_some_iff.mp h
    cases h
    simp only [ofValue?, toValue, Fields.ofValue?, Option.bind_eq_bind, Option.bind_some]
    rw [rereads_string.optional hp, rereads_string.optional ht, optional_any hv]
    · rfl
    all_goals simp [Members.get?_append]
  solid := nofun

theorem ConditionalClear.rereads : Rereads ConditionalClear.ofValue? ConditionalClear.toValue where
  again := by
    intro v c h
    obtain ⟨ms, -, h⟩ := Option.bind_eq_some_iff.mp h
    obtain ⟨parameter, hp, h⟩ := Option.bind_eq_some_iff.mp h
    obtain ⟨equals, he, h⟩ := Option.bind_eq_some_iff.mp h
    obtain ⟨condition, hc, h⟩ := Option.bind_eq_some_iff.mp h
    obtain ⟨keys, hk, h⟩ := Option.bind_eq_some_iff.mp h
    cases h
    simp only [ofValue?, toValue, Fields.ofValue?, Option.bind_eq_bind, Option.bind_some]
    rw [rereads_string.optional hp, optional_any he, rereads_string.optional hc,
      rereads_string.list.withDefault rfl hk]
    · rfl
    all_goals simp [Members.get?_append, Members.get?, Fields.strings]
  solid := nofun

theorem SideEffects.rereads : Rereads SideEffects.ofValue? SideEffects.toValue where
  again := by
    intro v e h
    obtain ⟨ms, -, h⟩ := Option.bind_eq_some_iff.mp h
    obtain ⟨assignments, ha, h⟩ := Option.bind_eq_some_iff.mp h
    obtain ⟨clears, hc, h⟩ := Option.bind_eq_some_iff.mp h
    obtain ⟨conditionalClears, hcc, h⟩ := Option.bind_eq_some_iff.mp h
    obtain ⟨builtin, hb, h⟩ := Option.bind_eq_some_iff.mp h
    cases h
    simp only [ofValue?, toValue, Fields.ofValue?, Option.bind_eq_bind, Option.bind_some]
    rw [StateAssignment.rereads.members.leftOut ha, rereads_string.list.leftOut hc,
      ConditionalClear.rereads.list.leftOut hcc, rereads_string.optional hb]
    · rfl
    all_goals cases assignments <;> simp [Members.get?_append, Members.get?]
  solid := nofun

namespace NextRule

theorem rereads_template : Rereads template? fun v => .object [("resolve", v)] where
  again := by
    intro v template h
    rfl
  solid := nofun

theorem rereads : Rereads NextRule.ofValue? NextRule.toValue where
  again := by
    intro v r h
    obtain ⟨ms, -, h⟩ := Option.bind_eq_some_iff.mp h
    obtain ⟨condition, hc, h⟩ := Option.bind_eq_some_iff.mp h
    obtain ⟨arguments, ha, h⟩ := Option.bind_eq_some_iff.mp h
    cases h
    simp only [ofValue?, toValue, Fields.ofValue?, Option.bind_eq_bind, Option.bind_some]
    rw [rereads_string.optional hc, rereads_template.members.withDefault rfl ha]
    · rfl
    all_goals simp [Members.get?_append, Members.get?]
  solid := nofun

end NextRule

/-! ## Commands -/

namespace CommandSpec

def written (c : CommandSpec) : Members Value :=
  [("name", .string c.name), ("commandType", .string c.kind.name),
    ("parameters", .object (c.parameters.map fun (k, p) => (k, p.toValue)))] ++
    Fields.present "sideEffects" SideEffects.toValue c.sideEffects ++
    Fields.present "next" .object
      (c.next.map fun rules => rules.map fun (k, r) => (k, r.toValue)) ++
    Fields.present "successOutput" .string c.successOutput ++
    Fields.present "description" .string c.description ++
    Fields.present "syntax" .string c.usageLine ++
    Fields.nonEmpty "examples" (c.examples.map .string) ++
    Fields.present "source" .string c.source ++
    Fields.present "methodName" .string c.methodName ++
    Fields.present "resolvedAbsolutePath" .string c.resolvedPath

theorem toValue_eq (c : CommandSpec) : c.toValue = .object (c.written ++ c.extra) := rfl

theorem declared_written (c : CommandSpec) : Declared fieldNames c.written := by
  have heads : Declared fieldNames [("name", .string c.name), ("commandType", .string c.kind.name),
      ("parameters", .object (c.parameters.map fun (k, p) => (k, p.toValue)))] := by
    simp [Declared, fieldNames]
  unfold written
  iterate 3 refine Declared.append ?_ (Fields.declared_present (by decide) _ _)
  refine Declared.append ?_ (Fields.declared_nonEmpty (by decide) _)
  iterate 5 refine Declared.append ?_ (Fields.declared_present (by decide) _ _)
  exact heads

theorem rereads_kind : Rereads (fun v => (Fields.choice? v).bind CommandKind.ofName?)
    fun k => .string k.name where
  again := by
    intro v k h
    cases k <;> rfl
  solid := nofun

theorem rereads_examples : Rereads examples? fun items => .array (items.map .string) where
  again := by
    intro v items h
    cases v with
    | null =>
      cases h
      rfl
    | string s =>
      cases h
      rfl
    | array values => exact rereads_string.list.again (.array values) items h
    | _ => cases h
  solid := nofun

/-- What stands under the names of the fields of a command, and what the others are. -/
structure ReadFrom (c : CommandSpec) (ms : Members Value) : Prop where
  name : Fields.withDefault "name" "" Value.string? ms = some c.name
  kind : Fields.withDefault "commandType" .custom
    (fun v => (Fields.choice? v).bind CommandKind.ofName?) ms = some c.kind
  parameters : Fields.withDefault "parameters" [] (Fields.members? ParameterSpec.ofValue?) ms =
    some c.parameters
  sideEffects : Fields.optional "sideEffects" SideEffects.ofValue? ms = some c.sideEffects
  next : Fields.optional "next" (Fields.members? NextRule.ofValue?) ms = some c.next
  successOutput : Fields.optional "successOutput" Value.string? ms = some c.successOutput
  description : Fields.optional "description" Value.string? ms = some c.description
  usageLine : Fields.optional "syntax" Value.string? ms = some c.usageLine
  examples : Fields.withDefault "examples" [] examples? ms = some c.examples
  source : Fields.optional "source" Value.string? ms = some c.source
  methodName : Fields.optional "methodName" Value.string? ms = some c.methodName
  resolvedPath : Fields.optional "resolvedAbsolutePath" Value.string? ms = some c.resolvedPath
  extra : Fields.unknown fieldNames ms = c.extra

variable {ms : Members Value} {c : CommandSpec}

theorem ofMembers?_eq_some_iff : ofMembers? ms = some c ↔ c.ReadFrom ms := by
  constructor
  · intro h
    obtain ⟨name, hn, h⟩ := Option.bind_eq_some_iff.mp h
    obtain ⟨kind, hk, h⟩ := Option.bind_eq_some_iff.mp h
    obtain ⟨parameters, hp, h⟩ := Option.bind_eq_some_iff.mp h
    obtain ⟨sideEffects, hs, h⟩ := Option.bind_eq_some_iff.mp h
    obtain ⟨next, hx, h⟩ := Option.bind_eq_some_iff.mp h
    obtain ⟨successOutput, ho, h⟩ := Option.bind_eq_some_iff.mp h
    obtain ⟨description, hd, h⟩ := Option.bind_eq_some_iff.mp h
    obtain ⟨usageLine, hu, h⟩ := Option.bind_eq_some_iff.mp h
    obtain ⟨examples, he, h⟩ := Option.bind_eq_some_iff.mp h
    obtain ⟨source, hso, h⟩ := Option.bind_eq_some_iff.mp h
    obtain ⟨methodName, hm, h⟩ := Option.bind_eq_some_iff.mp h
    obtain ⟨resolvedPath, hr, h⟩ := Option.bind_eq_some_iff.mp h
    cases h
    exact ⟨hn, hk, hp, hs, hx, ho, hd, hu, he, hso, hm, hr, rfl⟩
  · intro h
    simp only [ofMembers?, h.name, h.kind, h.parameters, h.sideEffects, h.next, h.successOutput,
      h.description, h.usageLine, h.examples, h.source, h.methodName, h.resolvedPath, h.extra,
      Option.bind_eq_bind, Option.bind_some]

theorem ReadFrom.keepsUnknown (h : c.ReadFrom ms) : KeepsUnknown fieldNames ms c.toValue :=
  ⟨c.written, c.declared_written, by rw [toValue_eq, h.extra]⟩

theorem ReadFrom.again (h : c.ReadFrom ms) : c.ReadFrom (c.written ++ c.extra) := by
  have field : ∀ key ∈ fieldNames,
      Members.get? key (c.written ++ c.extra) = Members.get? key c.written := by
    rw [← h.extra]
    exact fun key => Fields.get?_append_unknown
  refine ⟨rereads_string.withDefault rfl h.name ?_, rereads_kind.withDefault rfl h.kind ?_,
    ParameterSpec.rereads.members.withDefault rfl h.parameters ?_,
    SideEffects.rereads.optional h.sideEffects ?_, NextRule.rereads.members.optional h.next ?_,
    rereads_string.optional h.successOutput ?_, rereads_string.optional h.description ?_,
    rereads_string.optional h.usageLine ?_, rereads_examples.leftOut h.examples ?_,
    rereads_string.optional h.source ?_, rereads_string.optional h.methodName ?_,
    rereads_string.optional h.resolvedPath ?_, ?extra⟩
  case extra =>
    rw [← h.extra]
    exact Fields.unknown_append_unknown c.declared_written
  all_goals
    refine (field _ (by decide)).trans ?_
    cases next : c.next <;> simp [written, next, Members.get?_append, Members.get?]

theorem ReadFrom.name_eq {name : String}
    (h : c.ReadFrom (Members.put "name" (.string name) ms)) : c.name = name := by
  have given := h.name
  rw [Fields.withDefault, Members.get?_put_self] at given
  exact (Option.some.inj given).symm

/-- A command read under another name is the same in all else. -/
theorem ReadFrom.renamed {name : String} (h : c.ReadFrom (Members.put "name" (.string name) ms))
    (other : String) :
    { c with name := other }.ReadFrom (Members.put "name" (.string other) ms) := by
  obtain ⟨-, hk, hp, hs, hx, ho, hd, hu, he, hso, hm, hr, extra⟩ := h
  simp (disch := decide) only [Fields.withDefault_put, Fields.optional_put, Fields.unknown_put]
    at hk hp hs hx ho hd hu he hso hm hr extra
  have named : Fields.withDefault "name" "" Value.string?
      (Members.put "name" (.string other) ms) = some other := by
    rw [Fields.withDefault, Members.get?_put_self]
    rfl
  refine ⟨named, ?_, ?_, ?_, ?_, ?_, ?_, ?_, ?_, ?_, ?_, ?_, ?_⟩ <;>
    simp (disch := decide) only [Fields.withDefault_put, Fields.optional_put, Fields.unknown_put, *]

/-- Where the source is resolved, the command is the one that is read with the path given. -/
theorem ReadFrom.resolved (h : c.ReadFrom ms) (path : String) :
    { c with resolvedPath := some path }.ReadFrom
      (Members.put "resolvedAbsolutePath" (.string path) ms) := by
  have given : Fields.optional "resolvedAbsolutePath" Value.string?
      (Members.put "resolvedAbsolutePath" (.string path) ms) = some (some path) := by
    rw [Fields.optional, Members.get?_put_self]
    rfl
  refine ⟨?_, ?_, ?_, ?_, ?_, ?_, ?_, ?_, ?_, ?_, ?_, given, ?_⟩ <;>
    simp (disch := decide) only [Fields.withDefault_put, Fields.optional_put, Fields.unknown_put,
      h.name, h.kind, h.parameters, h.sideEffects, h.next, h.successOutput, h.description,
      h.usageLine, h.examples, h.source, h.methodName, h.extra]

/-- A command keeps what the members of its descriptor say. -/
structure Keeps (c : CommandSpec) (ms : Members Value) : Prop where
  again : ofValue? c.toValue = some c
  unknown : KeepsUnknown fieldNames ms c.toValue
  parameters : ∀ v, Members.get? "parameters" ms = some v → ∃ descriptors, v = .object descriptors ∧
    List.Forall₂ (fun m n => n.1 = m.1 ∧ ParameterSpec.Keeps n.2 m.2) descriptors c.parameters
  parametersWritten : c.toValue.member? "parameters" =
    some (.object (c.parameters.map fun (k, p) => (k, p.toValue)))

theorem ReadFrom.keeps (h : c.ReadFrom ms) : c.Keeps ms where
  again := by
    rw [toValue_eq, ofValue?, Value.object?, Option.bind_some]
    exact ofMembers?_eq_some_iff.mpr h.again
  unknown := h.keepsUnknown
  parameters := by
    intro v hv
    have read := h.parameters
    rw [Fields.withDefault, hv] at read
    obtain ⟨descriptors, rfl, each⟩ := Fields.forall₂_of_members? read
    refine ⟨descriptors, rfl, each.imp ?_⟩
    rintro m n ⟨name, hp⟩
    exact ⟨name, ParameterSpec.keeps hp⟩
  parametersWritten := by
    rw [toValue_eq, Value.member?, ← h.extra, Fields.get?_append_unknown (by decide)]
    rfl

/-- Of fields written over the descriptor only the parameters make a difference. -/
theorem Keeps.of_put {ms : Members Value} {c : CommandSpec} {key : String} {v : Value}
    (h : c.Keeps (Members.put key v ms)) (field : key ∈ fieldNames) (other : key ≠ "parameters") :
    c.Keeps ms where
  again := h.again
  unknown := by
    obtain ⟨declared, inside, written⟩ := h.unknown
    exact ⟨declared, inside, by rw [written, Fields.unknown_put (by simpa using field)]⟩
  parameters := by
    intro w hw
    refine h.parameters w ?_
    rw [Members.get?_put_of_ne other.symm, hw]
  parametersWritten := h.parametersWritten

end CommandSpec

end CommandContract
