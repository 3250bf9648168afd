import CommandContract.Proofs.Json.Printing
import CommandContract.Proofs.Template.Rendering

set_option autoImplicit false

/-!
# Handing a value over

What becomes of a value that stands alone in a hole. With the filter `json` it is handed over as it
is; without, nothing and the strings that spell a value are changed, and no others are. What holds
for one hole holds for a value with a hole in every string: `hand_over`.
-/
namespace CommandContract

/-! ## Strings that spell a value -/

theorem Json.Quoted.length_marks {cs rest : List Char} {marks : List Mark}
    (h : Quoted cs marks rest) : marks.length + rest.length < cs.length := by
  induction h with
  | close => simp
  | plain _ _ _ _ ih | letter _ _ ih =>
    simp only [List.length_cons]
    omega
  | coded h _ _ ih =>
    have := hexFour?_length h
    simp only [List.length_cons]
    omega
  | pair h _ l _ _ ih =>
    have := hexFour?_length h
    have := hexFour?_length l
    simp only [List.length_cons] at *
    omega

/-- No text spells itself as a string: the quotes are lost. -/
theorem Json.ofJson?_ne_string (s : String) : Value.ofJson? s ≠ some (.string s) := by
  intro h
  obtain ⟨o, ⟨before, spells, behind⟩, value⟩ := exists_outline h
  have shorter := before.length_le
  cases spells with
  | string quoted =>
    have marked := quoted.length_marks
    rw [Outline.value?, Option.some.injEq, Value.string.injEq] at value
    rw [← value, textOf, String.toList_ofList, List.length_map, List.length_cons] at shorter
    omega
  | _ => simp [Outline.value?] at value

/-! ## One hole -/

namespace Value

/-- What a hole without filters hands over. -/
def handed : Value → Value
  | null => .string ""
  | string s => (ofJson? s).getD (.string s)
  | v => v

theorem handed_eq_self_iff {v : Value} :
    v.handed = v ↔ v ≠ .null ∧ ∀ s, v = .string s → ofJson? s = none := by
  cases v with
  | string s =>
    rw [handed]
    cases read : ofJson? s with
    | none => simp [read]
    | some w =>
      have other : w ≠ .string s := by
        rintro rfl
        exact Json.ofJson?_ne_string s read
      simp [read, other]
  | _ => simp [handed]

end Value

namespace Template

open Value (ofJson?)

variable {context v : Value} {path : String}

/-- A path that can stand in a hole before a filter. -/
structure Usable (path : String) : Prop where
  bar : '|' ∉ path.toList
  close : ¬ ['\x7d', '\x7d'] <:+: path.toList

def jsonHole (path : String) : String := "\x7b\x7b" ++ path ++ "|json\x7d\x7d"

def plainHole (path : String) : String := "\x7b\x7b" ++ path ++ "\x7d\x7d"

/-- A hole with nothing before it. -/
theorem stands_alone {path : List Char} {filters : List (List Char)} (bar : '|' ∉ path)
    (free : ∀ f ∈ filters, '|' ∉ f) (close : ¬ ['\x7d', '\x7d'] <:+: (Slot.mk [] path filters).inner)
    (last : (Slot.mk [] path filters).inner.getLast? ≠ some '\x7d') :
    (Slot.mk [] path filters).Stands where
  literal := fun opens => absurd opens.length_le (by simp)
  literalEnd := nofun
  inner := close
  innerEnd := last
  path := bar
  filters := free

def jsonPart (h : Usable path) : Part where
  toSlot := ⟨[], path.toList, [['j', 's', 'o', 'n']]⟩
  known := [.json]
  stands := by
    refine stands_alone h.bar (List.forall_mem_singleton.mpr (by decide)) (fun closes => ?_) ?_
    · exact ((Text.pair_infix_append_cons_iff (by decide)).mp closes).elim h.close (by decide)
    · simp [Slot.inner]
  filtered := by
    have name : String.ofList (Text.trim ['j', 's', 'o', 'n']) = Filter.name .json := by decide
    exact congrArg (fun name => [name]) name

def plainPart (h : Usable path) (last : path.toList.getLast? ≠ some '\x7d') : Part where
  toSlot := ⟨[], path.toList, []⟩
  known := []
  stands := by
    have inner : (Slot.mk [] path.toList []).inner = path.toList := List.append_nil _
    refine stands_alone h.bar nofun ?_ ?_ <;> rw [inner]
    · exact h.close
    · exact last
  filtered := rfl

/-- A hole that stands alone is rendered to its value. -/
theorem render_alone {template : String} (p : Part) (h : template.toList = p.text)
    (bare : p.literal = []) (context : Value) :
    render template context = .ok (String.ofList (p.value context)) := by
  have split : template.toList = written [p] ++ [] := by simpa [written] using h
  have rendered := render_closed split (by decide) context
  simpa [bare] using rendered

theorem renderToValue_of_render {template text : String} (h : render template context = .ok text) :
    renderToValue template context = .ok ((ofJson? text).getD (.string text)) := by
  rw [renderToValue, h]
  rfl

theorem renderToValue_jsonHole (h : Usable path) (context : Value) :
    renderToValue (jsonHole path) context =
      .ok ((ofJson? ((context.lookup? path).getD .null).compact).getD
        (.string ((context.lookup? path).getD .null).compact)) := by
  have text : (jsonHole path).toList = (jsonPart h).text := by
    simp [jsonHole, jsonPart, Slot.text, Slot.inner]
  have rendered := render_alone (jsonPart h) text rfl context
  have value : (jsonPart h).value context =
      ((context.lookup? path).getD .null).compact.toList := by
    rw [Part.value, Slot.value, jsonPart, String.ofList_toList]
    rfl
  rw [value, String.ofList_toList] at rendered
  exact renderToValue_of_render rendered

theorem renderToValue_plainHole (h : Usable path) (last : path.toList.getLast? ≠ some '\x7d')
    (context : Value) : renderToValue (plainHole path) context =
      .ok ((ofJson? (Value.textOf (context.lookup? path))).getD
        (.string (Value.textOf (context.lookup? path)))) := by
  have text : (plainHole path).toList = (plainPart h last).text := by
    simp [plainHole, plainPart, Slot.text, Slot.inner]
  have rendered := render_alone (plainPart h last) text rfl context
  have value : (plainPart h last).value context =
      (Value.textOf (context.lookup? path)).toList := by
    rw [Part.value, Slot.value, plainPart, String.ofList_toList]
    rfl
  rw [value, String.ofList_toList] at rendered
  exact renderToValue_of_render rendered

/-- The value that a compact text is read as. -/
theorem read_compact (h : v.Encodable) (shallow : v.depth ≤ 127) :
    (ofJson? v.compact).getD (.string v.compact) = v := by
  rw [(Value.ofJson?_compact_iff h).mpr ⟨shallow, rfl⟩]
  rfl

theorem read_text (h : v.Encodable) (shallow : v.depth ≤ 127) :
    (ofJson? v.text).getD (.string v.text) = v.handed := by
  cases v with
  | null =>
    have nothing : ofJson? "" = none := by decide +kernel
    rw [Value.text, nothing]
    rfl
  | string s => rfl
  | _ => exact read_compact h shallow

end Template

/-! ## A hole in every string -/

namespace Value

mutual

/-- The strings inside, the value itself included; names are none of them. -/
def leaves : Value → List String
  | string s => [s]
  | array items => itemLeaves items
  | object ms => memberLeaves ms
  | null | bool _ | number _ => []

def itemLeaves : List Value → List String
  | [] => []
  | v :: vs => leaves v ++ itemLeaves vs

def memberLeaves : List (String × Value) → List String
  | [] => []
  | (_, v) :: ms => leaves v ++ memberLeaves ms

end

mutual

/-- The value with another value for each string inside. -/
def mapStrings (f : String → Value) : Value → Value
  | string s => f s
  | array items => array (itemMapStrings f items)
  | object ms => object (memberMapStrings f ms)
  | v => v

def itemMapStrings (f : String → Value) : List Value → List Value
  | [] => []
  | v :: vs => mapStrings f v :: itemMapStrings f vs

def memberMapStrings (f : String → Value) : List (String × Value) → List (String × Value)
  | [] => []
  | (k, v) :: ms => (k, mapStrings f v) :: memberMapStrings f ms

end

end Value

namespace Template

open Value (ofJson?)

section Strings

variable {context : Value} {f : String → Value}

mutual

/-- Only strings are rendered, each on its own. -/
theorem renderValue_mapStrings : ∀ {v : Value},
    (∀ s ∈ v.leaves, renderToValue s context = .ok (f s)) →
      renderValue context v = .ok (v.mapStrings f)
  | .null, _ | .bool _, _ | .number _, _ => rfl
  | .string s, h => h s List.mem_cons_self
  | .array items, h => by
    rw [renderValue, renderItems_mapStrings h]
    rfl
  | .object ms, h => by
    rw [renderValue, renderMembers_mapStrings h]
    rfl

theorem renderItems_mapStrings : ∀ {vs : List Value},
    (∀ s ∈ Value.itemLeaves vs, renderToValue s context = .ok (f s)) →
      renderItems context vs = .ok (Value.itemMapStrings f vs)
  | [], _ => rfl
  | v :: vs, h => by
    obtain ⟨here, there⟩ := List.forall_mem_append.mp h
    rw [renderItems, renderValue_mapStrings here, renderItems_mapStrings there]
    rfl

theorem renderMembers_mapStrings : ∀ {ms : List (String × Value)},
    (∀ s ∈ Value.memberLeaves ms, renderToValue s context = .ok (f s)) →
      renderMembers context ms = .ok (Value.memberMapStrings f ms)
  | [], _ => rfl
  | (k, v) :: ms, h => by
    obtain ⟨here, there⟩ := List.forall_mem_append.mp h
    rw [renderMembers, renderValue_mapStrings here, renderMembers_mapStrings there]
    rfl

end

end Strings

/-- Members are rendered each on its own, under their names. -/
theorem renderMembers_eq_ok {context : Value} {ms out : Members Value}
    (h : renderMembers context ms = .ok out) : Members.keys out = Members.keys ms ∧
      ∀ key v, Members.get? key ms = some v →
        ∃ w, renderValue context v = .ok w ∧ Members.get? key out = some w := by
  induction ms generalizing out with
  | nil =>
    cases h
    exact ⟨rfl, nofun⟩
  | cons m ms ih =>
    obtain ⟨k, u⟩ := m
    obtain ⟨first, here, h⟩ := Except.bind_eq_ok_iff.mp h
    obtain ⟨rest, there, h⟩ := Except.bind_eq_ok_iff.mp h
    cases h
    obtain ⟨keys, values⟩ := ih there
    refine ⟨congrArg (k :: ·) keys, fun key v hv => ?_⟩
    by_cases hk : k = key
    · rw [Members.get?, if_pos hk, Option.some.injEq] at hv
      exact ⟨first, hv ▸ here, by rw [Members.get?, if_pos hk]⟩
    · rw [Members.get?, if_neg hk] at hv
      obtain ⟨w, rendered, found⟩ := values key v hv
      exact ⟨w, rendered, by rw [Members.get?, if_neg hk, found]⟩

/-- A value at a path that can stand in a hole; its binary numbers are read as they are printed. -/
structure Found (context : Value) (path : String) (v : Value) : Prop where
  usable : Usable path
  found : context.lookup? path = some v
  encodable : v.Encodable

section Found

variable {context v : Value} {path : String}

theorem Found.json_iff (h : Found context path v) :
    renderToValue (jsonHole path) context = .ok v ↔ v.depth ≤ 127 := by
  rw [renderToValue_jsonHole h.usable, h.found, Option.getD_some, Except.ok.injEq]
  refine ⟨fun same => ?_, read_compact h.encodable⟩
  cases read : ofJson? v.compact with
  | some w => exact ((Value.ofJson?_compact_iff h.encodable).mp read).1
  | none =>
    rw [read, Option.getD_none] at same
    rw [← same]
    exact Nat.zero_le 127

theorem Found.plain (h : Found context path v) (shallow : v.depth ≤ 127)
    (last : path.toList.getLast? ≠ some '\x7d') :
    renderToValue (plainHole path) context = .ok v.handed := by
  have text : Value.textOf (some v) = v.text := rfl
  rw [renderToValue_plainHole h.usable last, h.found, text, read_text h.encodable shallow]

end Found

theorem hand_over (context : Value) :
    (∀ path v, Found context path v →
      (renderToValue (jsonHole path) context = .ok v ↔ v.depth ≤ 127)) ∧
    (∀ path v, Found context path v → v.depth ≤ 127 → path.toList.getLast? ≠ some '\x7d' →
      renderToValue (plainHole path) context = .ok v.handed ∧
      (v.handed = v ↔ v ≠ .null ∧ ∀ s, v = .string s → ofJson? s = none)) ∧
    ∀ (value : Value) (found : String → Value),
      (∀ s ∈ value.leaves, ∃ path,
        s = jsonHole path ∧ Found context path (found s) ∧ (found s).depth ≤ 127) →
      renderValue context value = .ok (value.mapStrings found) := by
  refine ⟨fun path v => Found.json_iff,
    fun path v h shallow last => ⟨h.plain shallow last, Value.handed_eq_self_iff⟩,
    fun value found h => renderValue_mapStrings fun s hs => ?_⟩
  obtain ⟨path, rfl, here, shallow⟩ := h s hs
  exact here.json_iff.mpr shallow

/-- Values of every kind, in a string the marks of holes. -/
def basket : Value :=
  .object [("x", .array [.number (.float ⟨false, 6755399441055744, -52⟩), .bool true, .null]),
    ("y\x7d", .string "\x7d\x7d\"é\x7b\x7b")]

/-- A string that spells a value. -/
def listed : Value := .string "[1]"

def shelf : Value := .object [("basket", basket), ("list", listed)]

theorem found_basket : Found shelf "basket" basket := by
  have read : ∀ n ∈ basket.numbers, n.spelling.number? = some n := by decide +kernel
  refine ⟨⟨by decide, by decide⟩, by rfl, by decide, fun n hn => ?_,
    fun x hx => Value.ofJson?_number_iff.mpr (read _ hx)⟩
  simp [basket, Value.numbers, Value.memberNumbers, Value.itemNumbers] at hn

theorem found_listed : Found shelf " list " listed :=
  ⟨⟨by decide, by decide⟩, by rfl, .string _, nofun, nofun⟩

/-- The holes of two values, one of them inside a list. -/
def order : Value :=
  .object [("basket", .array [.string (jsonHole "basket"), .int 2]),
    ("list", .string (jsonHole " list "))]

theorem hand_over_shelf :
    Found shelf "basket" basket ∧ Found shelf " list " listed ∧
      renderToValue "\x7b\x7bbasket|json\x7d\x7d" shelf = .ok basket ∧
      renderToValue "\x7b\x7b list \x7d\x7d" shelf = .ok (.array [.int 1]) ∧
      renderValue shelf order =
        .ok (.object [("basket", .array [basket, .int 2]), ("list", listed)]) := by
  obtain ⟨json, plain, all⟩ := hand_over shelf
  have spelled : listed.handed = .array [.int 1] := by cbv
  refine ⟨found_basket, found_listed, (json _ _ found_basket).mpr (by decide), ?_, ?_⟩
  · exact spelled ▸ (plain _ _ found_listed (by decide) (by decide)).1
  · have other : jsonHole " list " ≠ jsonHole "basket" := by decide
    have filled := all order (fun s => if s = jsonHole "basket" then basket else listed) ?_
    · simpa [order, Value.mapStrings, Value.memberMapStrings, Value.itemMapStrings, Value.int,
        other] using filled
    · intro s hs
      have either : s = jsonHole "basket" ∨ s = jsonHole " list " := by
        simpa [order, Value.leaves, Value.memberLeaves, Value.itemLeaves, Value.int] using hs
      rcases either with rfl | rfl
      · refine ⟨"basket", rfl, ?_⟩
        rw [if_pos rfl]
        exact ⟨found_basket, by decide⟩
      · refine ⟨" list ", rfl, ?_⟩
        rw [if_neg other]
        exact ⟨found_listed, by decide⟩

end Template

end CommandContract
