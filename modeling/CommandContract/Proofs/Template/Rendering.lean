import Mathlib
import CommandContract.Template
import CommandContract.Proofs.Except
import CommandContract.Proofs.Text.Bytes
import CommandContract.Proofs.Text.Pieces
import CommandContract.Proofs.Text.Trim

set_option autoImplicit false

/-!
# Rendering templates

What a template is rendered to, said without a scanner. Every text falls into literal texts with
holes behind them and a last part, which has no opening mark or an opening mark that is never
closed; a hole is a path with filters behind it. The values of the holes go between the literal
texts as they are. The first hole with an unknown filter is reported, else the opening mark that is
never closed, at its place in the whole text: `render_reads`.
-/
namespace CommandContract

namespace Template

variable {context : Value} {found : Option Value} {cs rest : List Char}

/-! ## Filters -/

inductive Filter where
  | basename
  | json
  | lower
  | upper
  | trim
  deriving DecidableEq, Repr

namespace Filter

def name : Filter → String
  | basename => "basename"
  | json => "json"
  | lower => "lower"
  | upper => "upper"
  | trim => "trim"

/-- What a filter makes of a value, or of nothing. Only `json` looks at more than its text. -/
def apply (found : Option Value) : Filter → String
  | basename => Path.basename (Value.textOf found)
  | json => (found.getD .null).compact
  | lower => Text.lower (Value.textOf found)
  | upper => Text.upper (Value.textOf found)
  | trim => (Value.textOf found).trimBlank

/-- A filter works on the text that the one before it made. -/
def applyAll (found : Option Value) (filters : List Filter) : Option Value :=
  filters.foldl (fun found f => some (.string (f.apply found))) found

end Filter

def Unknown (name : String) : Prop := ∀ f : Filter, f.name ≠ name

theorem filter?_name (f : Filter) : filter? f.name = some f.apply := by
  cases f <;> rfl

theorem unknown_or (name : String) : Unknown name ∨ ∃ f : Filter, f.name = name := by
  by_cases h : ∃ f : Filter, f.name = name
  · exact .inr h
  · exact .inl fun f hf => h ⟨f, hf⟩

theorem filter?_of_unknown {name : String} (h : Unknown name) : filter? name = none := by
  unfold filter?
  split
  · exact absurd rfl (h .basename)
  · exact absurd rfl (h .json)
  · exact absurd rfl (h .lower)
  · exact absurd rfl (h .upper)
  · exact absurd rfl (h .trim)
  · rfl

theorem applyFilters_append (found : Option Value) (filters : List Filter) (names : List String) :
    applyFilters found (filters.map Filter.name ++ names) =
      applyFilters (Filter.applyAll found filters) names := by
  induction filters generalizing found with
  | nil => rfl
  | cons f filters ih =>
    rw [List.map_cons, List.cons_append, applyFilters, filter?_name]
    exact ih _

theorem applyFilters_unknown {name : String} (h : Unknown name) (names : List String) :
    applyFilters found (name :: names) = .error (.unknownFilter name) := by
  rw [applyFilters, filter?_of_unknown h]

/-! ## Holes as they are written -/

/-- A literal text and the hole behind it: a path, and filters with a bar in front of each. -/
structure Slot where
  literal : List Char
  path : List Char
  filters : List (List Char)

namespace Slot

/-- What stands between the braces. -/
def inner (s : Slot) : List Char := s.path ++ s.filters.flatMap fun f => '|' :: f

def text (s : Slot) : List Char := s.literal ++ '\x7b' :: '\x7b' :: (s.inner ++ ['\x7d', '\x7d'])

/-- The hole begins where the literal text ends, ends where its inner text does, and is cut at its
bars. -/
structure Stands (s : Slot) : Prop where
  literal : ¬ ['\x7b', '\x7b'] <:+: s.literal
  literalEnd : s.literal.getLast? ≠ some '\x7b'
  inner : ¬ ['\x7d', '\x7d'] <:+: s.inner
  innerEnd : s.inner.getLast? ≠ some '\x7d'
  path : '|' ∉ s.path
  filters : ∀ f ∈ s.filters, '|' ∉ f

/-- The names of the filters, without the blanks around them. -/
def names (s : Slot) : List String := s.filters.map fun f => String.ofList (Text.trim f)

def hole (s : Slot) : Hole := ⟨String.ofList s.path, s.names⟩

/-- The filters of the hole are known ones. -/
def Filtered (s : Slot) (filters : List Filter) : Prop := s.names = filters.map Filter.name

/-- The filters of the hole are known up to one that is not. -/
def Faulty (s : Slot) (name : String) : Prop :=
  ∃ (filters : List Filter) (others : List String),
    s.names = filters.map Filter.name ++ name :: others ∧ Unknown name

/-- The text of the value at the path, after the filters. -/
def value (s : Slot) (context : Value) (filters : List Filter) : List Char :=
  (Value.textOf (Filter.applyAll (context.lookup? (String.ofList s.path)) filters)).toList

variable {s : Slot} {filters : List Filter} {name : String}

theorem intercalate_pieces (path : List Char) (filters : List (List Char)) :
    ['|'].intercalate (path :: filters) = path ++ filters.flatMap fun f => '|' :: f := by
  induction filters generalizing path with
  | nil => simp [List.intercalate]
  | cons f filters ih =>
    rw [List.intercalate_cons_of_ne_nil (List.cons_ne_nil _ _), ih, List.flatMap_cons]
    simp

theorem Stands.holeOf (h : s.Stands) : holeOf s.inner = s.hole := by
  have pieces : Text.splitOn '|' s.inner = s.path :: s.filters := by
    rw [Slot.inner, ← intercalate_pieces]
    exact Text.splitOn_intercalate (List.cons_ne_nil _ _)
      (List.forall_mem_cons.mpr ⟨h.path, h.filters⟩)
  rw [Template.holeOf, pieces]
  rfl

theorem fill_filtered (h : s.Filtered filters) (context : Value) :
    s.hole.fill context = .ok (s.value context filters) := by
  have applied := applyFilters_append (context.lookup? (String.ofList s.path)) filters []
  rw [List.append_nil, ← h] at applied
  rw [hole, Hole.fill, applied]
  rfl

theorem fill_faulty (h : s.Faulty name) (context : Value) :
    s.hole.fill context = .error (.unknownFilter name) := by
  obtain ⟨filters, others, split, unknown⟩ := h
  rw [hole, Hole.fill, split, applyFilters_append, applyFilters_unknown unknown]
  rfl

/-- The filters are known, or one is the first that is not. -/
theorem filtered_or_faulty (s : Slot) :
    (∃ filters, s.Filtered filters) ∨ ∃ name, s.Faulty name := by
  have all : ∀ names : List String, (∃ filters : List Filter, names = filters.map Filter.name) ∨
      ∃ name, ∃ (filters : List Filter) (others : List String),
        names = filters.map Filter.name ++ name :: others ∧ Unknown name := by
    intro names
    induction names with
    | nil => exact .inl ⟨[], rfl⟩
    | cons first names ih =>
      rcases unknown_or first with unknown | ⟨f, rfl⟩
      · exact .inr ⟨first, [], names, rfl, unknown⟩
      · rcases ih with ⟨filters, rfl⟩ | ⟨name, filters, others, rfl, unknown⟩
        · exact .inl ⟨f :: filters, rfl⟩
        · exact .inr ⟨name, f :: filters, others, rfl, unknown⟩
  exact all s.names

end Slot

/-- A hole that has a value in every context, with the literal text before it. -/
structure Part extends Slot where
  known : List Filter
  stands : toSlot.Stands
  filtered : toSlot.Filtered known

def Part.value (p : Part) (context : Value) : List Char := p.toSlot.value context p.known

/-- Literal texts with their holes, one after the other. -/
def written (parts : List Part) : List Char := parts.flatMap fun p => p.text

/-- What is left behind literal texts and holes has an opening mark, which is never closed. -/
structure Unclosed (before tail : List Char) : Prop where
  literal : ¬ ['\x7b', '\x7b'] <:+: before
  literalEnd : before.getLast? ≠ some '\x7b'
  tail : ¬ ['\x7d', '\x7d'] <:+: tail

/-! ## Scanning -/

section Scan

variable {s : Slot} {parts : List Part} {before tail : List Char} {fuel offset : Nat}

theorem Slot.length_text (s : Slot) : 4 ≤ s.text.length := by
  rw [text, List.length_append, List.length_cons, List.length_cons, List.length_append]
  simp only [List.length_cons, List.length_nil]
  omega

theorem piecesFrom_slot (h : s.Stands) (fuel offset : Nat) (rest : List Char) :
    piecesFrom (fuel + 1) offset (s.text ++ rest) =
      (.text s.literal :: .hole s.hole ::
          (piecesFrom fuel (offset + Text.byteLength s.text) rest).1,
        (piecesFrom fuel (offset + Text.byteLength s.text) rest).2) := by
  have start : Text.cutAtPair? '\x7b' '\x7b' (s.text ++ rest) =
      some (s.literal, s.inner ++ '\x7d' :: '\x7d' :: rest) := by
    refine Text.cutAtPair?_eq_some_iff.mpr ⟨by simp [Slot.text], fun opens => ?_⟩
    exact (Text.pair_infix_append_iff.mp opens).elim h.literal h.literalEnd
  have stop : Text.cutAtPair? '\x7d' '\x7d' (s.inner ++ '\x7d' :: '\x7d' :: rest) =
      some (s.inner, rest) :=
    Text.cutAtPair?_eq_some_iff.mpr ⟨rfl, fun closes =>
      (Text.pair_infix_append_iff.mp closes).elim h.inner h.innerEnd⟩
  have size : offset + Text.byteLength s.literal + Text.byteLength s.inner + 4 =
      offset + Text.byteLength s.text := by
    have brace : '\x7b'.utf8Size = 1 ∧ '\x7d'.utf8Size = 1 := by decide
    simp only [Slot.text, Text.byteLength_append, Text.byteLength, brace.1, brace.2]
    omega
  rw [piecesFrom, start]
  dsimp only
  rw [stop, ← size, ← h.holeOf]

theorem piecesFrom_last (h : ¬ ['\x7b', '\x7b'] <:+: cs) (fuel offset : Nat) :
    piecesFrom fuel offset cs = ([.text cs], none) := by
  cases fuel with
  | zero => rfl
  | succ fuel => rw [piecesFrom, Text.cutAtPair?_eq_none_iff.mpr h]

theorem piecesFrom_unclosed (h : Unclosed before tail) (fuel offset : Nat) :
    piecesFrom (fuel + 1) offset (before ++ '\x7b' :: '\x7b' :: tail) =
      ([.text before], some (offset + Text.byteLength before)) := by
  have start : Text.cutAtPair? '\x7b' '\x7b' (before ++ '\x7b' :: '\x7b' :: tail) =
      some (before, tail) :=
    Text.cutAtPair?_eq_some_iff.mpr ⟨rfl, fun opens =>
      (Text.pair_infix_append_iff.mp opens).elim h.literal h.literalEnd⟩
  rw [piecesFrom, start]
  dsimp only
  rw [Text.cutAtPair?_eq_none_iff.mpr h.tail]

/-- The pieces of a literal text and the hole behind it. -/
def Part.pieces (p : Part) : List Piece := [.text p.literal, .hole p.hole]

theorem piecesFrom_written (parts : List Part) (fuel offset : Nat) (rest : List Char) :
    piecesFrom (fuel + parts.length) offset (written parts ++ rest) =
      (parts.flatMap Part.pieces ++
          (piecesFrom fuel (offset + Text.byteLength (written parts)) rest).1,
        (piecesFrom fuel (offset + Text.byteLength (written parts)) rest).2) := by
  induction parts generalizing offset with
  | nil => rfl
  | cons p parts ih =>
    have split : written (p :: parts) ++ rest = p.text ++ (written parts ++ rest) := by
      rw [written, List.flatMap_cons, List.append_assoc]
      rfl
    have size : offset + Text.byteLength p.text + Text.byteLength (written parts) =
        offset + Text.byteLength (written (p :: parts)) := by
      rw [written, written, List.flatMap_cons, Text.byteLength_append, Nat.add_assoc]
    rw [split, List.length_cons, ← Nat.add_assoc, piecesFrom_slot p.stands, ih, size]
    rfl

theorem length_le_written (parts : List Part) : parts.length ≤ (written parts).length := by
  induction parts with
  | nil => exact Nat.le_refl 0
  | cons p parts ih =>
    have := p.length_text
    rw [written, List.flatMap_cons, List.length_append, List.length_cons]
    rw [written] at ih
    omega

/-- The scan of a template goes on behind its parts with steps enough for the rest. -/
theorem pieces_written {template : String} (h : template.toList = written parts ++ rest) :
    ∃ fuel, rest.length ≤ fuel ∧ pieces template =
      (parts.flatMap Part.pieces ++
          (piecesFrom fuel (Text.byteLength (written parts)) rest).1,
        (piecesFrom fuel (Text.byteLength (written parts)) rest).2) := by
  have enough := length_le_written parts
  have size : template.length = (written parts).length + rest.length := by
    rw [← String.length_toList, h, List.length_append]
  refine ⟨template.length - parts.length, by omega, ?_⟩
  have steps : template.length = template.length - parts.length + parts.length := by omega
  rw [pieces, h, steps, piecesFrom_written, Nat.add_sub_cancel, Nat.zero_add]

end Scan

/-! ## Values -/

section Values

variable {s : Slot} {name : String} {parts : List Part} {before tail last : List Char}
  {template : String}

theorem renderPieces_parts (context : Value) (parts : List Part) (more : List Piece) :
    renderPieces context (parts.flatMap Part.pieces ++ more) =
      (renderPieces context more).map
        ((parts.flatMap fun p => p.literal ++ p.value context) ++ ·) := by
  induction parts with
  | nil =>
    change renderPieces context more = _
    cases renderPieces context more <;> rfl
  | cons p parts ih =>
    have here := Slot.fill_filtered p.filtered context
    rw [List.flatMap_cons, List.append_assoc]
    change (do
      let first ← Except.ok p.literal
      let rest ← (do
        let first ← p.hole.fill context
        let rest ← renderPieces context (parts.flatMap Part.pieces ++ more)
        .ok (first ++ rest))
      .ok (first ++ rest)) = _
    rw [here, ih]
    cases renderPieces context more with
    | error e => rfl
    | ok chars => simp [Except.map, bind, Except.bind, Part.value]

theorem render_closed (h : template.toList = written parts ++ last)
    (closed : ¬ ['\x7b', '\x7b'] <:+: last) (context : Value) : render template context =
      .ok (String.ofList ((parts.flatMap fun p => p.literal ++ p.value context) ++ last)) := by
  obtain ⟨fuel, -, scanned⟩ := pieces_written h
  rw [piecesFrom_last closed] at scanned
  have rendered := renderPieces_parts context parts [.text last]
  simp [render, scanned, rendered, renderPieces, Piece.render, bind, Except.bind, Except.map]

theorem render_unclosed (h : template.toList = written parts ++ (before ++ '\x7b' :: '\x7b' :: tail))
    (unclosed : Unclosed before tail) (context : Value) : render template context =
      .error (.unterminated (String.ofList (written parts ++ before)).utf8ByteSize) := by
  obtain ⟨fuel, enough, scanned⟩ := pieces_written h
  obtain ⟨fuel, rfl⟩ : ∃ n, fuel = n + 1 := ⟨fuel - 1, by simp at enough; omega⟩
  rw [piecesFrom_unclosed unclosed, ← Text.byteLength_append] at scanned
  have rendered := renderPieces_parts context parts [.text before]
  simp [render, scanned, rendered, renderPieces, Piece.render, bind, Except.bind, Except.map,
    Text.byteLength_eq]

theorem render_faulty (h : template.toList = written parts ++ (s.text ++ rest)) (stands : s.Stands)
    (faulty : s.Faulty name) (context : Value) :
    render template context = .error (.unknownFilter name) := by
  obtain ⟨fuel, enough, scanned⟩ := pieces_written h
  have := s.length_text
  obtain ⟨fuel, rfl⟩ : ∃ n, fuel = n + 1 := ⟨fuel - 1, by simp at enough; omega⟩
  rw [piecesFrom_slot stands] at scanned
  have rendered := renderPieces_parts context parts (.text s.literal :: .hole s.hole ::
    (piecesFrom fuel (Text.byteLength (written parts) + Text.byteLength s.text) rest).1)
  have here := Slot.fill_faulty faulty context
  simp [render, scanned, rendered, renderPieces, Piece.render, here, bind, Except.bind, Except.map]

end Values

/-! ## Every template -/

/-- What the scan of a text comes to: its end, a mark that is never closed, or a hole with an unknown
filter, each behind holes that have values. -/
inductive Course (cs : List Char) : Prop
  | closed (parts : List Part) (last : List Char) (split : cs = written parts ++ last)
      (h : ¬ ['\x7b', '\x7b'] <:+: last)
  | unclosed (parts : List Part) (before tail : List Char)
      (split : cs = written parts ++ (before ++ '\x7b' :: '\x7b' :: tail))
      (h : Unclosed before tail)
  | faulty (parts : List Part) (s : Slot) (rest : List Char) (name : String)
      (split : cs = written parts ++ (s.text ++ rest)) (stands : s.Stands) (h : s.Faulty name)

theorem Course.behind (h : Course rest) (p : Part) : Course (p.text ++ rest) := by
  have more : ∀ (parts : List Part) (cs : List Char),
      p.text ++ (written parts ++ cs) = written (p :: parts) ++ cs := by
    intro parts cs
    rw [written, written, List.flatMap_cons, List.append_assoc]
  cases h with
  | closed parts last split h => exact .closed (p :: parts) last (by rw [split, more]) h
  | unclosed parts before tail split h =>
    exact .unclosed (p :: parts) before tail (by rw [split, more]) h
  | faulty parts s rest name split stands h =>
    exact .faulty (p :: parts) s rest name (by rw [split, more]) stands h

/-- What stands between the braces of a hole is a path with filters behind it. -/
theorem exists_slot (literal inner : List Char) : ∃ s : Slot, s.literal = literal ∧
    s.inner = inner ∧ '|' ∉ s.path ∧ ∀ f ∈ s.filters, '|' ∉ f := by
  have joined : ['|'].intercalate (Text.splitOn '|' inner) = inner := Text.intercalate_splitOn _ _
  have free : ∀ piece ∈ Text.splitOn '|' inner, '|' ∉ piece := fun _ => Text.not_mem_of_mem_splitOn
  cases pieces : Text.splitOn '|' inner with
  | nil => exact absurd pieces (Text.splitOn_ne_nil _ _)
  | cons path filters =>
    rw [pieces] at joined free
    rw [List.forall_mem_cons] at free
    refine ⟨⟨literal, path, filters⟩, rfl, ?_, free.1, free.2⟩
    rw [Slot.inner, ← Slot.intercalate_pieces, joined]

theorem course (cs : List Char) : Course cs := by
  induction hn : cs.length using Nat.strong_induction_on generalizing cs with
  | _ n ih =>
    cases opening : Text.cutAtPair? '\x7b' '\x7b' cs with
    | none => exact .closed [] cs rfl (Text.cutAtPair?_eq_none_iff.mp opening)
    | some found =>
      obtain ⟨literal, after⟩ := found
      obtain ⟨rfl, first⟩ := Text.cutAtPair?_eq_some_iff.mp opening
      rw [Text.pair_infix_append_iff, not_or] at first
      cases closing : Text.cutAtPair? '\x7d' '\x7d' after with
      | none =>
        exact .unclosed [] literal after rfl
          ⟨first.1, first.2, Text.cutAtPair?_eq_none_iff.mp closing⟩
      | some found =>
        obtain ⟨inner, rest⟩ := found
        obtain ⟨rfl, last⟩ := Text.cutAtPair?_eq_some_iff.mp closing
        rw [Text.pair_infix_append_iff, not_or] at last
        obtain ⟨s, rfl, rfl, path, filters⟩ := exists_slot literal inner
        have stands : s.Stands := ⟨first.1, first.2, last.1, last.2, path, filters⟩
        have text : s.literal ++ '\x7b' :: '\x7b' :: (s.inner ++ '\x7d' :: '\x7d' :: rest) =
            s.text ++ rest := by simp [Slot.text]
        have shorter : rest.length < n := by
          have := s.length_text
          rw [← hn, text, List.length_append]
          omega
        rw [text]
        rcases s.filtered_or_faulty with ⟨known, filtered⟩ | ⟨name, faulty⟩
        · exact (ih _ shorter rest rfl).behind ⟨s, known, stands, filtered⟩
        · exact .faulty [] s rest name rfl stands faulty

/-- What is reported is a mark that is never closed, or a hole with an unknown filter. -/
theorem render_error {template : String} {context : Value} {e : TemplateError}
    (h : render template context = .error e) :
    (∃ (parts : List Part) (before tail : List Char),
      template.toList = written parts ++ (before ++ '\x7b' :: '\x7b' :: tail) ∧
        Unclosed before tail ∧
        e = .unterminated (String.ofList (written parts ++ before)).utf8ByteSize) ∨
    ∃ (parts : List Part) (s : Slot) (rest : List Char) (name : String),
      template.toList = written parts ++ (s.text ++ rest) ∧ s.Stands ∧ s.Faulty name ∧
        e = .unknownFilter name := by
  cases course template.toList with
  | closed parts last split closed => cases (render_closed split closed context).symm.trans h
  | unclosed parts before tail split unclosed =>
    cases (render_unclosed split unclosed context).symm.trans h
    exact .inl ⟨parts, before, tail, split, unclosed, rfl⟩
  | faulty parts s rest name split stands faulty =>
    cases (render_faulty split stands faulty context).symm.trans h
    exact .inr ⟨parts, s, rest, name, split, stands, faulty, rfl⟩

theorem render_reads (context : Value) :
    (∀ (parts : List Part) (last : List Char), ¬ ['\x7b', '\x7b'] <:+: last →
      render (String.ofList (written parts ++ last)) context =
        .ok (String.ofList ((parts.flatMap fun p => p.literal ++ p.value context) ++ last))) ∧
    (∀ (template : String) (offset : Nat),
      render template context = .error (.unterminated offset) ↔
        ∃ (parts : List Part) (before tail : List Char),
          template.toList = written parts ++ (before ++ '\x7b' :: '\x7b' :: tail) ∧
            Unclosed before tail ∧
            offset = (String.ofList (written parts ++ before)).utf8ByteSize) ∧
    (∀ template name : String, render template context = .error (.unknownFilter name) ↔
      ∃ (parts : List Part) (s : Slot) (rest : List Char),
        template.toList = written parts ++ (s.text ++ rest) ∧ s.Stands ∧ s.Faulty name) ∧
    ∀ template e, render template context = .error e →
      (∃ offset, e = .unterminated offset) ∨ ∃ name, e = .unknownFilter name := by
  refine ⟨fun parts last closed => render_closed String.toList_ofList closed context,
    fun template offset => ⟨fun h => ?_, ?_⟩, fun template name => ⟨fun h => ?_, ?_⟩,
    fun template e h => ?_⟩
  · rcases render_error h with ⟨parts, before, tail, split, unclosed, same⟩ | ⟨_, _, _, _, _, _, _, ⟨⟩⟩
    exact ⟨parts, before, tail, split, unclosed, TemplateError.unterminated.inj same⟩
  · rintro ⟨parts, before, tail, split, unclosed, rfl⟩
    exact render_unclosed split unclosed context
  · rcases render_error h with ⟨_, _, _, _, _, ⟨⟩⟩ | ⟨parts, s, rest, _, split, stands, faulty, same⟩
    cases same
    exact ⟨parts, s, rest, split, stands, faulty⟩
  · rintro ⟨parts, s, rest, split, stands, faulty⟩
    exact render_faulty split stands faulty context
  · rcases render_error h with ⟨_, _, _, _, _, same⟩ | ⟨_, _, _, name, _, _, _, same⟩
    · exact .inl ⟨_, same⟩
    · exact .inr ⟨name, same⟩

/-- A hole with blanks and two filters behind a text with a single brace. -/
def shouted : Part where
  literal := ['é', '\x7b', ' ']
  path := [' ', 'a', ' ']
  filters := [" upper ".toList, " trim ".toList]
  known := [.upper, .trim]
  stands := ⟨by decide, by decide, by decide, by decide, by decide, by decide⟩
  filtered := by
    unfold Slot.Filtered
    decide +kernel

def plain : Part where
  literal := ['-']
  path := ['b']
  filters := []
  known := []
  stands := ⟨by decide, by decide, by decide, by decide, by decide, by decide⟩
  filtered := rfl

/-- Values with marks in them. -/
def marked : Value :=
  .object [("a", .string " x\x7b\x7bb\x7d\x7d "), ("b", .string "\x7b\x7b")]

theorem render_reads_marked :
    ¬ ['\x7b', '\x7b'] <:+: ['\x7b'] ∧
      render "é\x7b \x7b\x7b a | upper | trim \x7d\x7d-\x7b\x7bb\x7d\x7d\x7b" marked =
        .ok "é\x7b X\x7b\x7bB\x7d\x7d-\x7b\x7b\x7b" ∧
      render "-\x7b\x7bb\x7d\x7dé\x7b\x7bb\x7d" marked = .error (.unterminated 8) := by
  obtain ⟨closed, unclosed, -⟩ := render_reads marked
  have last : ¬ ['\x7b', '\x7b'] <:+: ['\x7b'] := by decide
  refine ⟨last, ?_, (unclosed _ _).mpr ⟨[plain], ['é'], ['b', '\x7d'], ?_, ?_, ?_⟩⟩
  · have text : String.ofList (written [shouted, plain] ++ ['\x7b']) =
        "é\x7b \x7b\x7b a | upper | trim \x7d\x7d-\x7b\x7bb\x7d\x7d\x7b" := by decide +kernel
    rw [← text, closed [shouted, plain] ['\x7b'] last]
    exact congrArg Except.ok (by decide +kernel)
  · decide
  · exact ⟨by decide, by decide, by decide⟩
  · decide

end Template

end CommandContract
