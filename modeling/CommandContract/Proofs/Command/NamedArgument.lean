import CommandContract.Proofs.Argument.Split
import CommandContract.Proofs.Command.Line
import CommandContract.Proofs.Literal.Strict
import CommandContract.Proofs.Validation.Prepared

set_option autoImplicit false

/-!
# One named argument

A line with a command and one argument, the name of the argument before an equals sign and behind it
the compact text of a value. The text in the parentheses is no literal, nothing in the value
separates arguments, and the sign is the first of those outside of all brackets; so the value of the
argument is what its own text gives: `readLine_function`.
-/
namespace CommandContract.Call

variable {tree : FileTree} {m : Manifest} {spec : CommandSpec} {k c : String}

/-! ## Keys -/

variable {cs : List Char}

def isKeyChar (c : Char) : Bool := c.isAlphanum || c = '_' || c = '$' || c = '-'

theorem exists_key (h : isKey cs = true) : ∃ c ds, cs = c :: ds ∧
    (c.isAlpha = true ∨ c = '_' ∨ c = '$') ∧ ∀ d ∈ cs, isKeyChar d = true := by
  cases cs with
  | nil => cases h
  | cons c ds =>
    obtain ⟨start, all⟩ := Bool.and_eq_true_iff.mp h
    simp only [Bool.or_eq_true, decide_eq_true_eq, or_assoc] at start
    refine ⟨c, ds, rfl, start, List.forall_mem_cons.mpr ⟨?_, List.all_eq_true.mp all⟩⟩
    rcases start with letter | rfl | rfl
    · simp [isKeyChar, Char.isAlphanum, letter]
    · rfl
    · rfl

theorem isBlank_of_isKeyChar {d : Char} (h : isKeyChar d = true) : Text.isBlank d = false := by
  simp only [isKeyChar, Bool.or_eq_true, decide_eq_true_eq] at h
  rcases h with ((h | rfl) | rfl) | rfl
  · exact Text.isBlank_of_isAlphanum h
  all_goals decide

theorem printed_of_isKeyChar {d : Char} (h : isKeyChar d = true) : 0x20 ≤ d.toNat := by
  simp only [isKeyChar, Bool.or_eq_true, decide_eq_true_eq] at h
  rcases h with ((h | rfl) | rfl) | rfl
  · rcases Bool.or_eq_true_iff.mp h with letter | digit
    · have := Text.toNat_of_isAlpha letter
      omega
    · have := toNat_of_isDigit digit
      omega
  all_goals decide

theorem tight_key (h : isKey cs = true) : Text.Tight cs := by
  obtain ⟨c, ds, rfl, -, all⟩ := exists_key h
  exact Text.tight_of_all (List.cons_ne_nil c ds) fun d hd => isBlank_of_isKeyChar (all d hd)

theorem plain_key (h : isKey cs = true) : ∀ d ∈ cs, d ∉ Argument.marks := by
  obtain ⟨_, _, _, -, all⟩ := exists_key h
  exact fun d hd => Text.not_mem_of_any (by decide) (all d hd)

theorem not_mem_key {d : Char} (h : isKey cs = true) (other : isKeyChar d = false) : d ∉ cs := by
  obtain ⟨_, _, _, -, all⟩ := exists_key h
  intro hd
  rw [all d hd] at other
  cases other

/-- The printer escapes nothing in a key. -/
theorem quoted_key {k : String} (h : isKey k.toList = true) :
    Json.quoted k = '"' :: (k.toList ++ ['"']) := by
  obtain ⟨_, _, _, -, all⟩ := exists_key h
  have alone : ∀ d ∈ k.toList, Json.escapeChar d = [d] := by
    intro d hd
    have keyChar := all d hd
    refine Json.escapeChar_of_printed ?_ ?_ (printed_of_isKeyChar keyChar)
    · rintro rfl
      cases keyChar
    · rintro rfl
      cases keyChar
  rw [Json.quoted, List.flatMap_congr alone, List.flatMap_singleton']

/-! ## Named arguments -/

theorem not_isNumberStart_of_start {c : Char} (h : c.isAlpha = true ∨ c = '_' ∨ c = '$') :
    Literal.isNumberStart c = false := by
  rcases h with letter | rfl | rfl
  · rw [← Bool.not_eq_true]
    intro number
    simp only [Literal.isNumberStart, Bool.or_eq_true, decide_eq_true_eq] at number
    have code := Text.toNat_of_isAlpha letter
    rcases number with ((digit | rfl) | rfl) | rfl
    · have := toNat_of_isDigit digit
      omega
    all_goals exact absurd letter (by decide)
  · rfl
  · rfl

/-- A text with an equals sign in it that begins like a word. -/
structure Named (text : List Char) : Prop where
  equals : '=' ∈ text
  solid : ∀ c ∈ text.head?, Text.isBlank c = false
  number : ∀ c ∈ text.head?, Literal.isNumberStart c = false
  bracket : ∀ c ∈ text.head?, c ∉ ['"', '\'', '[', '\x7b']

theorem named_of_key (h : isKey cs = true) (rest : List Char) : Named (cs ++ '=' :: rest) := by
  obtain ⟨c, ds, rfl, start, all⟩ := exists_key h
  have first := all c List.mem_cons_self
  refine ⟨List.mem_append_right _ List.mem_cons_self, ?_, ?_, ?_⟩
  · rintro c ⟨⟩
    exact isBlank_of_isKeyChar first
  · rintro c ⟨⟩
    exact not_isNumberStart_of_start start
  · rintro c ⟨⟩
    exact Text.not_mem_of_any (by decide) first

/-- The equals sign stands behind the word, where it may not be skipped. -/
theorem Named.not_skips {ofClass : Char → Bool} {text es : List Char} (h : Named text)
    (word : List Char) (split : text = word ++ es) (none : '=' ∉ word)
    (other : ofClass '=' = false) : ¬ Text.Skips ofClass es [] := by
  intro skips
  have equals := h.equals
  rw [split] at equals
  have inside := skips.all _ ((List.mem_append.mp equals).resolve_left none)
  rw [other] at inside
  cases inside

theorem Named.ofJson?_ne {text : String} (h : Named text.toList) (v : Value) :
    Value.ofJson? text ≠ some v := by
  intro strict
  obtain ⟨o, ⟨before, spells, behind⟩, -⟩ := Json.exists_outline strict
  have blanks := before.mono Literal.isBlank_of_isSpace
  rw [← blanks.eq_of_head h.solid] at spells
  generalize text.toList = cs at h spells
  cases spells with
  | null es => exact h.not_skips ['n', 'u', 'l', 'l'] rfl (by decide) rfl behind
  | yes es => exact h.not_skips ['t', 'r', 'u', 'e'] rfl (by decide) rfl behind
  | no es => exact h.not_skips ['f', 'a', 'l', 's', 'e'] rfl (by decide) rfl behind
  | numeral valid split =>
    obtain ⟨c, _, text, start⟩ := valid.begins
    have first : cs.head? = some c := by
      rw [split, text]
      rfl
    have number := h.number c first
    rw [Literal.isNumberStart_of_isNumeralStart start] at number
    cases number
  | string | emptyArray | array | emptyObject | object => exact h.bracket _ rfl (by decide)

theorem Named.parse_ne {text : String} (h : Named text.toList) (v : Value) :
    Literal.parse text ≠ .ok v := by
  rw [Ne, Literal.parse_eq_ok_iff_readWhole, Literal.readWhole_eq_ok_iff]
  rintro ⟨before, spells, behind⟩
  rw [← before.eq_of_head h.solid] at spells
  generalize text.toList = cs at h spells
  cases spells with
  | keyword _ run =>
    exact h.not_skips _ run.split (fun inside => absurd (run.all _ inside) (by decide)) rfl behind
  | number spelled =>
    obtain ⟨start, -, -⟩ := spelled
    rw [h.number _ rfl] at start
    cases start
  | string quoted =>
    obtain ⟨quote, _, rfl, kind⟩ := quoted.kind
    rcases kind with rfl | rfl <;> exact h.bracket _ rfl (by decide)
  | emptyArray | array | emptyObject | object => exact h.bracket _ rfl (by decide)

/-- A key with an equals sign behind it is no literal. -/
theorem parseJsonFirst_named (h : isKey cs = true) (rest : List Char) :
    ∃ error, Literal.parseJsonFirst (String.ofList (cs ++ '=' :: rest)) = .error error := by
  have named : Named (String.ofList (cs ++ '=' :: rest)).toList := by
    rw [String.toList_ofList]
    exact named_of_key h rest
  have strict := Option.eq_none_iff_forall_ne_some.mpr named.ofJson?_ne
  rw [Literal.parseJsonFirst, strict]
  cases lenient : Literal.parse (String.ofList (cs ++ '=' :: rest)) with
  | error error => exact ⟨error, rfl⟩
  | ok v => exact absurd lenient (named.parse_ne v)

theorem tight_named (key : isKey k.toList = true) (v : Value) :
    Text.Tight (k.toList ++ '=' :: v.compact.toList) := by
  have whole := (tight_key key).append ['='] v.tight_compact
  simpa using whole

/-- Nothing in the value separates it from its name. -/
theorem passes_named (key : isKey k.toList = true) (v : Value) :
    Argument.Passes ',' [] (k.toList ++ '=' :: v.compact.toList) [] := by
  have text : v.compact.toList = Json.write v := String.toList_ofList
  have name : Argument.Passes ',' [] k.toList [] :=
    Argument.passes_plain (plain_key key) (not_mem_key key rfl)
  have sign : Argument.Passes ',' [] ['='] [] :=
    Argument.passes_char (by decide) fun h => absurd h (by decide)
  rw [text]
  exact name.trans (sign.trans (Argument.passes_write v []))

theorem ofToken_named (key : isKey k.toList = true) (v : Value) :
    Argument.ofToken (k.toList ++ '=' :: v.compact.toList) =
      .named k.toList v.compact.toList := by
  have cut := Argument.cutAtEquals?_append (plain_key key) (not_mem_key key rfl) v.compact.toList
  simp only [Argument.ofToken, cut, Text.trim_of_tight (tight_key key), key, if_true]

theorem namedArguments_single (declared : k ∈ Members.keys spec.parameters) (token : List Char) :
    namedArguments spec [.named k.toList token] =
      .ok [(k, CommandContract.Argument.tokenValue token)] := by
  obtain ⟨p, found⟩ := Parameters.find?_of_mem_keys declared
  rw [namedArguments]
  simp only [List.filterMapM_cons, List.filterMapM_nil, String.ofList_toList, found]
  rfl

theorem listArguments_named (declared : k ∈ Members.keys spec.parameters)
    (key : isKey k.toList = true) (v : Value) :
    listArguments spec (k.toList ++ '=' :: v.compact.toList) =
      .ok [(k, CommandContract.Argument.tokenValue v.compact.toList)] := by
  have tight := tight_named key v
  have nonempty : (k.toList ++ '=' :: v.compact.toList).isEmpty = false :=
    List.isEmpty_eq_false_iff.mpr tight.ne_nil
  have unplaced : positionalTokens [.named k.toList v.compact.toList] = [] := rfl
  have filled : ∀ slots, fillSlots spec.name slots [] = .ok [] := by
    intro slots
    cases slots <;> rfl
  rw [listArguments, (passes_named key v).split]
  simp only [List.map_cons, List.map_nil, Text.trim_of_tight tight, List.filter_cons, nonempty,
    Bool.not_false, if_true, List.filter_nil, ofToken_named key, namedArguments_single declared,
    unplaced, bind, Except.bind, filled]
  rfl

/-! ## The line -/

theorem bodyArguments_named (declared : k ∈ Members.keys spec.parameters)
    (key : isKey k.toList = true) (v : Value) :
    bodyArguments tree spec (k.toList ++ '=' :: v.compact.toList) =
      .ok [(k, CommandContract.Argument.tokenValue v.compact.toList)] := by
  have nonempty : (k.toList ++ '=' :: v.compact.toList).isEmpty = false :=
    List.isEmpty_eq_false_iff.mpr (tight_named key v).ne_nil
  obtain ⟨error, refused⟩ := parseJsonFirst_named key v.compact.toList
  have unread : literalArguments tree spec (k.toList ++ '=' :: v.compact.toList) = .ok none := by
    rw [literalArguments, refused]
  rw [bodyArguments, nonempty, unread]
  exact listArguments_named declared key v

theorem readLine_function (tree : FileTree) (known : m.get? c = some spec)
    (ident : isName c.toList = true) (key : isKey k.toList = true)
    (declared : k ∈ Members.keys spec.parameters) (v : Value) :
    readLine tree m (c ++ "(" ++ k ++ "=" ++ v.compact ++ ")") =
      .ok ⟨spec.name, [(k, CommandContract.Argument.tokenValue v.compact.toList)]⟩ := by
  have line : c ++ "(" ++ k ++ "=" ++ v.compact ++ ")" =
      String.ofList (c.toList ++ '(' :: ((k.toList ++ '=' :: v.compact.toList) ++ ')' :: [])) := by
    rw [← String.toList_inj]
    simp
  rw [line, readLine_parenthesized known ident (Text.padded_self c.toList) _ (by nofun),
    Text.trim_of_tight (tight_named key v), bodyArguments_named declared key]
  rfl

end CommandContract.Call
