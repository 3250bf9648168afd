import CommandContract.Proofs.Argument.Quoting
import CommandContract.Proofs.Command.ListArguments
import CommandContract.Proofs.Command.NamedArgument

set_option autoImplicit false

/-!
# Quoted arguments

A list of arguments that are all quoted strings, each by place or under the key of its own
parameter. Quotes, backslashes, commas, brackets and equals signs in the strings mean nothing to the
list: every string reaches its parameter as it was, `listArguments_quoted`.
-/
namespace CommandContract.Call

open CommandContract.Argument (Protects Whole cutAtEquals?_append cutAtEquals?_quote isQuote
  protects_quote quote split_intercalate tight_quote tokenValue tokenValue_quote whole_of_plain
  whole_quote)

/-! ## Strings and their texts -/

/-- A string by place, or for a parameter. -/
inductive Given where
  | byPlace (text : String)
  | byKey (name text : String)

def Given.text : Given → String
  | byPlace text => text
  | byKey _ text => text

/-- The strings by place, in order. -/
def placed (gs : List Given) : List String :=
  gs.filterMap fun
    | .byPlace text => some text
    | .byKey _ _ => none

/-- The strings by key, in order, each under the name of its parameter. -/
def keyed (gs : List Given) : List (String × String) :=
  gs.filterMap fun
    | .byPlace _ => none
    | .byKey name text => some (name, text)

/-- The required parameters that get no string by key, in declared order. -/
def openNames (spec : CommandSpec) (gs : List Given) : List String :=
  (spec.parameters.required.map (·.1)).filter fun name => name ∉ Members.keys (keyed gs)

/-- Which parameter gets which string. -/
def assigned (spec : CommandSpec) (gs : List Given) : List (String × String) :=
  (openNames spec gs).zip (placed gs) ++ keyed gs

/-- The piece of a list that gives the string: the string in quotes, behind an equals sign if it has
a key, and blanks anywhere around. -/
inductive Writes (spec : CommandSpec) : Given → List Char → Prop
  | byPlace {q : Char} {text : String} {piece : List Char} (kind : isQuote q = true)
      (padded : Text.Padded (quote q text.toList) piece) : Writes spec (.byPlace text) piece
  | byKey {q : Char} {name text : String} {key before behind : List Char} (form : isKey key = true)
      (declared : Validation.declared? spec.parameters (String.ofList key) = some name)
      (kind : isQuote q = true) (front : Text.Padded key before)
      (back : Text.Padded (quote q text.toList) behind) :
      Writes spec (.byKey name text) (before ++ '=' :: behind)

variable {spec : CommandSpec} {g : Given} {gs : List Given} {piece cs text : List Char}
  {pieces tokens : List (List Char)}

/-! ## One piece -/

theorem whole_blank (h : ∀ c ∈ cs, Text.isBlank c = true) : Whole ',' cs :=
  whole_of_plain (fun c hc => Text.not_mem_of_any (by decide) (h c hc)) fun hc =>
    absurd (h _ hc) (by decide)

theorem whole_padded (padded : Text.Padded cs text) (h : Whole ',' cs) : Whole ',' text := by
  obtain ⟨front, back⟩ := padded
  exact ((whole_blank front).append h).append (whole_blank back)

theorem Writes.whole (h : Writes spec g piece) : Whole ',' piece := by
  cases h with
  | byPlace kind padded => exact whole_padded padded (whole_quote kind _)
  | byKey form _ kind front back =>
    have name : Whole ',' _ := whole_of_plain (plain_key form) (not_mem_key form rfl)
    have sign : Whole ',' ['='] :=
      whole_of_plain (List.forall_mem_singleton.mpr (by decide)) (by decide)
    exact (whole_padded front name).append
      (sign.append (whole_padded back (whole_quote kind _)))

/-- What a token says: a string by place, or a string for a parameter. -/
inductive Says (spec : CommandSpec) : Given → List Char → Prop
  | byPlace {text : String} {token : List Char} (keyless : ∀ key raw, ¬ Keyed token key raw)
      (value : tokenValue token = .string text) : Says spec (.byPlace text) token
  | byKey {name text : String} {token raw : List Char} (gives : GivesByKey spec token name raw)
      (value : tokenValue raw = .string text) : Says spec (.byKey name text) token

theorem keyed_append {key between : List Char} (form : isKey key = true)
    (blank : ∀ c ∈ between, Text.isBlank c = true) (raw : List Char) :
    Keyed (key ++ between ++ '=' :: raw) key raw := by
  have plain := List.forall_mem_append.mpr
    ⟨plain_key form, fun c hc => Text.not_mem_of_any (by decide) (blank c hc)⟩
  have unsigned : '=' ∉ key ++ between :=
    List.not_mem_append (not_mem_key form rfl) fun hc => absurd (blank _ hc) (by decide)
  exact ⟨key ++ between, cutAtEquals?_append plain unsigned raw,
    Text.trim_of_padded (Text.padded_append key blank) (tight_key form), form⟩

/-- The blanks at both ends of a piece do not belong to its token. -/
theorem Writes.says (h : Writes spec g piece) :
    Text.trim piece ≠ [] ∧ Says spec g (Text.trim piece) := by
  cases h with
  | @byPlace q text piece kind padded =>
    have tight := tight_quote kind text.toList
    rw [Text.trim_of_padded padded tight]
    refine ⟨tight.ne_nil, .byPlace ?_ ?_⟩
    · rintro key raw ⟨before, cut, -⟩
      rw [cutAtEquals?_quote kind] at cut
      cases cut
    · have value := tokenValue_quote kind (Text.padded_self (quote q text.toList))
      rwa [String.ofList_toList] at value
  | @byKey q name text key _ _ form declared kind front back =>
    obtain ⟨hb, between⟩ := front
    obtain ⟨space, he⟩ := back
    rename_i before behind front back
    have tight := (tight_key form).append (behind ++ '=' :: front)
      (tight_quote kind text.toList)
    have padded : Text.Padded (key ++ (behind ++ '=' :: front) ++ quote q text.toList)
        (before ++ key ++ behind ++ '=' :: (front ++ quote q text.toList ++ back)) := by
      have whole := @Text.Padded.mk before (key ++ (behind ++ '=' :: front) ++ quote q text.toList)
        back hb he
      simpa using whole
    have keyed : Keyed (key ++ (behind ++ '=' :: front) ++ quote q text.toList) key
        (front ++ quote q text.toList) := by
      have keyed := keyed_append form between (front ++ quote q text.toList)
      simpa using keyed
    have value : tokenValue (front ++ quote q text.toList) = .string text := by
      have start := @Text.Padded.mk front (quote q text.toList) [] space nofun
      rw [List.append_nil] at start
      have value := tokenValue_quote kind start
      rwa [String.ofList_toList] at value
    rw [Text.trim_of_padded padded tight]
    exact ⟨tight.ne_nil, .byKey ⟨key, keyed, declared⟩ value⟩

/-! ## The list -/

theorem Says.declared (h : Says spec g piece) {key raw : List Char} (hk : Keyed piece key raw) :
    spec.parameters.Declares (String.ofList key) := by
  cases h with
  | byPlace keyless _ => exact absurd hk (keyless key raw)
  | byKey gives _ =>
    obtain ⟨key', keyed, declared⟩ := gives
    obtain ⟨rfl, -⟩ := Argument.named.inj
      ((ofToken_eq_named_iff.mpr hk).symm.trans (ofToken_eq_named_iff.mpr keyed))
    by_contra undeclared
    rw [Validation.declared?, Parameters.find?_eq_none_iff.mpr undeclared] at declared
    cases declared

/-- What both passes make of the tokens. -/
structure Conveys (spec : CommandSpec) (gs : List Given) (tokens : List (List Char)) : Prop where
  declared : KeysDeclared spec tokens
  byPlace : (positional tokens).map tokenValue = (placed gs).map .string
  byKey : keyedPairs spec tokens = (keyed gs).map (Prod.map id .string)

theorem conveys_of_says (h : List.Forall₂ (Says spec) gs tokens) : Conveys spec gs tokens := by
  induction h with
  | nil => exact ⟨fun _ hm => (nomatch hm), rfl, rfl⟩
  | @cons g token gs tokens first _ ih =>
    refine ⟨List.forall_mem_cons.mpr ⟨fun _ _ => first.declared, ih.declared⟩, ?_, ?_⟩
    · cases first with
      | byPlace keyless value =>
        rw [positional_cons keyless, List.map_cons, value, ih.byPlace]
        rfl
      | byKey gives value =>
        obtain ⟨key, keyed, _⟩ := gives
        rw [positional_cons_of_keyed keyed, ih.byPlace]
        rfl
    · cases first with
      | byPlace keyless value =>
        have none : keyedPair? spec token = none := by
          rw [Option.eq_none_iff_forall_ne_some]
          rintro ⟨name, v⟩ pair
          obtain ⟨raw, ⟨key, keyed, _⟩, _⟩ := keyedPair?_eq_some_iff.mp pair
          exact keyless key raw keyed
        rw [keyedPairs, List.filterMap_cons_none none, ← keyedPairs, ih.byKey]
        rfl
      | byKey gives value =>
        have pair := keyedPair?_eq_some_iff.mpr ⟨_, gives, rfl⟩
        rw [keyedPairs, List.filterMap_cons_some pair, ← keyedPairs, ih.byKey, value]
        rfl

theorem forall_written (written : List.Forall₂ (Writes spec) gs pieces) :
    ∀ piece ∈ pieces, Whole ',' piece ∧ Text.trim piece ≠ [] := by
  induction written with
  | nil => nofun
  | cons first _ ih => exact List.forall_mem_cons.mpr ⟨⟨first.whole, first.says.1⟩, ih⟩

/-- The pieces are found again, and none of them is blank. -/
theorem exists_split (written : List.Forall₂ (Writes spec) gs pieces) :
    ∃ found, CommandContract.Argument.split ',' ([','].intercalate pieces) = .ok found ∧
      tokensOf found = pieces.map Text.trim := by
  have all := forall_written written
  cases pieces with
  | nil => exact ⟨[[]], rfl, rfl⟩
  | cons piece pieces =>
    refine ⟨piece :: pieces, split_intercalate (by decide) nofun
      fun p hp => (all p hp).1, ?_⟩
    rw [tokensOf, List.filter_eq_self, List.forall_mem_map]
    intro p hp
    simpa using (all p hp).2

theorem conveys_of_written (written : List.Forall₂ (Writes spec) gs pieces) :
    Conveys spec gs (pieces.map Text.trim) :=
  conveys_of_says (List.forall₂_map_right_iff.mpr (written.imp fun _ _ h => h.says.2))

theorem listArguments_quoted (once : (Members.keys spec.parameters).Nodup)
    (written : List.Forall₂ (Writes spec) gs pieces) (apart : (Members.keys (keyed gs)).Nodup)
    (room : (placed gs).length ≤ (openNames spec gs).length) :
    listArguments spec ([','].intercalate pieces) =
        .ok ((assigned spec gs).map (Prod.map id .string)) ∧
      (Members.keys (assigned spec gs)).Nodup := by
  obtain ⟨found, split, tokens⟩ := exists_split written
  have conveys := conveys_of_written written
  rw [← tokens] at conveys
  have names : Members.keys (keyedPairs spec (tokensOf found)) = Members.keys (keyed gs) := by
    rw [conveys.byKey, Members.keys, List.map_map]
    rfl
  have free : freeNames spec (tokensOf found) = openNames spec gs := by
    rw [freeNames, names]
    rfl
  have count : (positional (tokensOf found)).length = (placed gs).length := by
    have lengths := congrArg List.length conveys.byPlace
    rwa [List.length_map, List.length_map] at lengths
  have args : filledPairs spec (tokensOf found) ++
      Members.ofPairs (keyedPairs spec (tokensOf found)) =
        (assigned spec gs).map (Prod.map id .string) := by
    rw [Members.ofPairs_of_nodup (names ▸ apart), filledPairs, conveys.byPlace, conveys.byKey, free,
      List.zip_map_right, ← List.map_append]
    rfl
  constructor
  · refine (listArguments_eq_ok_iff once split).mpr ⟨conveys.declared, ?_, args.symm⟩
    rw [count, free]
    exact room
  · have nodup := nodup_keys_arguments once (tokensOf found)
    rw [args, Members.keys, List.map_map] at nodup
    exact nodup

/-- No string is lost, and none is given twice. -/
theorem perm_assigned (room : (placed gs).length ≤ (openNames spec gs).length) :
    ((assigned spec gs).map Prod.snd).Perm (gs.map Given.text) := by
  have split : ∀ gs : List Given,
      (placed gs ++ (keyed gs).map Prod.snd).Perm (gs.map Given.text) := by
    intro gs
    induction gs with
    | nil => exact .nil
    | cons g gs ih =>
      cases g with
      | byPlace text => exact ih.cons text
      | byKey name text => exact List.perm_middle.trans (ih.cons text)
  rw [assigned, List.map_append, List.map_snd_zip room]
  exact split gs

theorem quoting_protects (once : (Members.keys spec.parameters).Nodup) :
    (∀ q, isQuote q = true → ∀ cs, Protects (quote q cs) cs) ∧
    ∀ gs pieces, List.Forall₂ (Writes spec) gs pieces → (Members.keys (keyed gs)).Nodup →
      (placed gs).length ≤ (openNames spec gs).length →
      listArguments spec ([','].intercalate pieces) =
        .ok ((assigned spec gs).map (Prod.map id .string)) ∧
      (Members.keys (assigned spec gs)).Nodup ∧
      ((assigned spec gs).map Prod.snd).Perm (gs.map Given.text) := by
  refine ⟨fun q kind cs => protects_quote kind cs, ?_⟩
  intro gs pieces written apart room
  obtain ⟨args, names⟩ := listArguments_quoted once written apart room
  exact ⟨args, names, perm_assigned room⟩

/-- A string by key in single quotes, in front of one by place in double quotes. -/
theorem quoting_protects_train :
    (Members.keys trainCommand.parameters).Nodup ∧
    listArguments trainCommand "ModelType = 'a=\\'b\\\\, [' , \"\n),\\\"'\"".toList =
      .ok [("file", .string "\n),\"'"), ("modelType", .string "a='b\\, [")] := by
  have once : (Members.keys trainCommand.parameters).Nodup := by decide
  have space : ∀ c ∈ [' '], Text.isBlank c = true := List.forall_mem_singleton.mpr (by decide)
  have front : Text.Padded "ModelType".toList "ModelType ".toList :=
    Text.padded_append "ModelType".toList space
  have back : Text.Padded (quote '\'' "a='b\\, [".toList) " 'a=\\'b\\\\, [' ".toList :=
    @Text.Padded.mk [' '] (quote '\'' "a='b\\, [".toList) [' '] space space
  have alone : Text.Padded (quote '"' "\n),\"'".toList) " \"\n),\\\"'\"".toList :=
    @Text.Padded.mk [' '] (quote '"' "\n),\"'".toList) [] space nofun
  have first : Writes trainCommand (.byKey "modelType" "a='b\\, [") _ :=
    .byKey rfl rfl rfl front back
  have second : Writes trainCommand (.byPlace "\n),\"'") _ := .byPlace rfl alone
  have law := (quoting_protects once).2 _ _ (.cons first (.cons second .nil)) (by decide) (by decide)
  exact ⟨once, law.1⟩

end CommandContract.Call
