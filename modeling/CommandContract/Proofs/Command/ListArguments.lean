import CommandContract.Command.Call
import CommandContract.Proofs.Validation.Prepared

set_option autoImplicit false

/-!
# Lists of arguments

A list of arguments is read in two passes: the tokens with a key go to the parameters that their
keys stand for, wherever they are in the list, and the other tokens go to the required parameters
that are left, in declared order. `listArguments_reads` says when a list is read, what is reported
otherwise, and what every token becomes.
-/
namespace CommandContract.Call

open CommandContract.Argument (cutAtEquals? tokenValue)

/-! ## Tokens -/

/-- The tokens of a list, without the blanks around them. Blank pieces are no tokens. -/
def tokensOf (pieces : List (List Char)) : List (List Char) :=
  (pieces.map Text.trim).filter (!·.isEmpty)

/-- The token has an equals sign outside of quotes and brackets, and the text in front of the first
one has the form of a key. -/
def Keyed (token key raw : List Char) : Prop :=
  ∃ before, cutAtEquals? token = some (before, raw) ∧ Text.trim before = key ∧ isKey key = true

/-- The tokens without a key, in order. -/
def positional (tokens : List (List Char)) : List (List Char) :=
  positionalTokens (tokens.map Argument.ofToken)

/-- The token gives a parameter by key. -/
def GivesByKey (spec : CommandSpec) (token : List Char) (name : String) (raw : List Char) : Prop :=
  ∃ key, Keyed token key raw ∧ Validation.declared? spec.parameters (String.ofList key) = some name

/-- Every key is the name of a parameter, up to the case of ASCII letters. -/
def KeysDeclared (spec : CommandSpec) (tokens : List (List Char)) : Prop :=
  ∀ token ∈ tokens, ∀ key raw, Keyed token key raw → spec.parameters.Declares (String.ofList key)

/-- What a token gives by key: a declared name and its value. -/
def keyedPair? (spec : CommandSpec) (token : List Char) : Option (String × Value) :=
  match Argument.ofToken token with
  | .positional _ => none
  | .named key raw =>
    (Validation.declared? spec.parameters (String.ofList key)).map fun name =>
      (name, tokenValue raw)

/-- What the tokens give by key, in order. -/
def keyedPairs (spec : CommandSpec) (tokens : List (List Char)) : List (String × Value) :=
  tokens.filterMap (keyedPair? spec)

/-- The required parameters that no token gives by key, in declared order. -/
def freeNames (spec : CommandSpec) (tokens : List (List Char)) : List String :=
  (spec.parameters.required.map (·.1)).filter fun name =>
    name ∉ Members.keys (keyedPairs spec tokens)

section Token

variable {spec : CommandSpec} {token key raw : List Char} {tokens : List (List Char)}

theorem ofToken_eq_named_iff : Argument.ofToken token = .named key raw ↔ Keyed token key raw := by
  unfold Argument.ofToken Keyed
  cases cutAtEquals? token with
  | none => simp
  | some cut =>
    obtain ⟨before, behind⟩ := cut
    dsimp only
    split
    · rename_i good
      constructor
      · intro h
        obtain ⟨rfl, rfl⟩ := Argument.named.inj h
        exact ⟨before, rfl, rfl, good⟩
      · rintro ⟨other, same, rfl, _⟩
        obtain ⟨rfl, rfl⟩ := Prod.mk.inj (Option.some.inj same)
        rfl
    · rename_i bad
      simp only [reduceCtorEq, false_iff]
      rintro ⟨other, same, rfl, good⟩
      obtain ⟨rfl, rfl⟩ := Prod.mk.inj (Option.some.inj same)
      exact bad good

theorem ofToken_of_positional {text : List Char} (h : Argument.ofToken token = .positional text) :
    text = token := by
  unfold Argument.ofToken at h
  split at h
  · dsimp only at h
    split at h
    · cases h
    · exact (Argument.positional.inj h).symm
  · exact (Argument.positional.inj h).symm

/-- A token has a key, or it is positional. -/
theorem ofToken_cases (token : List Char) :
    (∃ key raw, Keyed token key raw ∧ Argument.ofToken token = .named key raw) ∨
      ((∀ key raw, ¬ Keyed token key raw) ∧ Argument.ofToken token = .positional token) := by
  cases h : Argument.ofToken token with
  | named key raw => exact .inl ⟨key, raw, ofToken_eq_named_iff.mp h, rfl⟩
  | positional text =>
    refine .inr ⟨fun key raw keyed => ?_, by rw [ofToken_of_positional h]⟩
    rw [← ofToken_eq_named_iff, h] at keyed
    cases keyed

theorem positional_cons_of_keyed (h : Keyed token key raw) (tokens : List (List Char)) :
    positional (token :: tokens) = positional tokens := by
  simp [positional, positionalTokens, ofToken_eq_named_iff.mpr h]

theorem positional_cons (h : ∀ key raw, ¬ Keyed token key raw) (tokens : List (List Char)) :
    positional (token :: tokens) = token :: positional tokens := by
  rcases ofToken_cases token with ⟨key, raw, keyed, _⟩ | ⟨_, plain⟩
  · exact absurd keyed (h key raw)
  · simp [positional, positionalTokens, plain]

theorem mem_positional_iff :
    token ∈ positional tokens ↔ token ∈ tokens ∧ ∀ key raw, ¬ Keyed token key raw := by
  induction tokens with
  | nil => simp [positional, positionalTokens]
  | cons first tokens ih =>
    rcases ofToken_cases first with ⟨key, raw, keyed, _⟩ | ⟨plain, _⟩
    · rw [positional_cons_of_keyed keyed, ih, List.mem_cons]
      refine and_congr_left fun free => (or_iff_right ?_).symm
      rintro rfl
      exact free key raw keyed
    · rw [positional_cons plain, List.mem_cons, List.mem_cons, ih]
      refine ⟨?_, fun ⟨h, free⟩ => h.imp_right fun below => ⟨below, free⟩⟩
      rintro (rfl | ⟨below, free⟩)
      · exact ⟨.inl rfl, plain⟩
      · exact ⟨.inr below, free⟩

theorem keyedPair?_eq_some_iff {name : String} {v : Value} :
    keyedPair? spec token = some (name, v) ↔
      ∃ raw, GivesByKey spec token name raw ∧ v = tokenValue raw := by
  unfold keyedPair? GivesByKey
  constructor
  · intro h
    split at h
    · cases h
    · rename_i key raw keyed
      obtain ⟨declared, found, same⟩ := Option.map_eq_some_iff.mp h
      obtain ⟨rfl, rfl⟩ := Prod.mk.inj same
      exact ⟨raw, ⟨key, ofToken_eq_named_iff.mp keyed, found⟩, rfl⟩
  · rintro ⟨raw, ⟨key, keyed, found⟩, rfl⟩
    rw [ofToken_eq_named_iff.mpr keyed]
    dsimp only
    rw [found]
    rfl

theorem mem_keys_keyedPairs_iff {name : String} :
    name ∈ Members.keys (keyedPairs spec tokens) ↔
      ∃ token ∈ tokens, ∃ raw, GivesByKey spec token name raw := by
  simp only [Members.keys, keyedPairs, List.mem_map, List.mem_filterMap, Prod.exists,
    keyedPair?_eq_some_iff]
  constructor
  · rintro ⟨_, v, ⟨token, ht, raw, gives, rfl⟩, rfl⟩
    exact ⟨token, ht, raw, gives⟩
  · rintro ⟨token, ht, raw, gives⟩
    exact ⟨name, _, ⟨token, ht, raw, gives, rfl⟩, rfl⟩

end Token

/-! ## The first pass -/

/-- What the first pass does with one argument. -/
def keyedArgument (spec : CommandSpec) : Argument → Except LineError (Option (String × Value))
  | .positional _ => .ok none
  | .named key raw =>
    match spec.parameters.find? (String.ofList key) with
    | some (declared, _) => .ok (some (declared, tokenValue raw))
    | none => .error (.unknownParameter spec.name (String.ofList key))

section FirstPass

variable {spec : CommandSpec} {tokens : List (List Char)}

theorem namedArguments_eq (spec : CommandSpec) (arguments : List Argument) :
    namedArguments spec arguments =
      (arguments.filterMapM (keyedArgument spec)).map Members.ofPairs := by
  have same : ∀ f : Argument → Except LineError (Option (String × Value)),
      f = keyedArgument spec →
      (do let pairs ← arguments.filterMapM f; .ok (Members.ofPairs pairs)) =
        (arguments.filterMapM (keyedArgument spec)).map Members.ofPairs := by
    rintro f rfl
    cases arguments.filterMapM (keyedArgument spec) <;> rfl
  refine same _ ?_
  funext a
  cases a <;> rfl

theorem keyedArgument_ofToken {token : List Char} (declared : ∀ key raw, Keyed token key raw →
      spec.parameters.Declares (String.ofList key)) :
    keyedArgument spec (Argument.ofToken token) = .ok (keyedPair? spec token) := by
  rcases ofToken_cases token with ⟨key, raw, keyed, named⟩ | ⟨_, plain⟩
  · obtain ⟨name, p, found⟩ := Parameters.find?_of_declares (declared key raw keyed)
    rw [keyedPair?, named]
    simp only [keyedArgument, found, Validation.declared?]
    rfl
  · rw [keyedPair?, plain]
    rfl

theorem filterMapM_keyedArgument (declared : KeysDeclared spec tokens) :
    (tokens.map Argument.ofToken).filterMapM (keyedArgument spec) =
      .ok (keyedPairs spec tokens) := by
  induction tokens with
  | nil => rfl
  | cons token tokens ih =>
    obtain ⟨here, there⟩ := List.forall_mem_cons.mp declared
    have pairs : keyedPairs spec (token :: tokens) =
        (keyedPair? spec token).toList ++ keyedPairs spec tokens := by
      rw [keyedPairs, List.filterMap_cons]
      cases keyedPair? spec token <;> rfl
    rw [List.map_cons, List.filterMapM_cons, keyedArgument_ofToken here, ih there, pairs]
    cases keyedPair? spec token <;> rfl

theorem namedArguments_of_declared (declared : KeysDeclared spec tokens) :
    namedArguments spec (tokens.map Argument.ofToken) =
      .ok (Members.ofPairs (keyedPairs spec tokens)) := by
  rw [namedArguments_eq, filterMapM_keyedArgument declared]
  rfl

theorem namedArguments_of_undeclared {before after : List (List Char)} {token key raw : List Char}
    (first : KeysDeclared spec before) (keyed : Keyed token key raw)
    (unknown : ¬ spec.parameters.Declares (String.ofList key)) :
    namedArguments spec ((before ++ token :: after).map Argument.ofToken) =
      .error (.unknownParameter spec.name (String.ofList key)) := by
  have refused : keyedArgument spec (Argument.ofToken token) =
      .error (.unknownParameter spec.name (String.ofList key)) := by
    rw [ofToken_eq_named_iff.mpr keyed]
    simp only [keyedArgument, Parameters.find?_eq_none_iff.mpr unknown]
  have stopped : ((before ++ token :: after).map Argument.ofToken).filterMapM
      (keyedArgument spec) = .error (.unknownParameter spec.name (String.ofList key)) := by
    induction before with
    | nil =>
      rw [List.nil_append, List.map_cons, List.filterMapM_cons, refused]
      rfl
    | cons earlier before ih =>
      obtain ⟨here, there⟩ := List.forall_mem_cons.mp first
      rw [List.cons_append, List.map_cons, List.filterMapM_cons, keyedArgument_ofToken here,
        ih there]
      cases keyedPair? spec earlier <;> rfl
  rw [namedArguments_eq, stopped]
  rfl

end FirstPass

/-! ## The second pass -/

section SecondPass

variable {command : String} {slots : List String} {tokens : List (List Char)}

theorem fillSlots_of_le (h : tokens.length ≤ slots.length) :
    fillSlots command slots tokens = .ok (slots.zip (tokens.map tokenValue)) := by
  induction tokens generalizing slots with
  | nil => cases slots <;> rfl
  | cons token tokens ih =>
    cases slots with
    | nil => simp at h
    | cons slot slots =>
      rw [fillSlots, ih (Nat.le_of_succ_le_succ h)]
      rfl

theorem fillSlots_of_excess {token : List Char} (h : tokens[slots.length]? = some token) :
    fillSlots command slots tokens =
      .error (.tooManyPositional command (String.ofList token)) := by
  induction tokens generalizing slots with
  | nil => cases h
  | cons first tokens ih =>
    cases slots with
    | nil =>
      obtain rfl := Option.some.inj h
      rfl
    | cons slot slots =>
      rw [fillSlots, ih (by simpa using h)]
      rfl

end SecondPass

/-! ## Both passes -/

section List

variable {spec : CommandSpec} {body : List Char} {pieces : List (List Char)}

/-- What the tokens without a key give. -/
def filledPairs (spec : CommandSpec) (tokens : List (List Char)) : List (String × Value) :=
  (freeNames spec tokens).zip ((positional tokens).map tokenValue)

theorem keys_filledPairs (spec : CommandSpec) (tokens : List (List Char)) :
    Members.keys (filledPairs spec tokens) =
      (freeNames spec tokens).take (positional tokens).length := by
  rw [filledPairs, Members.keys_zip, List.length_map]

theorem nodup_freeNames (once : (Members.keys spec.parameters).Nodup) (tokens : List (List Char)) :
    (freeNames spec tokens).Nodup :=
  (once.sublist (List.filter_sublist.map _)).filter _

/-- No parameter is given by key and by place. -/
theorem nodup_keys_arguments (once : (Members.keys spec.parameters).Nodup)
    (tokens : List (List Char)) :
    (Members.keys (filledPairs spec tokens ++
      Members.ofPairs (keyedPairs spec tokens))).Nodup := by
  have filled : (Members.keys (filledPairs spec tokens)).Sublist (freeNames spec tokens) :=
    keys_filledPairs spec tokens ▸ List.take_sublist _ _
  rw [Members.keys, List.map_append, List.nodup_append]
  refine ⟨(nodup_freeNames once tokens).sublist filled, Members.nodup_keys_ofPairs _, ?_⟩
  rintro name place _ key rfl
  have free := (List.mem_filter.mp (filled.subset place)).2
  exact of_decide_eq_true free (Members.mem_keys_ofPairs.mp key)

/-- The list behind the split. -/
theorem listArguments_eq (split : CommandContract.Argument.split ',' body = .ok pieces) :
    listArguments spec body = (do
      let named ← namedArguments spec ((tokensOf pieces).map Argument.ofToken)
      let free := (spec.parameters.required.map (·.1)).filter fun name => !Members.has name named
      let filled ← fillSlots spec.name free (positional (tokensOf pieces))
      .ok (Members.ofPairs (filled ++ named))) := by
  rw [listArguments, split]
  rfl

theorem listArguments_of_declared (split : CommandContract.Argument.split ',' body = .ok pieces)
    (declared : KeysDeclared spec (tokensOf pieces)) :
    listArguments spec body =
      (fillSlots spec.name (freeNames spec (tokensOf pieces)) (positional (tokensOf pieces))).map
        fun filled =>
          Members.ofPairs (filled ++ Members.ofPairs (keyedPairs spec (tokensOf pieces))) := by
  have free : ((spec.parameters.required.map (·.1)).filter fun name =>
      !Members.has name (Members.ofPairs (keyedPairs spec (tokensOf pieces)))) =
        freeNames spec (tokensOf pieces) := by
    refine List.filter_congr fun name _ => ?_
    have given : Members.has name (Members.ofPairs (keyedPairs spec (tokensOf pieces))) = true ↔
        name ∈ Members.keys (keyedPairs spec (tokensOf pieces)) := by
      rw [Members.has, Option.isSome_iff_ne_none, ne_eq, Members.get?_eq_none_iff, not_not]
      exact Members.mem_keys_ofPairs
    rw [Bool.eq_iff_iff, decide_eq_true_iff, ← given, Bool.not_eq_true', Bool.not_eq_true]
  rw [listArguments_eq split, namedArguments_of_declared declared]
  simp only [bind, Except.bind, free]
  cases fillSlots spec.name (freeNames spec (tokensOf pieces)) (positional (tokensOf pieces)) <;>
    rfl

theorem listArguments_of_undeclared (split : CommandContract.Argument.split ',' body = .ok pieces)
    {before after : List (List Char)} {token key raw : List Char}
    (tokens : tokensOf pieces = before ++ token :: after) (first : KeysDeclared spec before)
    (keyed : Keyed token key raw) (unknown : ¬ spec.parameters.Declares (String.ofList key)) :
    listArguments spec body = .error (.unknownParameter spec.name (String.ofList key)) := by
  rw [listArguments_eq split, tokens, namedArguments_of_undeclared first keyed unknown]
  rfl

theorem exists_undeclared {tokens : List (List Char)} (h : ¬ KeysDeclared spec tokens) :
    ∃ before token key raw after, tokens = before ++ token :: after ∧ KeysDeclared spec before ∧
      Keyed token key raw ∧ ¬ spec.parameters.Declares (String.ofList key) := by
  induction tokens with
  | nil => exact absurd (fun _ h => nomatch h) h
  | cons token tokens ih =>
    by_cases here : ∀ key raw, Keyed token key raw → spec.parameters.Declares (String.ofList key)
    · obtain ⟨before, next, key, raw, after, rfl, first, keyed, unknown⟩ :=
        ih fun there => h (List.forall_mem_cons.mpr ⟨here, there⟩)
      exact ⟨token :: before, next, key, raw, after, rfl, List.forall_mem_cons.mpr ⟨here, first⟩,
        keyed, unknown⟩
    · push Not at here
      obtain ⟨key, raw, keyed, unknown⟩ := here
      exact ⟨[], token, key, raw, tokens, rfl, fun _ h => (nomatch h), keyed, unknown⟩

theorem listArguments_eq_ok_iff (once : (Members.keys spec.parameters).Nodup)
    (split : CommandContract.Argument.split ',' body = .ok pieces) {args : Members Value} :
    listArguments spec body = .ok args ↔ KeysDeclared spec (tokensOf pieces) ∧
      (positional (tokensOf pieces)).length ≤ (freeNames spec (tokensOf pieces)).length ∧
        args = filledPairs spec (tokensOf pieces) ++
          Members.ofPairs (keyedPairs spec (tokensOf pieces)) := by
  by_cases declared : KeysDeclared spec (tokensOf pieces)
  · rw [listArguments_of_declared split declared]
    by_cases room : (positional (tokensOf pieces)).length ≤
        (freeNames spec (tokensOf pieces)).length
    · have once' := Members.ofPairs_of_nodup (nodup_keys_arguments once (tokensOf pieces))
      rw [fillSlots_of_le room]
      simp only [Except.map, Except.ok.injEq, declared, room, true_and]
      rw [← filledPairs, once', eq_comm]
    · have excess := List.getElem?_eq_getElem (Nat.lt_of_not_le room)
      rw [fillSlots_of_excess excess]
      simp [Except.map, room]
  · obtain ⟨before, token, key, raw, after, tokens, first, keyed, unknown⟩ :=
      exists_undeclared declared
    rw [listArguments_of_undeclared split tokens first keyed unknown]
    simp [declared]

end List

/-- How the tokens of a list are read, and what each of them becomes. -/
structure ListRead (spec : CommandSpec) (tokens : List (List Char))
    (result : Except LineError (Members Value)) : Prop where
  ok_iff : (∃ args, result = .ok args) ↔
    KeysDeclared spec tokens ∧ (positional tokens).length ≤ (freeNames spec tokens).length
  /-- whatever stands without a key -/
  undeclared : ∀ before token key raw after, tokens = before ++ token :: after →
    KeysDeclared spec before → Keyed token key raw →
    ¬ spec.parameters.Declares (String.ofList key) →
    result = .error (.unknownParameter spec.name (String.ofList key))
  excess : KeysDeclared spec tokens → ∀ token,
    (positional tokens)[(freeNames spec tokens).length]? = some token →
    result = .error (.tooManyPositional spec.name (String.ofList token))
  filled : ∀ args, result = .ok args → ∀ (i : Nat) token name,
    (positional tokens)[i]? = some token →
    (freeNames spec tokens)[i]? = some name → Members.get? name args = some (tokenValue token)
  /-- whatever stands without a key, and in front of the last occurrence -/
  keyed : ∀ args, result = .ok args → ∀ before token name raw after,
    tokens = before ++ token :: after → GivesByKey spec token name raw →
    (∀ later ∈ after, ∀ other, ¬ GivesByKey spec later name other) →
    Members.get? name args = some (tokenValue raw)
  once : ∀ args, result = .ok args → (Members.keys args).Nodup
  names : ∀ args, result = .ok args → ∀ name, name ∈ Members.keys args ↔
    (∃ token ∈ tokens, ∃ raw, GivesByKey spec token name raw) ∨
      ∃ i < (positional tokens).length, (freeNames spec tokens)[i]? = some name
  kept : ∀ args, result = .ok args → ∀ before token after, tokens = before ++ token :: after →
    ((∀ key raw, ¬ Keyed token key raw) ∧ ∃ (i : Nat) (name : String),
      (positional tokens)[i]? = some token ∧ (freeNames spec tokens)[i]? = some name ∧
      Members.get? name args = some (tokenValue token)) ∨
    ∃ name raw, GivesByKey spec token name raw ∧
      (Members.get? name args = some (tokenValue raw) ∨
        ∃ later ∈ after, ∃ other, GivesByKey spec later name other)
  /-- keyed tokens for different parameters, anywhere among the others -/
  moved : (Members.keys (keyedPairs spec tokens)).Nodup → ∀ body pieces,
    CommandContract.Argument.split ',' body = .ok pieces → (tokensOf pieces).Perm tokens →
    positional (tokensOf pieces) = positional tokens → ∀ args, result = .ok args →
      ∃ others, listArguments spec body = .ok others ∧ others.Perm args
  /-- tokens that give one parameter, in the same order among themselves -/
  reordered : ∀ body pieces, CommandContract.Argument.split ',' body = .ok pieces →
    (tokensOf pieces).Perm tokens → positional (tokensOf pieces) = positional tokens →
    (∀ name, (keyedPairs spec (tokensOf pieces)).filter (fun pair => pair.1 = name) =
      (keyedPairs spec tokens).filter fun pair => pair.1 = name) → ∀ args, result = .ok args →
      ∃ others, listArguments spec body = .ok others ∧ others.Perm args

section Reading

variable {spec : CommandSpec} {tokens others : List (List Char)} {name : String}

theorem get?_filled (once : (Members.keys spec.parameters).Nodup) {i : Nat} {token : List Char}
    (placed : (positional tokens)[i]? = some token)
    (free : (freeNames spec tokens)[i]? = some name) :
    Members.get? name (filledPairs spec tokens ++ Members.ofPairs (keyedPairs spec tokens)) =
      some (tokenValue token) := by
  have pair : (filledPairs spec tokens)[i]? = some (name, tokenValue token) := by
    rw [filledPairs, List.getElem?_zip_eq_some, List.getElem?_map, placed]
    exact ⟨free, rfl⟩
  rw [Members.get?_eq_some_iff (nodup_keys_arguments once tokens)]
  exact List.mem_append_left _ (List.mem_of_getElem? pair)

theorem not_mem_keys_filled (given : name ∈ Members.keys (keyedPairs spec tokens)) :
    name ∉ Members.keys (filledPairs spec tokens) := by
  rw [keys_filledPairs]
  intro placed
  have free := (List.mem_filter.mp (List.mem_of_mem_take placed)).2
  exact of_decide_eq_true free given

theorem get?_keyed {before after : List (List Char)} {token raw : List Char}
    (split : tokens = before ++ token :: after) (gives : GivesByKey spec token name raw)
    (last : ∀ later ∈ after, ∀ other, ¬ GivesByKey spec later name other) :
    Members.get? name (filledPairs spec tokens ++ Members.ofPairs (keyedPairs spec tokens)) =
      some (tokenValue raw) := by
  have given : name ∈ Members.keys (keyedPairs spec tokens) :=
    mem_keys_keyedPairs_iff.mpr ⟨token, by rw [split]; simp, raw, gives⟩
  have none : Members.get? name (filledPairs spec tokens) = none :=
    (Members.get?_eq_none_iff _ _).mpr (not_mem_keys_filled given)
  have pairs : keyedPairs spec tokens =
      keyedPairs spec before ++ (name, tokenValue raw) :: keyedPairs spec after := by
    have here := keyedPair?_eq_some_iff.mpr ⟨raw, gives, rfl⟩
    rw [split, keyedPairs, List.filterMap_append, List.filterMap_cons_some here]
    rfl
  have later : name ∉ Members.keys (keyedPairs spec after) := by
    rw [mem_keys_keyedPairs_iff]
    rintro ⟨token, ht, other, gives⟩
    exact last token ht other gives
  rw [Members.get?_append, none, Option.none_or, Members.get?_ofPairs, pairs,
    Members.last?_append_cons later]

/-- The names that are given by key, and the free ones as far as there are positional tokens. -/
theorem mem_keys_arguments :
    name ∈ Members.keys (filledPairs spec tokens ++ Members.ofPairs (keyedPairs spec tokens)) ↔
      (∃ token ∈ tokens, ∃ raw, GivesByKey spec token name raw) ∨
        ∃ i < (positional tokens).length, (freeNames spec tokens)[i]? = some name := by
  have given : name ∈ Members.keys (Members.ofPairs (keyedPairs spec tokens)) ↔
      name ∈ Members.keys (keyedPairs spec tokens) := Members.mem_keys_ofPairs
  rw [← mem_keys_keyedPairs_iff, ← given, Members.keys, List.map_append, List.mem_append, or_comm]
  refine or_congr_right ?_
  rw [← Members.keys, keys_filledPairs, List.mem_iff_getElem?]
  refine exists_congr fun i => ?_
  rw [List.getElem?_take]
  split
  · rename_i short
    exact (and_iff_right short).symm
  · rename_i long
    simp [long]

/-- No token is lost, unless a later one gives the same parameter. -/
theorem exists_place (once : (Members.keys spec.parameters).Nodup)
    (declared : KeysDeclared spec tokens)
    (room : (positional tokens).length ≤ (freeNames spec tokens).length)
    {before after : List (List Char)} {token : List Char}
    (split : tokens = before ++ token :: after) :
    ((∀ key raw, ¬ Keyed token key raw) ∧ ∃ (i : Nat) (name : String),
      (positional tokens)[i]? = some token ∧ (freeNames spec tokens)[i]? = some name ∧
      Members.get? name (filledPairs spec tokens ++ Members.ofPairs (keyedPairs spec tokens)) =
        some (tokenValue token)) ∨
    ∃ name raw, GivesByKey spec token name raw ∧
      (Members.get? name (filledPairs spec tokens ++ Members.ofPairs (keyedPairs spec tokens)) =
          some (tokenValue raw) ∨
        ∃ later ∈ after, ∃ other, GivesByKey spec later name other) := by
  have present : token ∈ tokens := by rw [split]; simp
  by_cases free : ∀ key raw, ¬ Keyed token key raw
  · left
    obtain ⟨i, placed⟩ := List.mem_iff_getElem?.mp (mem_positional_iff.mpr ⟨present, free⟩)
    obtain ⟨short, _⟩ := List.getElem?_eq_some_iff.mp placed
    have slot := List.getElem?_eq_getElem (Nat.lt_of_lt_of_le short room)
    exact ⟨free, i, _, placed, slot, get?_filled once placed slot⟩
  · right
    push Not at free
    obtain ⟨key, raw, keyed⟩ := free
    obtain ⟨name, p, found⟩ := Parameters.find?_of_declares (declared token present key raw keyed)
    have gives : GivesByKey spec token name raw :=
      ⟨key, keyed, by rw [Validation.declared?, found]; rfl⟩
    refine ⟨name, raw, gives, ?_⟩
    by_cases later : ∃ later ∈ after, ∃ other, GivesByKey spec later name other
    · exact .inr later
    · exact .inl (get?_keyed split gives fun t ht other g => later ⟨t, ht, other, g⟩)

/-- Which parameters are free does not depend on where the keyed tokens stand. -/
theorem freeNames_of_perm (moved : others.Perm tokens) :
    freeNames spec others = freeNames spec tokens := by
  unfold freeNames
  refine List.filter_congr fun name _ => decide_eq_decide.mpr (not_congr ?_)
  simp only [mem_keys_keyedPairs_iff, moved.mem_iff]

theorem KeysDeclared.of_perm (declared : KeysDeclared spec tokens) (moved : others.Perm tokens) :
    KeysDeclared spec others :=
  fun token ht => declared token (moved.mem_iff.mp ht)

/-- Keyed tokens may stand anywhere as long as the last of each parameter is the same. -/
theorem listArguments_moved {body : List Char} {pieces : List (List Char)} {args : Members Value}
    (once : (Members.keys spec.parameters).Nodup)
    (split : CommandContract.Argument.split ',' body = .ok pieces)
    (moved : (tokensOf pieces).Perm tokens)
    (same : positional (tokensOf pieces) = positional tokens)
    (last : ∀ name, Members.last? name (keyedPairs spec (tokensOf pieces)) =
      Members.last? name (keyedPairs spec tokens)) (declared : KeysDeclared spec tokens)
    (room : (positional tokens).length ≤ (freeNames spec tokens).length)
    (read : args = filledPairs spec tokens ++ Members.ofPairs (keyedPairs spec tokens)) :
    ∃ others, listArguments spec body = .ok others ∧ others.Perm args := by
  have free : freeNames spec (tokensOf pieces) = freeNames spec tokens := freeNames_of_perm moved
  refine ⟨_, (listArguments_eq_ok_iff once split).mpr ⟨declared.of_perm moved, ?_, rfl⟩, ?_⟩
  · rw [same, free]
    exact room
  · rw [read, filledPairs, filledPairs, same, free]
    refine List.Perm.append_left _ (Members.perm_of_get? (Members.nodup_keys_ofPairs _)
      (Members.nodup_keys_ofPairs _) fun name => ?_)
    rw [Members.get?_ofPairs, Members.get?_ofPairs, last]

end Reading

theorem listArguments_reads (spec : CommandSpec) (body : List Char) (pieces : List (List Char))
    (once : (Members.keys spec.parameters).Nodup)
    (split : CommandContract.Argument.split ',' body = .ok pieces) :
    ListRead spec (tokensOf pieces) (listArguments spec body) := by
  have read : ∀ {args}, listArguments spec body = .ok args → _ :=
    fun h => (listArguments_eq_ok_iff once split).mp h
  refine ⟨?ok_iff, ?undeclared, ?excess, ?filled, ?keyed, ?once, ?names, ?kept, ?moved, ?reordered⟩
  case ok_iff =>
    constructor
    · rintro ⟨args, h⟩
      obtain ⟨declared, room, _⟩ := read h
      exact ⟨declared, room⟩
    · rintro ⟨declared, room⟩
      exact ⟨_, (listArguments_eq_ok_iff once split).mpr ⟨declared, room, rfl⟩⟩
  case undeclared =>
    intro before token key raw after tokens first keyed unknown
    exact listArguments_of_undeclared split tokens first keyed unknown
  case excess =>
    intro declared token excess
    rw [listArguments_of_declared split declared, fillSlots_of_excess excess]
    rfl
  case filled =>
    intro args h i token name placed free
    obtain ⟨_, _, rfl⟩ := read h
    exact get?_filled once placed free
  case keyed =>
    intro args h before token name raw after tokens gives last
    obtain ⟨_, _, rfl⟩ := read h
    exact get?_keyed tokens gives last
  case once =>
    intro args h
    obtain ⟨_, _, rfl⟩ := read h
    exact nodup_keys_arguments once _
  case names =>
    intro args h name
    obtain ⟨_, _, rfl⟩ := read h
    exact mem_keys_arguments
  case kept =>
    intro args h before token after tokens
    obtain ⟨declared, room, rfl⟩ := read h
    exact exists_place once declared room tokens
  case moved =>
    intro distinct other others accepted moved same args h
    obtain ⟨declared, room, rfl⟩ := read h
    refine listArguments_moved once accepted moved same (fun name => ?_) declared room rfl
    have pairs : (keyedPairs spec (tokensOf others)).Perm (keyedPairs spec (tokensOf pieces)) :=
      moved.filterMap _
    have distinct' : (Members.keys (keyedPairs spec (tokensOf others))).Nodup :=
      (pairs.map Prod.fst).nodup_iff.mpr distinct
    rw [← Members.get?_ofPairs, ← Members.get?_ofPairs, Members.ofPairs_of_nodup distinct,
      Members.ofPairs_of_nodup distinct']
    exact Members.get?_of_perm distinct' pairs name
  case reordered =>
    intro other others accepted moved same order args h
    obtain ⟨declared, room, rfl⟩ := read h
    refine listArguments_moved once accepted moved same (fun name => ?_) declared room rfl
    rw [← Members.last?_filter, order, Members.last?_filter]

/-- A command with two required parameters and an optional one. -/
def trainCommand : CommandSpec where
  __ := CommandSpec.ofName "train"
  parameters := [
    ("file", { ParameterSpec.ofType "string" with isRequired := true }),
    ("modelType", { ParameterSpec.ofType "string" with isRequired := true }),
    ("order", ParameterSpec.ofType "integer")]

theorem listArguments_reads_train :
    (Members.keys trainCommand.parameters).Nodup ∧
      CommandContract.Argument.split ',' "ORDER=4, c.txt, order = 5, , markov".toList =
        .ok ["ORDER=4".toList, " c.txt".toList, " order = 5".toList, " ".toList,
          " markov".toList] ∧
      ListRead trainCommand
        ["ORDER=4".toList, "c.txt".toList, "order = 5".toList, "markov".toList]
        (listArguments trainCommand "ORDER=4, c.txt, order = 5, , markov".toList) ∧
      listArguments trainCommand "ORDER=4, c.txt, order = 5, , markov".toList =
        .ok [("file", .string "c.txt"), ("modelType", .string "markov"), ("order", .int 5)] := by
  have once : (Members.keys trainCommand.parameters).Nodup := by decide
  have split : CommandContract.Argument.split ',' "ORDER=4, c.txt, order = 5, , markov".toList =
      .ok ["ORDER=4".toList, " c.txt".toList, " order = 5".toList, " ".toList,
        " markov".toList] := by rfl
  exact ⟨once, split, listArguments_reads _ _ _ once split, by rfl⟩

end CommandContract.Call
