import CommandContract.Json.Value
import CommandContract.Text.Blank
import CommandContract.Text.LetterCase
import CommandContract.Text.Pieces

set_option autoImplicit false

/-!
# Redaction

Before a value is recorded, members with a sensitive name lose their value, and texts that look
like secrets are replaced by a label. A recogniser gives the length of the secret that begins at a
place; the leftmost secret is replaced first, and the search goes on behind it. Recognisers run
one after the other, each on the result of the one before.
-/
namespace CommandContract.Redaction

/-- The number of characters that a secret takes from the front of a text. -/
abbrev Recogniser := List Char → Option Nat

/-- A reader of the front of a text returns what is left behind it. -/
abbrev Reader := List Char → Option (List Char)

def Reader.recogniser (r : Reader) : Recogniser := fun cs =>
  (r cs).map fun rest => cs.length - rest.length

/-- Replaces the secrets of a text, passing over `skip` characters first. -/
def replaceFrom (secret : Recogniser) (label : List Char) : Nat → List Char → List Char
  | _, [] => []
  | skip + 1, _ :: cs => replaceFrom secret label skip cs
  | 0, c :: cs =>
    match secret (c :: cs) with
    | some length => label ++ replaceFrom secret label (length - 1) cs
    | none => c :: replaceFrom secret label 0 cs

def replaceAll (secret : Recogniser) (label : String) (cs : List Char) : List Char :=
  replaceFrom secret label.toList 0 cs

/-! ## Reading pieces of a secret -/

/-- One of several texts, the first that fits. -/
def oneOf (texts : List String) : Reader := fun cs =>
  texts.findSome? fun t => Text.dropLeading? t.toList cs

/-- The letter that a character counts as when case is ignored: two characters beyond ASCII fold to
ASCII letters. -/
def foldCase (c : Char) : Char :=
  if c = '\u017f' then 's' else if c = '\u212a' then 'k' else c.toLower

/-- A lower-case text in any case. -/
def anyCase (text : List Char) : Reader := fun cs =>
  if (cs.take text.length).map foldCase = text then some (cs.drop text.length) else none

/-- At least `least` characters of a class, as many as there are up to `most`. -/
def run (least : Nat) (most : Option Nat) (isMember : Char → Bool) : Reader := fun cs =>
  let found := cs.takeWhile isMember
  let length := match most with
    | some m => min m found.length
    | none => found.length
  if least ≤ length then some (cs.drop length) else none

def optional (isMember : Char → Bool) : Reader := fun cs =>
  match cs with
  | c :: rest => if isMember c then some rest else some cs
  | [] => some []

def isUpperOrDigit (c : Char) : Bool := c.isUpper || c.isDigit

def isQuote (c : Char) : Bool := c = '\'' || c = '"'

/-! ## The secrets -/

/-- An access key id: a four-letter kind and sixteen capitals or digits. -/
def accessKey : Reader := fun cs =>
  let kind :=
    match cs with
    | 'A' :: '3' :: 'T' :: c :: rest => if isUpperOrDigit c then some rest else none
    | cs => oneOf ["AKIA", "AGPA", "AIDA", "AROA", "AIPA", "ANPA", "ANVA", "ASIA"] cs
  kind.bind (run 16 (some 16) isUpperOrDigit)

def hostingToken : Reader := fun cs =>
  (oneOf ["ghp_", "gho_", "ghu_", "ghs_", "ghr_"] cs).bind
    (run 36 (some 255) fun c => c.isAlphanum || c = '_')

def isTokenChar (c : Char) : Bool :=
  (foldCase c).isAlphanum || c = '_' || c = '-' || c = '.'

def bearer : Reader := fun cs => do
  let rest ← anyCase "bearer".toList cs
  let rest ← run 1 none Text.isBlank rest
  run 20 none isTokenChar rest

/-- A line that opens or closes a private key. -/
def keyMark (word : String) : Reader := fun cs => do
  let rest ← Text.dropLeading? ("-----" ++ word ++ " ").toList cs
  let rest := (oneOf ["RSA ", "DSA ", "EC ", "OPENSSH "] rest).getD rest
  Text.dropLeading? "PRIVATE KEY-----".toList rest

/-- The text behind the first closing mark. -/
def afterMark (mark : Reader) : Reader
  | [] => none
  | c :: cs =>
    match mark (c :: cs) with
    | some rest => some rest
    | none => afterMark mark cs

def privateKey : Reader := fun cs => (keyMark "BEGIN" cs).bind (afterMark (keyMark "END"))

def isSchemeChar (c : Char) : Bool :=
  (foldCase c).isAlphanum || c = '+' || c = '.' || c = '-'

def isAuthorityChar (c : Char) : Bool := !(Text.isBlank c || isQuote c || c = '/')

/-- What follows an `@` that has something behind it. -/
def hasHostBehind (cs : List Char) : Bool :=
  match cs with
  | '@' :: c :: _ => !(Text.isBlank c || isQuote c)
  | _ => false

/-- Some suffix, cut inside the authority, begins with an `@` that has something behind it. -/
def reachesHost : List Char → Bool
  | [] => false
  | c :: cs => hasHostBehind (c :: cs) || (isAuthorityChar c && reachesHost cs)

/-- A colon with a text before it, and a secret and an `@` behind it. -/
def hasCredentials : List Char → Bool
  | [] => false
  | c :: cs =>
    isAuthorityChar c &&
      ((match cs with
        | ':' :: d :: rest => isAuthorityChar d && reachesHost rest
        | _ => false) || hasCredentials cs)

/-- An address with user and password in front of its host; it runs to the next blank or quote. -/
def connection : Reader := fun cs =>
  match cs with
  | [] => none
  | c :: tail =>
    if (foldCase c).isAlpha then
      match Text.dropLeading? "://".toList (tail.dropWhile isSchemeChar) with
      | some rest =>
        if hasCredentials rest then
          some (rest.dropWhile fun c => !(Text.isBlank c || isQuote c))
        else none
      | none => none
    else none

def secretWord : Reader := fun cs =>
  match ["password", "passwd", "pwd"].findSome? (fun w => anyCase w.toList cs) with
  | some rest => some rest
  | none =>
    match anyCase "api".toList cs with
    | some rest => (optional (fun c => c = '_' || c = '-') rest).bind (anyCase "key".toList)
    | none => anyCase "secret".toList cs

/-- A word for a secret, a colon or equals sign, and at least eight characters. -/
def assignment : Reader := fun cs => do
  let rest ← secretWord cs
  let rest ← optional isQuote rest
  match rest.dropWhile Text.isBlank with
  | [] => none
  | c :: rest =>
    if c = ':' ∨ c = '=' then do
      let rest ← optional isQuote (rest.dropWhile Text.isBlank)
      let rest ← run 8 none (fun c => !(Text.isBlank c || isQuote c || c = ',')) rest
      optional isQuote rest
    else none

/-- The recognisers in the order they run, with their labels. -/
def secrets : List (Reader × String) := [
  (accessKey, "[AWS_KEY_REDACTED]"),
  (hostingToken, "[GITHUB_TOKEN_REDACTED]"),
  (bearer, "[BEARER_REDACTED]"),
  (privateKey, "[PEM_KEY_REDACTED]"),
  (connection, "[CONNECTION_STRING_REDACTED]"),
  (assignment, "[SECRET_REDACTED]")]

def redactText (s : String) : String :=
  String.ofList (secrets.foldl (fun cs (r, label) => replaceAll r.recogniser label cs) s.toList)

/-! ## Values -/

def sensitiveWords : List String :=
  ["token", "secret", "password", "api_key", "apikey", "authorization"]

/-- Some suffix of the text begins with the word. -/
def containsWord (word : List Char) : List Char → Bool
  | [] => word.isEmpty
  | c :: cs => word.isPrefixOf (c :: cs) || containsWord word cs

def isSensitive (key : String) : Bool :=
  let low := (Text.lower key).toList
  sensitiveWords.any fun w => containsWord w.toList low

mutual

def redact : Value → Value
  | .object members => .object (redactMembers members)
  | .array items => .array (redactItems items)
  | .string s => .string (redactText s)
  | v => v

def redactItems : List Value → List Value
  | [] => []
  | v :: vs => redact v :: redactItems vs

def redactMembers : List (String × Value) → List (String × Value)
  | [] => []
  | (k, v) :: ms =>
    (k, if isSensitive k then .string "[REDACTED]" else redact v) :: redactMembers ms

end

end CommandContract.Redaction
