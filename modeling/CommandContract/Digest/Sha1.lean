import CommandContract.Digest.Sha256

set_option autoImplicit false

/-!
# SHA-1

The digest of a list of bytes. Blocks are filled as for SHA-256; a schedule has 80 words, and the
80 rounds over five working words fall into four parts.
-/
namespace CommandContract.Sha1

structure Words where
  a : UInt32
  b : UInt32
  c : UInt32
  d : UInt32
  e : UInt32
  deriving DecidableEq, Repr

def Words.initial : Words := ⟨0x67452301, 0xefcdab89, 0x98badcfe, 0x10325476, 0xc3d2e1f0⟩

def Words.add (x y : Words) : Words := ⟨x.a + y.a, x.b + y.b, x.c + y.c, x.d + y.d, x.e + y.e⟩

def Words.toList (x : Words) : List UInt32 := [x.a, x.b, x.c, x.d, x.e]

def rotateLeft (x : UInt32) (n : UInt32) : UInt32 := (x <<< n) ||| (x >>> (32 - n))

/-- How three words are mixed in a round, and the constant of its part. -/
def mixture (index : Nat) (s : Words) : UInt32 × UInt32 :=
  if index < 20 then ((s.b &&& s.c) ||| (~~~s.b &&& s.d), 0x5a827999)
  else if index < 40 then (s.b ^^^ s.c ^^^ s.d, 0x6ed9eba1)
  else if index < 60 then ((s.b &&& s.c) ||| (s.b &&& s.d) ||| (s.c &&& s.d), 0x8f1bbcdc)
  else (s.b ^^^ s.c ^^^ s.d, 0xca62c1d6)

def round (s : Words) (word : UInt32) (index : Nat) : Words :=
  let (mixed, constant) := mixture index s
  ⟨rotateLeft s.a 5 + mixed + s.e + constant + word, s.a, rotateLeft s.b 30, s.c, s.d⟩

/-- Adds words to a schedule that is kept with its last word first. -/
def extend : Nat → List UInt32 → List UInt32
  | 0, words => words
  | n + 1, words =>
    let word := words.getD 2 0 ^^^ words.getD 7 0 ^^^ words.getD 13 0 ^^^ words.getD 15 0
    extend n (rotateLeft word 1 :: words)

def schedule (block : List UInt32) : List UInt32 := (extend 64 block.reverse).reverse

def compress (s : Words) (block : List UInt32) : Words :=
  s.add ((schedule block).zipIdx.foldl (fun s (w, i) => round s w i) s)

def digest (bytes : List Nat) : List UInt32 :=
  let words := Sha256.wordsOf (Sha256.padded bytes)
  ((Sha256.blocks (words.length / 16) words).foldl compress Words.initial).toList

end CommandContract.Sha1
