import CommandContract.Digest.Sha1

set_option autoImplicit false

/-!
# MD5

The digest of a list of bytes. Words are read and written with their least byte first; each of the
four parts of a block's 64 rounds takes the words of the block in an order of its own.
-/
namespace CommandContract.Md5

/-- The whole parts of the sines of one to 64, scaled to 32 bits. -/
def roundConstants : List UInt32 := [
  0xd76aa478, 0xe8c7b756, 0x242070db, 0xc1bdceee, 0xf57c0faf, 0x4787c62a, 0xa8304613, 0xfd469501,
  0x698098d8, 0x8b44f7af, 0xffff5bb1, 0x895cd7be, 0x6b901122, 0xfd987193, 0xa679438e, 0x49b40821,
  0xf61e2562, 0xc040b340, 0x265e5a51, 0xe9b6c7aa, 0xd62f105d, 0x02441453, 0xd8a1e681, 0xe7d3fbc8,
  0x21e1cde6, 0xc33707d6, 0xf4d50d87, 0x455a14ed, 0xa9e3e905, 0xfcefa3f8, 0x676f02d9, 0x8d2a4c8a,
  0xfffa3942, 0x8771f681, 0x6d9d6122, 0xfde5380c, 0xa4beea44, 0x4bdecfa9, 0xf6bb4b60, 0xbebfbc70,
  0x289b7ec6, 0xeaa127fa, 0xd4ef3085, 0x04881d05, 0xd9d4d039, 0xe6db99e5, 0x1fa27cf8, 0xc4ac5665,
  0xf4292244, 0x432aff97, 0xab9423a7, 0xfc93a039, 0x655b59c3, 0x8f0ccc92, 0xffeff47d, 0x85845dd1,
  0x6fa87e4f, 0xfe2ce6e0, 0xa3014314, 0x4e0811a1, 0xf7537e82, 0xbd3af235, 0x2ad7d2bb, 0xeb86d391]

structure Words where
  a : UInt32
  b : UInt32
  c : UInt32
  d : UInt32
  deriving DecidableEq, Repr

def Words.initial : Words := ⟨0x67452301, 0xefcdab89, 0x98badcfe, 0x10325476⟩

def Words.add (x y : Words) : Words := ⟨x.a + y.a, x.b + y.b, x.c + y.c, x.d + y.d⟩

def Words.toList (x : Words) : List UInt32 := [x.a, x.b, x.c, x.d]

/-- How three words are mixed in a round, which word of the block is taken, and the shifts of the
part. -/
def mixture (index : Nat) (s : Words) : UInt32 × Nat × List UInt32 :=
  if index < 16 then ((s.b &&& s.c) ||| (~~~s.b &&& s.d), index, [7, 12, 17, 22])
  else if index < 32 then
    ((s.d &&& s.b) ||| (~~~s.d &&& s.c), (5 * index + 1) % 16, [5, 9, 14, 20])
  else if index < 48 then (s.b ^^^ s.c ^^^ s.d, (3 * index + 5) % 16, [4, 11, 16, 23])
  else (s.c ^^^ (s.b ||| ~~~s.d), 7 * index % 16, [6, 10, 15, 21])

def round (block : List UInt32) (s : Words) (constant : UInt32) (index : Nat) : Words :=
  let (mixed, place, shifts) := mixture index s
  let sum := s.a + mixed + constant + block.getD place 0
  ⟨s.d, s.b + Sha1.rotateLeft sum (shifts.getD (index % 4) 0), s.b, s.c⟩

def compress (s : Words) (block : List UInt32) : Words :=
  s.add (roundConstants.zipIdx.foldl (fun s (k, i) => round block s k i) s)

def wordsOf : List Nat → List UInt32
  | a :: b :: c :: d :: rest => Sha256.wordOf d c b a :: wordsOf rest
  | _ => []

def padded (bytes : List Nat) : List Nat :=
  let zeros := (119 - bytes.length % 64) % 64
  bytes ++ 0x80 :: (List.replicate zeros 0 ++ (Sha256.bigEndian 8 (8 * bytes.length)).reverse)

/-- A word with its least byte first. -/
def turned (w : UInt32) : UInt32 :=
  match Sha256.bigEndian 4 w.toNat with
  | [a, b, c, d] => Sha256.wordOf d c b a
  | _ => w

def digest (bytes : List Nat) : List UInt32 :=
  let words := wordsOf (padded bytes)
  (((Sha256.blocks (words.length / 16) words).foldl compress Words.initial).toList).map turned

end CommandContract.Md5
