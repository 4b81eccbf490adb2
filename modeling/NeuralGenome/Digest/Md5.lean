/-!
# The MD5 digest

`Md5.digest` pads a message to whole blocks of sixty-four bytes and folds the
compression of one block over them.  A digest serves as a short signature of a
genome; its text form is thirty-two hexadecimal digits.
-/

namespace NeuralGenome

namespace Md5

/-- The four words that are carried from block to block. -/
structure State where
  a : UInt32
  b : UInt32
  c : UInt32
  d : UInt32

/-- The words before the first block. -/
def State.initial : State :=
  ⟨0x67452301, 0xefcdab89, 0x98badcfe, 0x10325476⟩

/-- The additive constants of the sixty-four steps. -/
def constants : Array UInt32 :=
  #[0xd76aa478, 0xe8c7b756, 0x242070db, 0xc1bdceee, 0xf57c0faf, 0x4787c62a,
    0xa8304613, 0xfd469501, 0x698098d8, 0x8b44f7af, 0xffff5bb1, 0x895cd7be,
    0x6b901122, 0xfd987193, 0xa679438e, 0x49b40821, 0xf61e2562, 0xc040b340,
    0x265e5a51, 0xe9b6c7aa, 0xd62f105d, 0x02441453, 0xd8a1e681, 0xe7d3fbc8,
    0x21e1cde6, 0xc33707d6, 0xf4d50d87, 0x455a14ed, 0xa9e3e905, 0xfcefa3f8,
    0x676f02d9, 0x8d2a4c8a, 0xfffa3942, 0x8771f681, 0x6d9d6122, 0xfde5380c,
    0xa4beea44, 0x4bdecfa9, 0xf6bb4b60, 0xbebfbc70, 0x289b7ec6, 0xeaa127fa,
    0xd4ef3085, 0x04881d05, 0xd9d4d039, 0xe6db99e5, 0x1fa27cf8, 0xc4ac5665,
    0xf4292244, 0x432aff97, 0xab9423a7, 0xfc93a039, 0x655b59c3, 0x8f0ccc92,
    0xffeff47d, 0x85845dd1, 0x6fa87e4f, 0xfe2ce6e0, 0xa3014314, 0x4e0811a1,
    0xf7537e82, 0xbd3af235, 0x2ad7d2bb, 0xeb86d391]

/-- The rotations of the four rounds, each repeated four times. -/
def rotations : Array UInt32 :=
  #[7, 12, 17, 22, 5, 9, 14, 20, 4, 11, 16, 23, 6, 10, 15, 21]

/-- Rotate a word to the left. -/
def rotate (word amount : UInt32) : UInt32 :=
  (word <<< amount) ||| (word >>> (32 - amount))

/-- The mixing function and the word of the block that a step uses. -/
def selection (state : State) (step : Nat) : UInt32 × Nat :=
  match step / 16 with
  | 0 => ((state.b &&& state.c) ||| (~~~state.b &&& state.d), step)
  | 1 =>
      ((state.d &&& state.b) ||| (~~~state.d &&& state.c), (5 * step + 1) % 16)
  | 2 => (state.b ^^^ state.c ^^^ state.d, (3 * step + 5) % 16)
  | _ => (state.c ^^^ (state.b ||| ~~~state.d), (7 * step) % 16)

/-- One of the sixty-four steps on a block. -/
def advance (block : Array UInt32) (state : State) (step : Nat) : State :=
  let (mixed, word) := selection state step
  let sum := state.a + mixed + constants.getD step 0 + block.getD word 0
  let amount := rotations.getD (4 * (step / 16) + step % 4) 0
  ⟨state.d, state.b + rotate sum amount, state.b, state.c⟩

/-- Fold one block into the carried words. -/
def compress (state : State) (block : Array UInt32) : State :=
  let final := (List.range 64).foldl (advance block) state
  ⟨state.a + final.a, state.b + final.b, state.c + final.c, state.d + final.d⟩

/-- The bytes of a number, least significant first. -/
def littleEndian (count number : Nat) : List UInt8 :=
  (List.range count).map fun place => UInt8.ofNat (number >>> (8 * place))

/--
A message with an end mark, zeros up to the last eight bytes of a block, and its
bit length.
-/
def padded (message : List UInt8) : List UInt8 :=
  message ++ 0x80 :: List.replicate ((119 - message.length % 64) % 64) 0 ++
    littleEndian 8 (8 * message.length)

/--
The words of a byte string, each from four bytes with the least significant
first.
-/
def words : List UInt8 → List UInt32
  | a :: b :: c :: d :: rest =>
      (a.toUInt32 ||| b.toUInt32 <<< 8 ||| c.toUInt32 <<< 16 |||
        d.toUInt32 <<< 24) :: words rest
  | _ => []

/-- The blocks of sixteen words at given positions of a message. -/
def blocks (words : Array UInt32) : List (Array UInt32) :=
  (List.range (words.size / 16)).map fun position =>
    words.extract (16 * position) (16 * position + 16)

/-- The sixteen bytes of the digest of a message. -/
def digest (message : List UInt8) : List UInt8 :=
  let final :=
    (blocks (words (padded message)).toArray).foldl compress State.initial
  [final.a, final.b, final.c, final.d].flatMap fun word =>
    littleEndian 4 word.toNat

/-- The two hexadecimal digits of a byte. -/
def byteText (byte : UInt8) : List Char :=
  [Nat.digitChar (byte.toNat / 16), Nat.digitChar (byte.toNat % 16)]

/-- The digest of a message as hexadecimal text. -/
def text (message : List UInt8) : String :=
  String.ofList ((digest message).flatMap byteText)

end Md5

end NeuralGenome
