/-!
# Bits of byte strings

A byte string is also a string of bits, the most significant bit of the first
byte first.  Flipping the bits that a mask selects is a pointwise exclusive or
on that view.
-/

namespace NeuralGenome

namespace Bits

/-- The eight bits of a byte, the most significant first. -/
def ofByte (byte : UInt8) : List Bool :=
  [byte.toNat.testBit 7, byte.toNat.testBit 6, byte.toNat.testBit 5,
    byte.toNat.testBit 4, byte.toNat.testBit 3, byte.toNat.testBit 2,
    byte.toNat.testBit 1, byte.toNat.testBit 0]

/-- The bits of a byte string. -/
def ofBytes (bytes : List UInt8) : List Bool :=
  bytes.flatMap ofByte

/-- The byte with given bits, the most significant first. -/
def toByte (bits : List Bool) : UInt8 :=
  UInt8.ofNat (bits.foldl (fun number bit => 2 * number + bit.toNat) 0)

/--
The byte string with given bits; bits after the last whole byte are dropped.
-/
def toBytes : List Bool → List UInt8
  | a :: b :: c :: d :: e :: f :: g :: h :: rest =>
      toByte [a, b, c, d, e, f, g, h] :: toBytes rest
  | _ => []

/-- Flip the bits of a byte string that a mask selects. -/
def flip (mask : List Bool) (bytes : List UInt8) : List UInt8 :=
  toBytes (List.zipWith Bool.xor (ofBytes bytes) mask)

/-- How many bits a mask selects. -/
def flips (mask : List Bool) : Nat :=
  mask.count true

@[simp]
theorem length_ofBytes (bytes : List UInt8) :
    (ofBytes bytes).length = 8 * bytes.length := by
  induction bytes with
  | nil => rfl
  | cons byte rest ih =>
      rw [ofBytes, List.flatMap_cons, List.length_append, ← ofBytes, ih,
        List.length_cons, Nat.mul_succ, Nat.add_comm]
      rfl

@[simp]
theorem length_toBytes (bits : List Bool) :
    (toBytes bits).length = bits.length / 8 := by
  fun_induction toBytes bits with
  | case1 a b c d e f g h rest ih =>
      simp only [List.length_cons, ih]
      omega
  | case2 bits short =>
      have few : bits.length < 8 := by
        refine Nat.lt_of_not_le fun many => ?_
        match bits, many with
        | a :: b :: c :: d :: e :: f :: g :: h :: rest, _ =>
            exact short a b c d e f g h rest rfl
      rw [List.length_nil, Nat.div_eq_of_lt few]

/-- Flipping bits keeps the length, if the mask has a bit for every bit. -/
theorem length_flip {mask : List Bool} {bytes : List UInt8}
    (counted : mask.length = 8 * bytes.length) :
    (flip mask bytes).length = bytes.length := by
  rw [flip, length_toBytes, List.length_zipWith, length_ofBytes, counted,
    Nat.min_self, Nat.mul_div_cancel_left _ (by decide)]

end Bits

end NeuralGenome
