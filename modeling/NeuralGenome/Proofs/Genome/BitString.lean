import NeuralGenome.Bits
import NeuralGenome.Proofs.Genome.Operand

/-!
# Byte strings bit by bit

Taking a byte string apart into bits and putting it together again loses
nothing, in either direction, because both go by whole bytes.  So flipping bits
is an exclusive or of bit strings: it can be told bit by bit, it undoes itself,
two flips can be exchanged, and the bits that change are those that the mask
selects.

The bits of a byte are the binary digits of its number, and those of the eight
bytes of a pattern are the digits of the pattern.
-/

namespace NeuralGenome

namespace Bits

/-! ## Binary digits -/

/-- So many of the lowest binary digits of a number, most significant first. -/
def digits (number : Nat) : Nat → List Bool
  | 0 => []
  | count + 1 => number.testBit count :: digits number count

@[simp]
theorem length_digits (number count : Nat) :
    (digits number count).length = count := by
  induction count with
  | zero => rfl
  | succ count ih => rw [digits, List.length_cons, ih]

theorem getElem?_digits (number : Nat) {count place : Nat}
    (inside : place < count) :
    (digits number count)[place]? =
      some (number.testBit (count - 1 - place)) := by
  induction count generalizing place with
  | zero => cases inside
  | succ count ih =>
      cases place with
      | zero => rfl
      | succ place =>
          have behind := Nat.lt_of_succ_lt_succ inside
          rw [digits, List.getElem?_cons_succ, ih behind]
          congr 2
          omega

/-- The higher of some digits are those of the number without the lower ones. -/
theorem digits_add (number more count : Nat) :
    digits number (more + count) =
      digits (number >>> count) more ++ digits number count := by
  induction more with
  | zero => rw [Nat.zero_add, digits, List.nil_append]
  | succ more ih =>
      rw [Nat.succ_add, digits, digits, ih, Nat.testBit_shiftRight,
        Nat.add_comm count, List.cons_append]

/-- Digits above those that are asked for do not matter. -/
theorem digits_congr {number other count : Nat}
    (same : ∀ place < count, number.testBit place = other.testBit place) :
    digits number count = digits other count := by
  induction count with
  | zero => rfl
  | succ count ih =>
      rw [digits, digits, same count (Nat.lt_succ_self count),
        ih fun place inside => same place (Nat.lt_succ_of_lt inside)]

/-- Reading digits behind the higher part of a number gives the number. -/
theorem foldl_digits (number count : Nat) :
    (digits number count).foldl (fun number bit => 2 * number + bit.toNat)
      (number >>> count) = number := by
  induction count with
  | zero => rfl
  | succ count ih =>
      have next : 2 * (number >>> (count + 1)) + (number.testBit count).toNat =
          number >>> count := by
        rw [Nat.toNat_testBit, Nat.shiftRight_succ, ← Nat.shiftRight_eq_div_pow]
        exact Nat.div_add_mod _ 2
      rw [digits, List.foldl_cons, next, ih]

/-! ## Bits of bytes -/

theorem ofByte_eq_digits (byte : UInt8) :
    ofByte byte = digits byte.toNat 8 := rfl

@[simp]
theorem toByte_ofByte (byte : UInt8) : toByte (ofByte byte) = byte := by
  have nothing : byte.toNat >>> 8 = 0 :=
    Nat.shiftRight_eq_zero _ _ byte.toNat_lt
  have read := foldl_digits byte.toNat 8
  rw [nothing] at read
  rw [toByte, ofByte_eq_digits, read, UInt8.ofNat_toNat]

theorem ofByte_toByte : ∀ a b c d e f g h : Bool,
    ofByte (toByte [a, b, c, d, e, f, g, h]) = [a, b, c, d, e, f, g, h] := by
  decide +kernel

/-! ## Bits of byte strings -/

@[simp]
theorem ofBytes_cons (byte : UInt8) (rest : List UInt8) :
    ofBytes (byte :: rest) = ofByte byte ++ ofBytes rest := rfl

@[simp]
theorem toBytes_ofBytes (bytes : List UInt8) :
    toBytes (ofBytes bytes) = bytes := by
  induction bytes with
  | nil => rfl
  | cons byte rest ih =>
      show toByte (ofByte byte) :: toBytes (ofBytes rest) = byte :: rest
      rw [toByte_ofByte, ih]

/-- Bits that fill whole bytes are the bits of these bytes. -/
theorem ofBytes_toBytes {bits : List Bool} {count : Nat}
    (whole : bits.length = 8 * count) : ofBytes (toBytes bits) = bits := by
  induction count generalizing bits with
  | zero =>
      cases List.length_eq_zero_iff.mp whole
      rfl
  | succ count ih =>
      match bits, whole with
      | a :: b :: c :: d :: e :: f :: g :: h :: rest, whole =>
          have restWhole : rest.length = 8 * count := by
            simp only [List.length_cons] at whole
            omega
          rw [toBytes, ofBytes_cons, ofByte_toByte, ih restWhole]
          rfl

theorem ofBytes_inj {bytes others : List UInt8} :
    ofBytes bytes = ofBytes others ↔ bytes = others := by
  constructor
  · intro same
    rw [← toBytes_ofBytes bytes, same, toBytes_ofBytes]
  · exact congrArg ofBytes

/--
The bit of a byte string at a place; bit zero is the most significant one of the
first byte.
-/
def bit (bytes : List UInt8) (place : Nat) : Bool :=
  (bytes.getD (place / 8) 0).toNat.testBit (7 - place % 8)

theorem getElem?_ofBytes {bytes : List UInt8} {place : Nat}
    (inside : place < 8 * bytes.length) :
    (ofBytes bytes)[place]? = some (bit bytes place) := by
  induction bytes generalizing place with
  | nil => cases inside
  | cons byte rest ih =>
      rw [ofBytes_cons, ofByte_eq_digits, List.getElem?_append, length_digits]
      split
      next first =>
        rw [getElem?_digits _ first, bit, Nat.div_eq_of_lt first,
          Nat.mod_eq_of_lt first]
        rfl
      next later =>
        rw [List.length_cons] at inside
        obtain ⟨behind, rfl⟩ := Nat.exists_eq_add_of_le (Nat.le_of_not_lt later)
        rw [Nat.add_sub_cancel_left, ih (by omega), bit, bit,
          Nat.add_div_left _ (by decide), Nat.add_mod_left, List.getD_cons_succ]

/-- Byte strings of one length with the same bits are the same. -/
theorem ext_bit {bytes others : List UInt8}
    (length : bytes.length = others.length)
    (same : ∀ place < 8 * bytes.length, bit bytes place = bit others place) :
    bytes = others := by
  rw [← ofBytes_inj]
  apply List.ext_getElem?
  intro place
  by_cases inside : place < 8 * bytes.length
  · rw [getElem?_ofBytes inside, getElem?_ofBytes (length ▸ inside),
      same place inside]
  · rw [List.getElem?_eq_none, List.getElem?_eq_none]
    · rw [length_ofBytes, ← length]
      exact Nat.le_of_not_lt inside
    · rw [length_ofBytes]
      exact Nat.le_of_not_lt inside

/-! ## Bits of patterns -/

theorem ofByte_byte (x : Binary64) (place : Nat) :
    ofByte (x.byte place) = digits (x.bits.toNat >>> (8 * place)) 8 := by
  rw [ofByte_eq_digits]
  apply digits_congr
  intro lower inside
  have low : (x.byte place).toNat =
      (x.bits.toNat >>> (8 * place)) % Nat.pow 2 8 :=
    UInt8.toNat_ofNat'
  rw [low]
  have same := Nat.testBit_mod_two_pow (x.bits.toNat >>> (8 * place)) 8 lower
  rwa [decide_eq_true inside, Bool.true_and] at same

theorem ofBytes_lowest (x : Binary64) (count : Nat) :
    ofBytes (x.lowest count) = digits x.bits.toNat (8 * count) := by
  induction count with
  | zero => rfl
  | succ place ih =>
      rw [Binary64.lowest, ofBytes_cons, ofByte_byte, ih, ← digits_add,
        Nat.mul_succ, Nat.add_comm]

/--
The bits of the bytes of a pattern are its digits, most significant first.
-/
theorem bit_bytes (x : Binary64) {place : Nat} (inside : place < 64) :
    bit x.bytes place = x.bits.toNat.testBit (63 - place) := by
  have digit := getElem?_digits x.bits.toNat inside
  rw [← ofBytes_lowest x 8] at digit
  exact Option.some.inj ((getElem?_ofBytes inside).symm.trans digit)

/-! ## Flipping bits -/

section Flip

variable {mask other : List Bool} {bytes : List UInt8}

theorem ofBytes_flip (counted : mask.length = 8 * bytes.length) :
    ofBytes (flip mask bytes) = List.zipWith Bool.xor (ofBytes bytes) mask := by
  have whole : (List.zipWith Bool.xor (ofBytes bytes) mask).length =
      8 * bytes.length := by
    rw [List.length_zipWith, length_ofBytes, counted, Nat.min_self]
  exact ofBytes_toBytes whole

/-- A bit is turned exactly when the mask selects it. -/
theorem bit_flip (counted : mask.length = 8 * bytes.length) {place : Nat}
    {chosen : Bool} (selected : mask[place]? = some chosen) :
    bit (flip mask bytes) place = Bool.xor (bit bytes place) chosen := by
  have inside : place < 8 * bytes.length :=
    counted ▸ (List.getElem?_eq_some_iff.mp selected).1
  have flipped := congrArg (·[place]?) (ofBytes_flip counted)
  simp only [List.getElem?_zipWith, getElem?_ofBytes inside, selected]
    at flipped
  rw [getElem?_ofBytes (by rwa [length_flip counted])] at flipped
  exact Option.some.inj flipped

/--
A flipped byte string is known by what becomes of the bits that the mask has a
place for.
-/
theorem flip_eq_of_bits {others : List UInt8}
    (counted : mask.length = 8 * bytes.length)
    (length : bytes.length = others.length)
    (same : ∀ place < 8 * bytes.length, ∀ chosen ∈ mask,
      mask[place]? = some chosen →
      Bool.xor (bit bytes place) chosen = bit others place) : flip mask bytes =
        others := by
  apply ext_bit ((length_flip counted).trans length)
  intro place inside
  rw [length_flip counted] at inside
  have selected := List.getElem?_eq_getElem (counted.symm ▸ inside)
  rw [bit_flip counted selected]
  exact same place inside _ (List.getElem_mem _) selected

/-- Flipping the same bits again undoes it. -/
theorem flip_flip (counted : mask.length = 8 * bytes.length) :
    flip mask (flip mask bytes) = bytes := by
  have kept := length_flip counted
  apply flip_eq_of_bits (by rw [kept, counted]) kept
  intro place _ chosen _ selected
  rw [bit_flip counted selected, Bool.xor_assoc, Bool.xor_self, Bool.xor_false]

theorem flip_comm (counted : mask.length = 8 * bytes.length)
    (countedToo : other.length = 8 * bytes.length) :
    flip mask (flip other bytes) = flip other (flip mask bytes) := by
  have kept := length_flip counted
  have keptToo := length_flip countedToo
  have countedLater :
      other.length = 8 * (flip mask bytes).length := by rw [kept, countedToo]
  apply flip_eq_of_bits (by rw [keptToo, counted])
  · rw [keptToo, length_flip countedLater, kept]
  · intro place inside chosen _ selected
    rw [keptToo, ← countedToo] at inside
    have selectedToo := List.getElem?_eq_getElem inside
    rw [bit_flip countedToo selectedToo, bit_flip countedLater selectedToo,
      bit_flip counted selected, Bool.xor_assoc, Bool.xor_comm other[place],
      ← Bool.xor_assoc]

/-- A mask that selects nothing leaves a byte string as it is. -/
theorem flip_eq_self (counted : mask.length = 8 * bytes.length)
    (silent : ∀ chosen ∈ mask, chosen = false) : flip mask bytes = bytes := by
  apply flip_eq_of_bits counted rfl
  intro place _ chosen member _
  rw [silent chosen member, Bool.xor_false]

theorem bit_map_not {place : Nat} (inside : place < 8 * bytes.length) :
    bit (bytes.map (~~~ ·)) place = !bit bytes place := by
  have reached : place / 8 < bytes.length := Nat.div_lt_of_lt_mul inside
  have above : 7 - place % 8 < 8 := by omega
  rw [bit, bit, List.getD_eq_getElem?_getD, List.getD_eq_getElem?_getD,
    List.getElem?_map, List.getElem?_eq_getElem reached, Option.map_some,
    Option.getD_some, Option.getD_some]
  generalize bytes[place / 8] = byte
  have complement : (~~~byte).toNat = Nat.pow 2 8 - (byte.toNat + 1) := by
    rw [UInt8.toNat_not, Nat.add_comm, ← Nat.sub_sub]
  have turned := Nat.testBit_two_pow_sub_succ byte.toNat_lt (7 - place % 8)
  rw [decide_eq_true above, Bool.true_and] at turned
  rw [complement]
  exact turned

/-- A mask that selects everything turns every byte into its complement. -/
theorem flip_eq_complement (counted : mask.length = 8 * bytes.length)
    (full : ∀ chosen ∈ mask, chosen = true) :
    flip mask bytes = bytes.map (~~~ ·) := by
  apply flip_eq_of_bits counted (List.length_map _).symm
  intro place inside chosen member _
  rw [full chosen member, Bool.xor_true, bit_map_not inside]

/-- As many bits differ as the mask selects. -/
theorem countP_bit_flip (counted : mask.length = 8 * bytes.length) :
    ((List.range (8 * bytes.length)).countP fun place =>
      bit (flip mask bytes) place != bit bytes place) = flips mask := by
  have differ : (List.range (8 * bytes.length)).map
      (fun place => bit (flip mask bytes) place != bit bytes place) = mask := by
    apply List.ext_getElem (by rw [List.length_map, List.length_range, counted])
    intro place inside _
    rw [List.length_map, List.length_range] at inside
    have selected := List.getElem?_eq_getElem (counted.symm ▸ inside)
    rw [List.getElem_map, List.getElem_range, bit_flip counted selected]
    cases bit bytes place <;> cases mask[place] <;> rfl
  have counts := congrArg (List.count true) differ
  rw [List.count_eq_countP, List.countP_map] at counts
  simpa only [flips, Function.comp_def, beq_true] using counts

end Flip

end Bits

end NeuralGenome
