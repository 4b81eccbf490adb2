import NeuralGenome.Genome.Gene

/-!
# The eight bytes of an operand

A pattern of sixty-four bits is written as eight bytes, most significant first.
Reading them back gives the pattern again, and writing a pattern that was read
from eight bytes gives these bytes, so that nothing about a number is lost: not
the sign of a zero and not the payload of what is no number.

Both laws rest on one observation about byte strings of equal length: they
spell different numbers.
-/

namespace NeuralGenome

namespace Binary64

/-! ## Numbers that bytes spell -/

/-- The number that bytes spell behind the digits of a number read before. -/
def spelled (number : Nat) (bytes : List UInt8) : Nat :=
  bytes.foldl (fun number byte => 256 * number + byte.toNat) number

@[simp]
theorem spelled_cons (number : Nat) (byte : UInt8) (rest : List UInt8) :
    spelled number (byte :: rest) =
      spelled (256 * number + byte.toNat) rest := rfl

theorem ofBytes_eq (bytes : List UInt8) :
    ofBytes bytes = ⟨UInt64.ofNat (spelled 0 bytes)⟩ := rfl

/-- Byte strings of one length that spell the same number are the same. -/
theorem spelled_inj {left right : List UInt8} {first second : Nat}
    (length : left.length = right.length)
    (same : spelled first left = spelled second right) :
    first = second ∧ left = right := by
  induction left generalizing right first second with
  | nil =>
      cases List.length_eq_zero_iff.mp length.symm
      exact ⟨same, rfl⟩
  | cons byte rest ih =>
      obtain ⟨other, others, rfl⟩ :=
        List.exists_cons_of_length_eq_add_one length.symm
      rw [spelled_cons, spelled_cons] at same
      obtain ⟨numbers, rfl⟩ := ih (Nat.succ.inj length) same
      have bounded := byte.toNat_lt
      have otherBounded := other.toNat_lt
      have sameByte : byte = other := UInt8.toNat_inj.mp (by omega)
      exact ⟨by omega, by rw [sameByte]⟩

/-- Every byte adds eight binary digits. -/
theorem spelled_lt (number : Nat) (bytes : List UInt8) :
    spelled number bytes < (number + 1) <<< (8 * bytes.length) := by
  induction bytes generalizing number with
  | nil => exact Nat.lt_succ_self number
  | cons byte rest ih =>
      have bounded := byte.toNat_lt
      calc
        spelled number (byte :: rest) =
            spelled (256 * number + byte.toNat) rest := rfl
        _ < (256 * number + byte.toNat + 1) <<< (8 * rest.length) := ih _
        _ ≤ ((number + 1) * 256) <<< (8 * rest.length) := by
            rw [Nat.shiftLeft_eq, Nat.shiftLeft_eq]
            exact Nat.mul_le_mul_right _ (by omega)
        _ = (number + 1) <<< (8 * (byte :: rest).length) := by
            rw [List.length_cons, Nat.mul_succ 8,
              Nat.add_comm (8 * rest.length), Nat.shiftLeft_add,
              Nat.shiftLeft_eq (number + 1)]

/-! ## Patterns -/

@[simp]
theorem length_bytes (x : Binary64) : x.bytes.length = 8 := rfl

/-- A pattern without its lowest bytes is spelled on by the next of them. -/
theorem spelled_byte (x : Binary64) (place : Nat) :
    256 * (x.bits.toNat >>> (8 * (place + 1))) + (x.byte place).toNat =
      x.bits.toNat >>> (8 * place) := by
  rw [byte, UInt8.toNat_ofNat', Nat.mul_succ, Nat.shiftRight_add,
    Nat.shiftRight_eq_div_pow _ 8]
  exact Nat.div_add_mod _ 256

/-- So many of the lowest bytes of a pattern, most significant first. -/
def lowest (x : Binary64) : Nat → List UInt8
  | 0 => []
  | place + 1 => x.byte place :: x.lowest place

theorem spelled_lowest (x : Binary64) (count : Nat) :
    spelled (x.bits.toNat >>> (8 * count)) (x.lowest count) =
      x.bits.toNat := by
  induction count with
  | zero => rfl
  | succ place ih => rw [lowest, spelled_cons, spelled_byte, ih]

theorem spelled_bytes (x : Binary64) : spelled 0 x.bytes = x.bits.toNat := by
  have nothing : x.bits.toNat >>> (8 * 8) = 0 := by
    have bounded := x.bits.toNat_lt
    rw [Nat.shiftRight_eq_div_pow]
    omega
  have all := x.spelled_lowest 8
  rw [nothing] at all
  exact all

/-- A pattern is read back from its bytes. -/
@[simp]
theorem ofBytes_bytes (x : Binary64) : ofBytes x.bytes = x := by
  rw [ofBytes_eq, spelled_bytes, UInt64.ofNat_toNat]

/-- Eight bytes are the bytes of the pattern that they spell. -/
theorem bytes_ofBytes {bytes : List UInt8} (eight : bytes.length = 8) :
    (ofBytes bytes).bytes = bytes := by
  have small : spelled 0 bytes < UInt64.size := by
    have bounded := spelled_lt 0 bytes
    rw [eight] at bounded
    exact bounded
  have same : spelled 0 (ofBytes bytes).bytes = spelled 0 bytes := by
    rw [spelled_bytes, ofBytes_eq]
    exact UInt64.toNat_ofNat_of_lt small
  exact (spelled_inj ((length_bytes _).trans eight.symm) same).2

end Binary64

end NeuralGenome
