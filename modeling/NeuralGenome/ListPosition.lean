import NeuralGenome.Fault
import NeuralGenome.Word

/-!
# Positions in lists

An integer can name a place in a list in two ways.  A *signed* position counts
from either end: `-1` is the last place and `-n` the first of `n`; other
positions name nothing.  A *wrapped* position goes around the list, so that
every integer names a place of a list that is not empty.
-/

namespace NeuralGenome

namespace ListPosition

/--
The place that a position denotes in a list of a given size, unless it lies
outside.
-/
def place? (size : Nat) (position : Int) : Option Nat :=
  if 0 ≤ position then
    if position < size then some position.toNat else none
  else if -(size : Int) ≤ position then some (size + position).toNat
  else none

/-- The element that a position denotes, unless it lies outside the list. -/
def get? {Element : Type} (list : List Element) (position : Int) :
    Option Element :=
  (place? list.length position).bind (list[·]?)

/-- The fault of a position that denotes nothing. -/
def absence (position : Int) : Fault :=
  if Word.holds position then .position else .oversizedPosition

/--
The place that a position denotes; a position outside the list is a fault.
-/
def locate (size : Nat) (position : Int) : Except Fault Nat :=
  match place? size position with
  | some place => .ok place
  | none => .error (absence position)

/--
The element that a position denotes; a position outside the list is a fault.
-/
def find {Element : Type} (list : List Element) (position : Int) :
    Except Fault Element :=
  match get? list position with
  | some element => .ok element
  | none => .error (absence position)

/-- The place that an integer names around a list of a given size. -/
def wrap (size : Nat) (position : Int) : Nat :=
  (position % (size : Int)).toNat

/-- An integer that counts a place of a list from the start. -/
def Within (size : Nat) (position : Int) : Prop :=
  0 ≤ position ∧ position < size

instance (size : Nat) (position : Int) : Decidable (Within size position) :=
  inferInstanceAs (Decidable (_ ∧ _))

/-- The place of a signed position lies in the list. -/
theorem lt_of_place? {size place : Nat} {position : Int}
    (found : place? size position = some place) : place < size := by
  unfold place? at found
  split at found
  · split at found
    · injection found
      omega
    · contradiction
  · split at found
    · injection found
      omega
    · contradiction

/-- The place of a wrapped position lies in the list. -/
theorem wrap_lt {size : Nat} (position : Int) (occupied : 0 < size) :
    wrap size position < size := by
  have lower := Int.emod_nonneg position (show (size : Int) ≠ 0 by omega)
  have upper := Int.emod_lt_of_pos position (show (0 : Int) < size by omega)
  unfold wrap
  omega

/-- The place of a wrapped position is its remainder. -/
theorem natCast_wrap {size : Nat} (position : Int) (occupied : 0 < size) :
    (wrap size position : Int) = position % size :=
  Int.toNat_of_nonneg (Int.emod_nonneg position (by omega))

/-- A place of a list is a place of every longer list. -/
theorem Within.mono {size larger : Nat} {position : Int}
    (within : Within size position) (grown : size ≤ larger) :
    Within larger position :=
  ⟨within.1, Int.lt_of_lt_of_le within.2 (Int.ofNat_le.mpr grown)⟩

/-- A remainder modulo the size of a list counts a place of it. -/
theorem within_emod {size : Nat} (position : Int) (occupied : 0 < size) :
    Within size (position % size) :=
  ⟨Int.emod_nonneg position (by omega), Int.emod_lt_of_pos position (by omega)⟩

/-- A place counted from the start is found where it is counted. -/
theorem Within.place? {size : Nat} {position : Int}
    (within : Within size position) :
    place? size position = some position.toNat := by
  simp only [ListPosition.place?, within.1, within.2, if_true]

theorem Within.locate {size : Nat} {position : Int}
    (within : Within size position) :
    locate size position = .ok position.toNat := by
  simp only [ListPosition.locate, within.place?]

/-! ## Positions counted from either end -/

section Spans

variable {size : Nat} {position : Int}

/--
An integer that names a place of a list, counted from the start or below zero
from the end.
-/
def Spans (size : Nat) (position : Int) : Prop :=
  -(size : Int) ≤ position ∧ position < size

instance (size : Nat) (position : Int) : Decidable (Spans size position) :=
  inferInstanceAs (Decidable (_ ∧ _))

/-- The integer that counts the same place from the start. -/
def fromStart (size : Nat) (position : Int) : Int :=
  if position < 0 then size + position else position

theorem Spans.within_fromStart (spans : Spans size position) :
    Within size (fromStart size position) := by
  have lower := spans.1
  have upper := spans.2
  unfold fromStart
  split
  · exact ⟨by omega, by omega⟩
  · exact ⟨by omega, upper⟩

theorem Spans.place?_fromStart (spans : Spans size position) :
    place? size (fromStart size position) = place? size position := by
  rw [spans.within_fromStart.place?, place?, fromStart]
  split
  · rw [if_neg (by omega), if_pos spans.1]
  · rw [if_pos (by omega), if_pos spans.2]

theorem place?_of_not_spans (outside : ¬ Spans size position) :
    place? size position = none := by
  unfold Spans at outside
  unfold place?
  split
  · rw [if_neg (by omega)]
  · rw [if_neg (by omega)]

theorem Spans.locate (spans : Spans size position) :
    locate size position = .ok (fromStart size position).toNat := by
  rw [ListPosition.locate, ← spans.place?_fromStart,
    spans.within_fromStart.place?]

theorem locate_of_not_spans (outside : ¬ Spans size position) :
    locate size position = .error (absence position) := by
  rw [locate, place?_of_not_spans outside]

end Spans

end ListPosition

end NeuralGenome
