import NeuralGenome.Genome.Output

/-!
# Opcodes

Every gene starts with a tag byte that names one of ten opcodes.  Six create a
neuron and four name an existing one; the operand of the others carries no
meaning.
-/

namespace NeuralGenome

/-- What a gene does. -/
inductive Opcode where
  | createFixed
  | createRandom
  | createSum
  | createWeightedSum
  | createMin
  | createMax
  | moveTo
  | readFrom
  | setDx
  | setDy
deriving DecidableEq, Inhabited

namespace Opcode

/-- All opcodes, in the order of their tags. -/
def all : List Opcode :=
  [createFixed, createRandom, createSum, createWeightedSum, createMin,
    createMax, moveTo, readFrom, setDx, setDy]

/-- The byte that stands for an opcode. -/
def tag : Opcode → UInt8
  | createFixed => 0
  | createRandom => 1
  | createSum => 2
  | createWeightedSum => 3
  | createMin => 4
  | createMax => 5
  | moveTo => 6
  | readFrom => 7
  | setDx => 8
  | setDy => 9

/-- The opcode that a byte stands for. -/
def ofTag? (tag : UInt8) : Option Opcode :=
  all.find? fun opcode => opcode.tag == tag

/-- The opcode that an integer of any size stands for. -/
def ofCode? (code : Int) : Option Opcode :=
  all.find? fun opcode => (opcode.tag.toNat : Int) == code

/-- Whether an opcode creates a neuron. -/
def creates : Opcode → Bool
  | moveTo | readFrom | setDx | setDy => false
  | _ => true

/-- Whether an opcode names an existing neuron. -/
def isIndexed (opcode : Opcode) : Bool :=
  !opcode.creates

/-- Whether the operand of an opcode carries meaning. -/
def hasOperand : Opcode → Bool
  | createRandom | createSum | createMin | createMax => false
  | _ => true

/-- The word for an opcode in a one-line description. -/
def mnemonic : Opcode → String
  | createFixed => "FIXED"
  | createRandom => "RAND"
  | createSum => "SUM"
  | createWeightedSum => "WEIGHT"
  | createMin => "MIN"
  | createMax => "MAX"
  | moveTo => "MOVE"
  | readFrom => "READ"
  | setDx => "DX"
  | setDy => "DY"

/-- Every opcode is read back from its tag. -/
@[simp]
theorem ofTag?_tag (opcode : Opcode) : ofTag? opcode.tag = some opcode := by
  cases opcode <;> rfl

/-- A byte stands for an opcode exactly when it is its tag. -/
theorem ofTag?_eq_some_iff {tag : UInt8} {opcode : Opcode} :
    ofTag? tag = some opcode ↔ opcode.tag = tag := by
  constructor
  · intro found
    have matched := List.find?_some found
    exact eq_of_beq matched
  · rintro rfl
    exact ofTag?_tag opcode

/-- No two opcodes have one tag. -/
theorem tag_inj {left right : Opcode} : left.tag = right.tag ↔
    left = right := by
  constructor
  · intro same
    have found := ofTag?_tag left
    rw [same, ofTag?_tag] at found
    exact (Option.some.inj found).symm
  · rintro rfl
    rfl

/-- The bytes up to nine are tags. -/
theorem exists_tag_eq {tag : UInt8} (known : tag ≤ 9) :
    ∃ opcode : Opcode, opcode.tag = tag := by
  have bounded : tag.toNat < 10 :=
    Nat.lt_succ_of_le (UInt8.le_iff_toNat_le.mp known)
  have every : ∀ code : Fin 10, ∃ opcode ∈ all, opcode.tag.toNat =
      code := by decide
  obtain ⟨opcode, -, same⟩ := every ⟨tag.toNat, bounded⟩
  exact ⟨opcode, UInt8.toNat_inj.mp same⟩

theorem tag_le (opcode : Opcode) : opcode.tag ≤ 9 := by
  cases opcode <;> decide

/-- The bytes above nine are no tags. -/
theorem ofTag?_eq_none {tag : UInt8} (unknown : 9 < tag) :
    ofTag? tag = none := by
  cases found : ofTag? tag with
  | none => rfl
  | some opcode =>
      rw [← ofTag?_eq_some_iff.mp found] at unknown
      exact absurd opcode.tag_le (UInt8.not_le.mpr unknown)

/-- The first six tags are those of the opcodes that create a neuron. -/
theorem creates_iff_tag_le (opcode : Opcode) : opcode.creates ↔
    opcode.tag ≤ 5 := by
  cases opcode <;> decide

end Opcode

/-- The opcode that lets a neuron answer for an axis. -/
def Output.opcode : Output → Opcode
  | .dx => .setDx
  | .dy => .setDy

end NeuralGenome
