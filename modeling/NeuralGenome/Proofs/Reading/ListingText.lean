import Mathlib.Data.List.Basic
import NeuralGenome.Reading.Listing

/-!
# The text of listings

Lines can be told apart by their text.  A line for a neuron starts with the
digits of its number, a wire with an arrow and an output with a letter; after
the digits the first character that is no digit says which kind of line it is.
No name has a line break, so the text of a listing can be cut into its lines
again.

Listings with the same text therefore have the same lines, whatever numbers the
names in them show.
-/

namespace NeuralGenome

/-! ## Text on one line -/

/-- Text without a line break. -/
def IsOneLine (text : String) : Prop :=
  '\n' ∉ text.toList

instance (text : String) : Decidable (IsOneLine text) :=
  inferInstanceAs (Decidable (¬_))

theorem IsOneLine.append {left right : String} (first : IsOneLine left)
    (second : IsOneLine right) : IsOneLine (left ++ right) := by
  rw [IsOneLine, String.toList_append, List.mem_append]
  exact fun broken => broken.elim first second

theorem isOneLine_ofList {characters : List Char}
    (unbroken : '\n' ∉ characters) : IsOneLine (String.ofList characters) := by
  rwa [IsOneLine, String.toList_ofList]

theorem isOneLine_of_sublist {part characters : List Char}
    (unbroken : '\n' ∉ characters)
    (sublist : part.Sublist characters) : IsOneLine (String.ofList part) :=
  isOneLine_ofList fun broken => unbroken (sublist.mem broken)

/-- A line break is no digit. -/
theorem lineBreak_notMem_toDigits (number : Nat) :
    '\n' ∉ Nat.toDigits 10 number := by
  intro broken
  have digit := Nat.isDigit_of_mem_toDigits (by decide) (by decide) broken
  revert digit
  decide

theorem isOneLine_toString (number : Nat) : IsOneLine (toString number) := by
  rw [Nat.toString_eq_repr, IsOneLine, Nat.toList_repr]
  exact lineBreak_notMem_toDigits number

namespace Decimal

theorem isOneLine_zeros (count : Nat) : IsOneLine (zeros count) := by
  refine isOneLine_ofList fun broken => ?_
  have zero := List.eq_of_mem_replicate broken
  revert zero
  decide

theorem lineBreak_notMem_significant (digits : Nat) :
    '\n' ∉ significant digits := by
  intro broken
  rw [significant, List.mem_reverse] at broken
  exact lineBreak_notMem_toDigits digits
    (List.mem_reverse.mp ((List.dropWhile_sublist _).mem broken))

theorem isOneLine_plain {digits : List Char} (unbroken : '\n' ∉ digits)
    (leading : Int) : IsOneLine (plain digits leading) := by
  unfold plain
  split
  · exact (IsOneLine.append (by decide) (isOneLine_zeros _)).append
      (isOneLine_ofList unbroken)
  · dsimp only
    split
    · exact ((isOneLine_ofList unbroken).append (isOneLine_zeros _)).append
        (by decide)
    · exact ((isOneLine_of_sublist unbroken (List.take_sublist _ _)).append
          (by decide)).append
        (isOneLine_of_sublist unbroken (List.drop_sublist _ _))

theorem isOneLine_scientific (style : Style) {digits : List Char}
    (unbroken : '\n' ∉ digits)
    (leading : Int) : IsOneLine (scientific style digits leading) := by
  have fraction : IsOneLine (if (digits.drop 1).isEmpty then ""
      else "." ++ String.ofList (digits.drop 1)) := by
    split
    · decide
    · exact IsOneLine.append (by decide)
        (isOneLine_of_sublist unbroken (List.drop_sublist _ _))
  have mark : IsOneLine (if leading < 0 then "e-" else "e+") := by
    split <;> decide
  have exponent :
      IsOneLine (padded style.exponentWidth (toString leading.natAbs)) :=
    (isOneLine_zeros _).append (isOneLine_toString _)
  have first : IsOneLine (String.ofList (digits.take 1)) :=
    isOneLine_of_sublist unbroken (List.take_sublist _ _)
  exact ((first.append fraction).append mark).append exponent

theorem isOneLine_text (style : Style) (decimal : Decimal) :
    IsOneLine (decimal.text style) := by
  unfold text
  dsimp only
  split
  · exact isOneLine_plain (lineBreak_notMem_significant _) _
  · exact isOneLine_scientific style (lineBreak_notMem_significant _) _

end Decimal

theorem Binary64.isOneLine_text (x : Binary64) : IsOneLine x.text := by
  have sign : IsOneLine (if x.isNegative then "-" else "") := by
    split <;> decide
  unfold text
  dsimp only
  split
  · decide
  · split
    · exact sign.append (by decide)
    · split
      · exact sign.append (by decide)
      · exact sign.append (Decimal.isOneLine_text _ _)

theorem Number.isOneLine_text (number : Number) : IsOneLine number.text := by
  cases number with
  | integer value =>
      cases value with
      | ofNat size => exact isOneLine_toString size
      | negSucc size =>
          exact IsOneLine.append (by decide) (isOneLine_toString _)
  | pattern value => exact value.isOneLine_text

/-- No name in a listing has a line break. -/
theorem Definition.isOneLine_listingName (definition : Definition Number) :
    IsOneLine definition.listingName := by
  have parameter := definition.parameter.isOneLine_text
  have called {first : String} (opening : IsOneLine first) :
      IsOneLine (first ++ definition.parameter.text ++ ")") :=
    (opening.append parameter).append (by decide)
  unfold listingName
  cases definition.kind with
  | fixed => exact called (by decide)
  | weightedSum => exact called (by decide)
  | inputX => exact (by decide : IsOneLine "X")
  | inputY => exact (by decide : IsOneLine "Y")
  | random => exact (by decide : IsOneLine "RAND")
  | sum => exact (by decide : IsOneLine "SUM")
  | minimum => exact (by decide : IsOneLine "MIN")
  | maximum => exact (by decide : IsOneLine "MAX")

/-! ## Lines -/

/-- The digits of a number, a mark that is no digit, and more text. -/
def marked (number : Nat) (mark : Char) (more : List Char) : List Char :=
  Nat.toDigits 10 number ++ mark :: more

theorem marked_inj {left right : Nat} {first second : Char}
    {more others : List Char}
    (firstMark : first.isDigit = false) (secondMark : second.isDigit = false)
    (same : marked left first more = marked right second others) :
    left = right ∧ first = second ∧ more = others := by
  -- the digits are what is taken while there are digits
  have digits {number : Nat} {mark : Char} {rest : List Char}
    (ends : mark.isDigit = false) :
      (marked number mark rest).takeWhile Char.isDigit =
        Nat.toDigits 10 number := by
    rw [marked, List.takeWhile_append_of_pos
      fun _ member =>
        Nat.isDigit_of_mem_toDigits (by decide) (by decide) member,
      List.takeWhile_cons_of_neg (by rw [ends]; decide), List.append_nil]
  have sameDigits : Nat.toDigits 10 left = Nat.toDigits 10 right := by
    rw [← digits firstMark, same, digits secondMark]
  have sameNumber : left = right := by
    rw [← @Nat.ofDigitChars_ten_toDigits left, sameDigits,
      Nat.ofDigitChars_ten_toDigits]
  subst sameNumber
  obtain ⟨marks, rests⟩ := List.cons.inj (List.append_cancel_left same)
  exact ⟨rfl, marks, rests⟩

/-- A text that starts with a digit does not start with anything else. -/
theorem marked_ne_cons {number : Nat} {mark first : Char}
    {more others : List Char} (start : first.isDigit = false) :
    marked number mark more ≠ first :: others := by
  intro same
  cases digits : Nat.toDigits 10 number with
  | nil => exact Nat.toDigits_ne_nil digits
  | cons digit rest =>
      have isDigit : digit.isDigit = true :=
        Nat.isDigit_of_mem_toDigits (by decide) (by decide)
          (digits ▸ List.mem_cons_self : digit ∈ Nat.toDigits 10 number)
      rw [marked, digits, List.cons_append] at same
      rw [(List.cons.inj same).1, start] at isDigit
      cases isDigit

namespace Listing

/-- The letter that tells two outputs apart. -/
def letter : Output → Char
  | .dx => 'X'
  | .dy => 'Y'

namespace Line

/-- The name that a line shows. -/
def name : Line → String
  | created _ name => name
  | receiver _ name => name
  | wire _ name => name
  | answer _ _ name => name

/-- The text of a line, character by character. -/
def characters : Line → List Char
  | created neuron name => marked neuron ' ' ('=' :: ' ' :: name.toList)
  | receiver neuron name => marked neuron ':' name.toList
  | wire neuron name => '→' :: marked neuron ':' name.toList
  | answer output neuron name =>
      'D' :: letter output :: ' ' :: '=' :: ' ' :: marked neuron ':' name.toList

theorem toList_text (line : Line) : line.text.toList = line.characters := by
  cases line with
  | created neuron name => simp [text, characters, marked, toString]
  | receiver neuron name => simp [text, characters, marked, toString]
  | wire neuron name => simp [text, characters, marked, toString]
  | answer output neuron name =>
      cases output <;> simp [text, characters, marked, toString,
        Output.mnemonic, letter]

/-- Lines with the same characters are the same line. -/
theorem characters_inj {left right : Line}
    (same : left.characters = right.characters) : left = right := by
  have colon : ':'.isDigit = false := rfl
  have blank : ' '.isDigit = false := rfl
  have arrow : '→'.isDigit = false := rfl
  have initial : 'D'.isDigit = false := rfl
  cases left <;> cases right
  case created.created =>
    obtain ⟨rfl, -, names⟩ := marked_inj blank blank same
    simp only [List.cons.injEq, true_and, String.toList_inj] at names
    rw [names]
  case receiver.receiver =>
    obtain ⟨rfl, -, names⟩ := marked_inj colon colon same
    rw [String.toList_inj.mp names]
  case wire.wire =>
    obtain ⟨rfl, -, names⟩ := marked_inj colon colon (List.cons.inj same).2
    rw [String.toList_inj.mp names]
  case answer.answer first _ _ second _ _ =>
    simp only [characters, List.cons.injEq, true_and] at same
    obtain ⟨rfl, -, names⟩ := marked_inj colon colon same.2
    rw [String.toList_inj.mp names]
    cases first <;> cases second
    case dx.dx => rfl
    case dy.dy => rfl
    all_goals exact absurd same.1 (by decide)
  -- the mark differs, or one of the two lines does not start with a digit
  case created.receiver =>
    exact absurd (marked_inj blank colon same).2.1 (by decide)
  case receiver.created =>
    exact absurd (marked_inj colon blank same).2.1 (by decide)
  case created.wire => exact absurd same (marked_ne_cons arrow)
  case created.answer => exact absurd same (marked_ne_cons initial)
  case receiver.wire => exact absurd same (marked_ne_cons arrow)
  case receiver.answer => exact absurd same (marked_ne_cons initial)
  case wire.created => exact absurd same.symm (marked_ne_cons arrow)
  case wire.receiver => exact absurd same.symm (marked_ne_cons arrow)
  case wire.answer => exact absurd (List.cons.inj same).1 (by decide)
  case answer.created => exact absurd same.symm (marked_ne_cons initial)
  case answer.receiver => exact absurd same.symm (marked_ne_cons initial)
  case answer.wire => exact absurd (List.cons.inj same).1 (by decide)

theorem text_inj {left right : Line} : left.text = right.text ↔
    left = right := by
  constructor
  · intro same
    exact characters_inj (by rw [← left.toList_text, same, right.toList_text])
  · intro same
    rw [same]

/-- A line whose name is on one line is on one line. -/
theorem isOneLine_text {line : Line} (oneLine : IsOneLine line.name) :
    IsOneLine line.text := by
  have numbered (neuron : Nat) {mark : Char} {more : List Char}
      (unmarked : '\n' ≠ mark)
      (rest : '\n' ∉ more) : '\n' ∉ marked neuron mark more := by
    rw [marked, List.mem_append, List.mem_cons]
    rintro (digit | mark | broken)
    · exact lineBreak_notMem_toDigits neuron digit
    · exact unmarked mark
    · exact rest broken
  rw [IsOneLine, toList_text]
  cases line with
  | created neuron name =>
      have rest : '\n' ∉ ' ' :: name.toList :=
        List.not_mem_cons_of_ne_of_not_mem (by decide) oneLine
      exact numbered neuron (by decide)
        (List.not_mem_cons_of_ne_of_not_mem (by decide) rest)
  | receiver neuron name => exact numbered neuron (by decide) oneLine
  | wire neuron name =>
      exact List.not_mem_cons_of_ne_of_not_mem (by decide)
        (numbered neuron (by decide) oneLine)
  | answer output neuron name =>
      have ending : '\n' ∉ marked neuron ':' name.toList :=
        numbered neuron (by decide) oneLine
      cases output <;> simpa [characters, letter] using ending

end Line

/-! ## Listings -/

/-- A listing with some line, and with no line break in the name on any line. -/
structure Legible (listing : Listing) : Prop where
  nonempty : listing.lines ≠ []
  names : ∀ line ∈ listing.lines, IsOneLine line.name

/-- A text, cut at its line breaks. -/
def rows (text : String) : List String :=
  (text.toList.splitOn '\n').map String.ofList

/-- The text of a legible listing can be cut into its lines again. -/
theorem Legible.rows_text {listing : Listing} (legible : listing.Legible) :
    rows listing.text = listing.lines.map Line.text := by
  have lineBreak : "\n".toList = ['\n'] := rfl
  have cut : listing.text.toList.splitOn '\n' =
      (listing.lines.map Line.text).map String.toList := by
    rw [text, String.toList_intercalate, lineBreak]
    refine List.splitOn_intercalate '\n' ?_ ?_
    · intro characters member
      simp only [List.map_map, List.mem_map, Function.comp_apply] at member
      obtain ⟨line, inside, rfl⟩ := member
      exact Line.isOneLine_text (legible.names line inside)
    · simpa using legible.nonempty
  have recovered : String.ofList ∘ String.toList = id :=
    funext fun text => String.ofList_toList
  rw [rows, cut, List.map_map, recovered, List.map_id]

/-- Legible listings with the same text have the same lines. -/
theorem Legible.lines_eq {left right : Listing} (first : left.Legible)
    (second : right.Legible)
    (same : left.text = right.text) : left.lines = right.lines := by
  have texts : left.lines.map Line.text = right.lines.map Line.text := by
    rw [← first.rows_text, same, second.rows_text]
  exact List.map_injective_iff.mpr (fun _ _ => Line.text_inj.mp) texts

namespace Legible

variable {listing : Listing}

theorem initial : Listing.initial.Legible where
  nonempty := by decide
  names := by
    intro line member
    have shown : line = .created 0 "X" ∨ line = .created 1 "Y" := by
      simpa [Listing.initial, create, flush, waitingLines,
        Definition.listingName] using member
    rcases shown with rfl | rfl <;> decide

/-- The name of a neuron, there or not, is on one line. -/
theorem isOneLine_name (listing : Listing) (neuron : Nat) :
    IsOneLine (listing.name neuron) := by
  rw [name]
  cases listing.neurons[neuron]? with
  | none => exact (by decide : IsOneLine "")
  | some definition => exact definition.isOneLine_listingName

/-- Lines that are written below others leave a listing legible. -/
theorem of_lines (legible : listing.Legible) {written : Listing}
    {more : List Line} (lines : written.lines = listing.lines ++ more)
    (names : ∀ line ∈ more, IsOneLine line.name) : written.Legible where
  nonempty := by
    rw [lines]
    exact List.append_ne_nil_of_left_ne_nil legible.nonempty _
  names := by
    intro line member
    rw [lines] at member
    exact (List.mem_append.mp member).elim (legible.names line) (names line)

theorem isOneLine_waitingLines {line : Line}
    (member : line ∈ listing.waitingLines) : IsOneLine line.name := by
  unfold waitingLines at member
  split at member
  · cases member
  · rcases List.mem_append.mp member with receiver | wire
    · split at receiver
      · cases receiver
      · rw [List.mem_singleton.mp receiver]
        exact isOneLine_name listing _
    · obtain ⟨neuron, -, rfl⟩ := List.mem_map.mp wire
      exact isOneLine_name listing neuron

theorem flush (legible : listing.Legible) : listing.flush.Legible :=
  legible.of_lines rfl fun _ member => isOneLine_waitingLines member

theorem receive (legible : listing.Legible) (call : NumericCall) :
    (listing.receive call).Legible := by
  have flushed := legible.flush
  cases call with
  | create neuron =>
      refine flushed.of_lines rfl fun line member => ?_
      rw [List.mem_singleton.mp member]
      exact Definition.isOneLine_listingName _
  | moveTo index => exact ⟨flushed.nonempty, flushed.names⟩
  | readFrom index => exact ⟨legible.nonempty, legible.names⟩
  | assign output index =>
      refine flushed.of_lines rfl fun line member => ?_
      rw [List.mem_singleton.mp member]
      exact isOneLine_name _ _

theorem receiveAll (legible : listing.Legible) (calls : List NumericCall) :
    (listing.receiveAll calls).Legible := by
  induction calls generalizing listing with
  | nil => exact legible
  | cons call rest ih => exact ih (legible.receive call)

end Legible

end Listing

/--
Programs whose listings have the same text have listings with the same lines.
-/
theorem Program.listing_lines_eq {left right : Program}
    (same : left.listing.text = right.listing.text) :
    left.listing.lines = right.listing.lines :=
  have legible (program : Program) : program.listing.Legible :=
    (Listing.Legible.initial.receiveAll _).flush
  (legible left).lines_eq (legible right) same

end NeuralGenome
