import NeuralGenome.Breeding.Probability
import NeuralGenome.Breeding.Strategy
import NeuralGenome.Decimal.Numeral
import NeuralGenome.Word

/-!
# Breeding settings

Settings say how two parents become a child: which seed the draws start from,
how parents are combined, what mutation follows, and how likely each bit flips.
Settings are read from named values of mixed types; every value that does not
fit is reported, in a fixed order.
-/

namespace NeuralGenome

/-- How children are bred. -/
structure Settings where
  seed : Option Int
  reproduction : Reproduction
  mutation : MutationKind
  probability : Probability
deriving DecidableEq

/-- The settings where nothing is chosen. -/
def Settings.standard : Settings :=
  ⟨none, .randomCodes, .bits, .hundredth⟩

/-- A value given for a setting. -/
inductive Settings.Value where
  | null
  | truth (value : Bool)
  | number (value : Number)
  | text (value : String)
  /-- A value of any other type. -/
  | other

namespace Settings

/-- The integer that a truth value stands for. -/
def truthNumber (value : Bool) : Int :=
  if value then 1 else 0

/-- How many digits a seed that is given as a text can have. -/
def longestSeed : Nat := 4300

/--
Whether a number without fraction can be a seed: it lies within the words, ends
excluded.
-/
def isSeedSize (value : Int) : Bool :=
  Word.least < value && value < Word.greatest

/--
Read a seed that is given as a text.  A plain integer with too many digits is
refused for its size, whatever follows it; every other numeral with too many
digits cannot be read.
-/
def readSeedText (text : String) : Except SettingFault (Option Int) :=
  if longestSeed < Decimal.plainLength text then .error .oversizedSeed
  else
    match Decimal.integerNumeral? text with
    | some numeral =>
        if numeral.digits.length ≤ longestSeed then .ok (some numeral.value)
        else .error .unreadableSeed
    | none => .error .unreadableSeed

/--
Read a seed: an integer, a truth value, an integral number, or a text of digits.
-/
def readSeed : Value → Except SettingFault (Option Int)
  | .null => .ok none
  | .truth value => .ok (some (truthNumber value))
  | .number (.integer value) => .ok (some value)
  | .number (.pattern value) =>
      if !value.isFinite then .error .infiniteSeed
      else if value.quanta % Binary64.quantaPerOne != 0 then
        .error .fractionalSeed
      else if isSeedSize value.truncated then .ok (some value.truncated)
      else .error .oversizedSeed
  | .text value => readSeedText value
  | .other => .error .seedType

/-- Read how parents are combined, which must be named exactly. -/
def readReproduction : Value → Except SettingFault Reproduction
  | .text value =>
      match Reproduction.ofName? value with
      | some reproduction => .ok reproduction
      | none => .error .reproductionName
  | _ => .error .reproductionName

/-- Read what is mutated, which must be named exactly. -/
def readMutation : Value → Except SettingFault MutationKind
  | .text value =>
      match MutationKind.ofName? value with
      | some kind => .ok kind
      | none => .error .mutationName
  | _ => .error .mutationName

/--
A number as a probability; the upper bound is checked first, which refuses what
is no number.
-/
def checkProbability (value : Binary64) : Except SettingFault Probability :=
  if value.atMost Binary64.one then
    if proper : (Binary64.zero.atMost value && value.atMost Binary64.one) =
      true then
      .ok ⟨value, proper⟩
    else .error .probabilityBelowZero
  else .error .probabilityAboveOne

/-- Read a probability: a number, a truth value, or a decimal text. -/
def readProbability : Value → Except SettingFault Probability
  | .truth value =>
      checkProbability (if value then Binary64.one else Binary64.zero)
  | .number number =>
      match number.toBinary64 with
      | .ok value => checkProbability value
      | .error _ => .error .probabilityType
  | .text value =>
      match Decimal.readNumber? value with
      | some value => checkProbability value
      | none => .error .unreadableProbability
  | .null | .other => .error .probabilityType

/-- The value of a setting that is read, or its default when none is given. -/
def readOr {Setting : Type} (default : Setting)
    (read : Value → Except SettingFault Setting) :
    Option Value → Except SettingFault Setting
  | some value => read value
  | none => .ok default

/-- The fault of a reading, if it failed. -/
def faultOf {Setting : Type} : Except SettingFault Setting → List SettingFault
  | .ok _ => []
  | .error fault => [fault]

/--
Read settings from named values; names that are no settings are left aside.
-/
def ofFields (fields : List (String × Value)) : Except Fault Settings :=
  let seed := readOr standard.seed readSeed (fields.lookup "seed")
  let reproduction :=
    readOr standard.reproduction readReproduction (fields.lookup "reproducer")
  let mutation :=
    readOr standard.mutation readMutation (fields.lookup "mutation")
  let probability :=
    readOr standard.probability readProbability
      (fields.lookup "mutation_probability")
  match seed, reproduction, mutation, probability with
  | .ok seed, .ok reproduction, .ok mutation, .ok probability =>
      .ok ⟨seed, reproduction, mutation, probability⟩
  | seed, reproduction, mutation, probability =>
      .error (.settings
        (faultOf seed ++ faultOf reproduction ++ faultOf mutation ++
          faultOf probability))

/-- Settings refuse every change. -/
def assign (_settings : Settings) (name : String) : Except Fault Settings :=
  .error (.settings [.frozen name])

end Settings

end NeuralGenome
