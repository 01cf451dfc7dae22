/-!
# FlowRelay.Text.Numeral

Whole numbers in text: an optional plus sign, then one or more digits of the base, no larger than a
given bound.  Digits are read from the left, so of two faults the leftmost is reported.
-/

namespace FlowRelay.Text

/-- Why a text is not a number of the wanted kind. -/
inductive NumeralError where
  | empty
  | invalidDigit
  | tooLarge
  deriving DecidableEq, Repr

/-- The wording of a numeral error. -/
def NumeralError.message : NumeralError → String
  | .empty => "cannot parse integer from empty string"
  | .invalidDigit => "invalid digit found in string"
  | .tooLarge => "number too large to fit in target type"

/-- The value of an ASCII digit or letter as a digit, for bases up to 36. -/
def digitValue (c : Char) : Option Nat :=
  if '0' ≤ c ∧ c ≤ '9' then some (c.toNat - '0'.toNat)
  else if 'a' ≤ c ∧ c ≤ 'z' then some (c.toNat - 'a'.toNat + 10)
  else if 'A' ≤ c ∧ c ≤ 'Z' then some (c.toNat - 'A'.toNat + 10)
  else none

/-- The value of a digit of the base. -/
def digit? (base : Nat) (c : Char) : Option Nat :=
  (digitValue c).filter (· < base)

/-- Read digits behind a number already read. -/
def readDigits (base bound : Nat) (value : Nat) : List Char → Except NumeralError Nat
  | [] => .ok value
  | c :: rest =>
    match digit? base c with
    | none => .error .invalidDigit
    | some d =>
      if value * base + d ≤ bound then readDigits base bound (value * base + d) rest
      else .error .tooLarge

/-- Read a number of at most `bound`.  A plus sign may stand in front of the first digit. -/
def readNumeral (base bound : Nat) : List Char → Except NumeralError Nat
  | [] => .error .empty
  | ['+'] => .error .invalidDigit
  | '+' :: digits => readDigits base bound 0 digits
  | digits => readDigits base bound 0 digits

/-- The largest value of a word of so many bits. -/
def maxOfBits (bits : Nat) : Nat := (1 <<< bits) - 1

example : readNumeral 10 255 "+07".toList = .ok 7 := rfl

example : readNumeral 10 255 "256".toList = .error .tooLarge := rfl

example : readNumeral 10 255 "999x".toList = .error .tooLarge := rfl

example : readNumeral 10 255 "-1".toList = .error .invalidDigit := rfl

end FlowRelay.Text
