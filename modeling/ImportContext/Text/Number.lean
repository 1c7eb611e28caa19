import ImportContext.Text.Blank

/-!
# Reading numbers

Unsigned numbers of 64 bits in decimal digits, with an optional plus sign. The text is read from
the left, and the first character that is wrong or too much decides the error.
-/

namespace ImportContext.Text

/-- Why a text is no number. -/
inductive NumberError where
  | empty
  | invalidDigit
  | tooLarge
deriving DecidableEq, Repr

/-- The wording of an error. -/
def NumberError.message : NumberError → String
  | empty => "cannot parse integer from empty string"
  | invalidDigit => "invalid digit found in string"
  | tooLarge => "number too large to fit in target type"

/-- Reads digits behind those that gave `value`. -/
def readDigits (value : Nat) : List Char → Except NumberError Nat
  | [] => .ok value
  | c :: rest =>
    if c.isDigit then
      let next := value * 10 + (c.toNat - 48)
      if next < UInt64.size then readDigits next rest else .error .tooLarge
    else .error .invalidDigit

/-- The number that a text stands for. -/
def parseNumber (s : String) : Except NumberError Nat :=
  match s.toList with
  | [] => .error .empty
  | ['+'] => .error .invalidDigit
  | '+' :: digits => readDigits 0 digits
  | digits => readDigits 0 digits

end ImportContext.Text
