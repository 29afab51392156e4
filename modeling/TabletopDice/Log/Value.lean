import TabletopDice.Log.Pattern

/-!
# Values in filters

A filter may ask for a field with a value: a number, or a pattern that the written value has to match. Most numbers
are patterns as well; those with a `+` in front are not.

- `isValue` says which texts are values.
-/

namespace TabletopDice.Log

/-- The text behind its sign, if it has one. -/
def unsigned : Text → Text
  | '+' :: rest | '-' :: rest => rest
  | t => t

/-- Whether a text is made of digits, with a point in them or none, and with an exponent or none. -/
def isDecimal (t : Text) : Bool :=
  let whole := t.takeWhile Char.isDigit
  let (fraction, rest) :=
    match t.drop whole.length with
    | '.' :: behind => (behind.takeWhile Char.isDigit, behind.dropWhile Char.isDigit)
    | rest => ([], rest)
  whole ++ fraction != [] &&
    match rest with
    | [] => true
    | 'e' :: exponent | 'E' :: exponent => unsigned exponent != [] && (unsigned exponent).all Char.isDigit
    | _ => false

/-- The names of numbers that have no digits, in lower case. -/
def numberNames : List String := ["inf", "infinity", "nan"]

/-- Whether a text is a number, by its digits or by its name in any case. -/
def isNumber (t : Text) : Bool :=
  isDecimal (unsigned t) || numberNames.any fun name => name.toList = (unsigned t).map Char.toLower

/-- Whether a field can be compared with a text. -/
def isValue (t : Text) : Bool := isNumber t || Pattern.isValid t

end TabletopDice.Log
