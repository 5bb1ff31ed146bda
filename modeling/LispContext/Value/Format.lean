import LispContext.Value.Equality
import LispContext.Value.Print

/-!
Taking a list apart by a format. A format is a word with a code for each element: `d` wants a
number, `s` a string, `q` a symbol and `e` anything; `*` takes what is left of the list as one piece
and ends the format. A list fits if its elements do and, without a `*`, nothing is left over. The
codes are read from the left, and the first that fails decides what is wrong.
-/
namespace LispContext

inductive Kind where
  | number
  | string
  | symbol
  | expression
  deriving DecidableEq, Repr

namespace Kind

def name : Kind → String
  | number => "number"
  | string => "string"
  | symbol => "symbol"
  | expression => "expression"

def accepts : Kind → Value → Bool
  | number, item => item.number?.isSome
  | string, item => item.string?.isSome
  | symbol, item => item.symbol?.isSome
  | expression, _ => true

end Kind

inductive FormatCode where
  | element (kind : Kind)
  | remainder
  | unknown (code : Char)
  deriving DecidableEq, Repr

def FormatCode.ofChar : Char → FormatCode
  | 'd' => element .number
  | 's' => element .string
  | 'q' => element .symbol
  | 'e' => element .expression
  | '*' => remainder
  | code => unknown code

structure Format where
  codes : List FormatCode
  deriving DecidableEq, Repr

namespace Format

def ofString (codes : String) : Format := ⟨codes.toList.map .ofChar⟩

/-- How many elements the format asks for: the codes in front of the first that takes the remainder,
whether they are known or not. -/
def arity (format : Format) : Nat := (format.codes.takeWhile (· ≠ .remainder)).length

end Format

inductive Mismatch where
  /-- An element is not of the kind that its code wants. -/
  | wrongType (expected : String) (got : Value)
  /-- The list is shorter or longer than the format. -/
  | wrongCount (expected got : Nat)
  /-- The format holds a character that is no code. -/
  | unknownCode (code : Char)
  deriving DecidableEq, Repr

namespace Value

/-- Takes the elements of a list by the codes, after the pieces already taken (latest first). The
last argument is the error for a list of the wrong length. -/
def takePieces (uneven : Mismatch) :
    List FormatCode → Value → List Value → Except Mismatch (List Value)
  | [], list, taken => if list.isNil then .ok taken.reverse else .error uneven
  | .remainder :: _, list, taken => .ok (list :: taken).reverse
  | .unknown code :: _, _, _ => .error (.unknownCode code)
  | .element kind :: codes, pair _ item tail, taken =>
    if kind.accepts item then takePieces uneven codes tail (item :: taken)
    else .error (.wrongType kind.name item)
  | .element _ :: _, _, _ => .error uneven

/-- The pieces of a list by a format, one for each code up to a `*`. -/
def destructure (format : Format) (list : Value) : Except Mismatch (List Value) :=
  takePieces (.wrongCount format.arity list.length) format.codes list []

end Value

namespace Mismatch

def equal : Mismatch → Mismatch → Bool
  | wrongType expected got, wrongType expected' got' => expected = expected' && got.equal got'
  | wrongCount expected got, wrongCount expected' got' => expected = expected' && got = got'
  | unknownCode code, unknownCode code' => code = code'
  | _, _ => false

def message : Mismatch → String
  | wrongType expected got => "wrong-argument-type: expected " ++ expected ++ ", got " ++ got.print
  | wrongCount expected got =>
    "wrong-number-of-arguments: expected " ++ Text.Decimal.decimal expected ++ ", got " ++
      Text.Decimal.decimal got
  | unknownCode code => "unknown format code `" ++ code.toString ++ "`"

end Mismatch

end LispContext
