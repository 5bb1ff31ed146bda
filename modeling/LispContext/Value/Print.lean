import LispContext.Text.Quoted
import LispContext.Value.List

/-!
The printed form of values. A symbol is its name, a string is quoted, a number is decimal without
leading zeros; a list stands between parentheses with single blanks between its elements, and a rest
other than the empty list follows a point: `(a b . c)`. Printing works off a list of parts still to
be written, so neither length nor nesting costs stack.
-/
namespace LispContext

namespace Text.Decimal

def encode : Int → List Char
  | .ofNat n => Nat.toDigits 10 n
  | .negSucc n => '-' :: Nat.toDigits 10 (n + 1)

def decimal (n : Int) : String := String.ofList (encode n)

@[simp] theorem toList_decimal (n : Int) : (decimal n).toList = encode n := by simp [decimal]

example : decimal Int64.minValue.toInt = "-9223372036854775808" := by decide

end Text.Decimal

namespace Atom

def print : Atom → String
  | symbol name => name
  | string text => Text.Quoted.quote text
  | number value => Text.Decimal.decimal value.toInt

end Atom

namespace Value

/-- A part of a text still to be written: a whole value, or what follows the first element of a list
up to its closing parenthesis. -/
inductive Part where
  | whole (v : Value)
  | remainder (v : Value)

/-- Bounds the number of parts that are written for a part. -/
def Part.weight : Part → Nat
  | whole v => 2 * v.size
  | remainder v => 2 * v.size + 1

def Part.weights : List Part → Nat
  | [] => 0
  | part :: work => part.weight + weights work

/-- Writes the parts after what is written already. -/
def write (out : String) : List Part → String
  | [] => out
  | .whole nil :: work => write (out ++ "()") work
  | .whole (atom _ content) :: work => write (out ++ content.print) work
  | .whole (pair _ head tail) :: work =>
    write (out.push '(') (.whole head :: .remainder tail :: work)
  | .remainder nil :: work => write (out.push ')') work
  | .remainder (atom _ content) :: work => write ((out ++ " . " ++ content.print).push ')') work
  | .remainder (pair _ head tail) :: work =>
    write (out.push ' ') (.whole head :: .remainder tail :: work)
termination_by work => Part.weights work
decreasing_by all_goals simp only [Part.weights, Part.weight, size]; omega

def print (v : Value) : String := write "" [.whole v]

/-- The characters of a value, by recursion on the value: of the whole, or of the remainder of a
list. -/
def chars : Bool → Value → List Char
  | false, nil => ['(', ')']
  | false, atom _ content => content.print.toList
  | false, pair _ head tail => '(' :: (head.chars false ++ tail.chars true)
  | true, nil => [')']
  | true, atom _ content => [' ', '.', ' '] ++ content.print.toList ++ [')']
  | true, pair _ head tail => ' ' :: (head.chars false ++ tail.chars true)

def Part.chars : Part → List Char
  | whole v => v.chars false
  | remainder v => v.chars true

/-- The parts are written in order, after what was written before. -/
theorem toList_write (out : String) (work : List Part) :
    (write out work).toList = out.toList ++ work.flatMap Part.chars := by
  fun_induction write out work <;> simp_all [Part.chars, chars]

/-- Printing agrees with the recursion on the value. -/
theorem toList_print (v : Value) : v.print.toList = v.chars false := by
  simp [print, toList_write, Part.chars]

end Value

end LispContext
