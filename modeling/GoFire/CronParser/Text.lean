import Mathlib.Data.List.Sort
import Mathlib.Tactic.Ring
import Mathlib.Algebra.Ring.Int.Defs
import Mathlib.Algebra.Ring.Divisibility.Basic
import Mathlib.Tactic.Linarith

/-! The functions of Go's packages strings, strconv and sort the cron parser calls, on texts
as lists of characters.
-/

namespace GoFire.CronParser

abbrev Text := List Char

/-- White space as unicode.IsSpace defines it. -/
def isSpace (c : Char) : Bool :=
  c == '\t' || c == '\n' || c == '\x0b' || c == '\x0c' || c == '\r' || c == ' '
  || c == '\u0085' || c == '\u00a0' || c == '\u1680'
  || ('\u2000' ≤ c && c ≤ '\u200a')
  || c == '\u2028' || c == '\u2029' || c == '\u202f' || c == '\u205f' || c == '\u3000'

/-- strings.Fields: the maximal runs of characters that are not white space. -/
def fields (text : Text) : List Text :=
  (text.splitOnP isSpace).filter (fun field => !field.isEmpty)

/-- strings.Split on a one-character separator. -/
def split (text : Text) (separator : Char) : List Text := text.splitOn separator

/-- strings.Contains for one character. -/
def containsChar (text : Text) (c : Char) : Bool := text.contains c

/-- strings.HasPrefix. -/
def hasPrefix (text start : Text) : Bool := start.isPrefixOf text

/-- The number a run of decimal digits stands for, read from the left. -/
def digitsValue (digits : Text) : Int :=
  digits.foldl (fun value digit => 10 * value + ((digit.toNat - '0'.toNat : Nat) : Int)) 0

/-- The digits of a numeral without its sign, and whether the sign is a minus. -/
def unsign : Text → Bool × Text
  | '+' :: digits => (false, digits)
  | '-' :: digits => (true, digits)
  | digits => (false, digits)

/-- strconv.Atoi on unbounded integers: an optional sign and one or more decimal digits. -/
def atoi (text : Text) : Option Int :=
  let (negative, digits) := unsign text
  if digits.isEmpty || !digits.all Char.isDigit then none
  else if negative then some (-digitsValue digits)
  else some (digitsValue digits)

/-- sort.Ints. -/
def sortInts (values : List Int) : List Int := values.insertionSort (· ≤ ·)

/-- sort.SearchInts: the least index whose entry is not below `v`. -/
def searchInts (values : List Int) (v : Int) : Nat :=
  values.findIdx (fun entry => decide (v ≤ entry))

end GoFire.CronParser
