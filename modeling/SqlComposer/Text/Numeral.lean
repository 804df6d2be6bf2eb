import SqlComposer.Text.Blank
import SqlComposer.Text.DecimalDigit

/-! Integers in text. There may be white space around a numeral, a sign in front of it, and single
underscores between two of its digits. Long numerals are neither read nor written. -/

namespace SqlComposer.Text.Numeral

inductive Refusal where
  | malformed
  | tooLong (length : Nat)
  deriving DecidableEq, Repr

/-- The length of the longest numerals that are read and written. -/
def longest : Nat := 4300

/-- Whether a number has a numeral that is short enough to be written; a sign does not count. -/
def isWritable (n : Nat) : Bool := (Nat.toDigits 10 n).length ≤ longest

def wellSeparated (cs : List Char) : Bool :=
  cs.head? != some '_' && cs.getLast? != some '_' && !(cs.zip cs.tail).contains ('_', '_')

def valueOf (digits : List Char) : Nat :=
  (digits.filterMap decimalDigit?).foldl (fun n d => 10 * n + d) 0

/-- A numeral without a sign, in the digits of any script. Underscores do not count towards its
length. -/
def natural (cs : List Char) : Except Refusal Nat :=
  let body := cs.takeWhile fun c => c == '_' || (decimalDigit? c).isSome
  let digits := body.filter (· != '_')
  if digits.isEmpty || !wellSeparated body then .error .malformed
  else if longest < digits.length then .error (.tooLong digits.length)
  else if body.length < cs.length then .error .malformed
  else .ok (valueOf digits)

def integer (s : String) : Except Refusal Int :=
  match trimmed s.toList with
  | '-' :: cs => (natural cs).map fun n => -(n : Int)
  | '+' :: cs => (natural cs).map Int.ofNat
  | cs => (natural cs).map Int.ofNat

/-- A numeral without the zeros in front of it and the underscores among them. Behind such zeros
there may be a minus sign; if nothing or a point follows them, the last one stays. -/
def significant? (cs : List Char) : Option (List Char) :=
  let zeros := cs.takeWhile fun c => c == '0' || c == '_'
  let rest := cs.drop zeros.length
  match cs.head?, rest.head? with
  | some '0', none | some '0', some '.' => some (zeros.drop (zeros.length - 1) ++ rest)
  | some '0', some c => if c.isDigit || c == '-' then some rest else none
  | some c, _ => if c.isDigit then some cs else none
  | none, _ => none

def withoutFraction (cs : List Char) : List Char :=
  let fraction := (cs.dropWhile (· != '.')).tail
  if !fraction.isEmpty && fraction.all (· == '0') then cs.takeWhile (· != '.') else cs

def withoutSeparators (cs : List Char) : List Char :=
  if wellSeparated cs then cs.filter (· != '_') else cs

/-- A numeral of the digits 0 to 9 that begins with zero only if it is zero. A minus sign counts
towards its length. -/
def plainInteger (cs : List Char) : Except Refusal Int :=
  let minus := cs.head? == some '-'
  let body := if minus then cs.tail else cs
  let digits := body.takeWhile Char.isDigit
  let length := digits.length + minus.toNat
  if digits.isEmpty || (digits.head? == some '0' && body.length != 1) then .error .malformed
  else if longest < length then .error (.tooLong length)
  else if digits.length < body.length then .error .malformed
  else .ok (if minus then -(valueOf digits : Int) else valueOf digits)

def decimalInteger (s : String) : Except Refusal Int :=
  let (sign, cs) := match trimmed s.toList with
    | '-' :: cs => (['-'], cs)
    | '+' :: cs => ([], cs)
    | cs => ([], cs)
  match significant? cs with
  | some rest => plainInteger (sign ++ withoutSeparators (withoutFraction rest))
  | none => .error .malformed

end SqlComposer.Text.Numeral
