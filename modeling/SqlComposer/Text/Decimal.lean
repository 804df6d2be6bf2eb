/-! Binary numbers in decimal text. A number is written with the fewest digits that read back as the
same number, and of those with the ones nearest to it. Numbers from 0.0001 up to 10^16 are written
out, others with an exponent. -/

namespace SqlComposer.Text.Decimal

def natOf (digits : List Char) : Nat :=
  digits.foldl (fun n c => 10 * n + (c.toNat - '0'.toNat)) 0

def exponentOf : List Char → Int
  | 'e' :: '-' :: ds => -(natOf ds : Int)
  | 'e' :: '+' :: ds => natOf ds
  | 'e' :: ds => natOf ds
  | _ => 0

def fractionOf : List Char → List Char × List Char
  | '.' :: cs => cs.span Char.isDigit
  | cs => ([], cs)

def infinite : Float := 1.0 / 0.0

def undefined : Float := 0.0 / 0.0

def inUnits (base : Nat) (unit : Int) (n d : Nat) : Nat × Nat :=
  if unit < 0 then (n * base.pow unit.natAbs, d) else (n, d * base.pow unit.natAbs)

/-- A quotient rounded to a natural number; a half goes to the even neighbour. -/
def rounded (n d : Nat) : Nat :=
  let below := n / d
  let rest := 2 * (n % d)
  if d < rest || (rest == d && below % 2 == 1) then below + 1 else below

/-- The power of two in whose units a quotient has 53 binary digits, or the least one there is. -/
def binaryUnit (n d : Nat) : Int :=
  let unit := (n.log2 : Int) - d.log2 - 52
  let (a, b) := inUnits 2 unit n d
  max (if a / b < Nat.pow 2 52 then unit - 1 else unit) (-1074)

def nearest (n d : Nat) : Float :=
  if n = 0 then 0.0
  else
    let unit := binaryUnit n d
    let (a, b) := inUnits 2 unit n d
    let bits := (unit + 1074).toNat * Nat.pow 2 52 + rounded a b
    Float.ofBits (UInt64.ofNat (min bits infinite.toBits.toNat))

def scaled (n : Nat) (e : Int) : Float :=
  if e < 0 then nearest n (Nat.pow 10 e.natAbs) else nearest (n * Nat.pow 10 e.natAbs) 1

def ofInt (n : Int) : Float :=
  if n < 0 then -nearest n.natAbs 1 else nearest n.natAbs 1

def readUnsigned (cs : List Char) : Float :=
  let (whole, cs) := cs.span Char.isDigit
  let (fraction, cs) := fractionOf cs
  scaled (natOf (whole ++ fraction)) (exponentOf cs - fraction.length)

def read (s : String) : Float :=
  match s with
  | "nan" => undefined
  | "inf" => infinite
  | "-inf" => -infinite
  | s =>
    match s.toList with
    | '-' :: cs => -readUnsigned cs
    | cs => readUnsigned cs

def quotient (x : Float) : Nat × Nat :=
  let bits := x.toBits.toNat % Nat.pow 2 63
  let fraction := bits % Nat.pow 2 52
  let scale := bits / Nat.pow 2 52
  if scale = 0 then (fraction, Nat.pow 2 1074)
  else if scale < 1075 then (Nat.pow 2 52 + fraction, Nat.pow 2 (1075 - scale))
  else ((Nat.pow 2 52 + fraction) * Nat.pow 2 (scale - 1075), 1)

def leading (n d : Nat) : Int :=
  if d ≤ n then (Nat.toDigits 10 (n / d)).length - 1
  else -((List.range 400).find? fun j => d ≤ n * Nat.pow 10 j).getD 0

/-- The multiple of the unit that reads back as the number; the nearer one if both neighbours do. -/
def neighbour? (x : Float) (unit : Int) : Option Nat :=
  let (n, d) := quotient x
  let (n, d) := inUnits 10 unit n d
  let below := n / d
  let readsBack (k : Nat) : Bool := (scaled k unit).toBits == x.toBits
  match readsBack below, readsBack (below + 1) with
  | true, true => some (rounded n d)
  | true, false => some below
  | false, true => some (below + 1)
  | false, false => none

/-- Digits of a positive number and the power of ten of the last of them. -/
def shortest (x : Float) : List Char × Int :=
  let (n, d) := quotient x
  let units := (List.range 17).map fun (count : Nat) => leading n d - (count : Int)
  match units.findSome? fun unit => (neighbour? x unit).map fun k => (k, unit) with
  | some (k, unit) =>
    let digits := Nat.toDigits 10 k
    let zeros := (digits.reverse.takeWhile (· == '0')).length
    (digits.take (digits.length - zeros), unit + zeros)
  | none => (['0'], 0)

def zeros (n : Int) : List Char := List.replicate n.toNat '0'

def exponentText (e : Int) : List Char :=
  let digits := Nat.toDigits 10 e.natAbs
  'e' :: (if e < 0 then '-' else '+') :: (zeros (2 - digits.length) ++ digits)

/-- Digits laid out, given the power of ten of the last of them. -/
def layout (digits : List Char) (last : Int) : List Char :=
  let first := last + digits.length - 1
  if first < -4 || 16 ≤ first then
    match digits with
    | [d] => d :: exponentText first
    | d :: ds => d :: '.' :: ds ++ exponentText first
    | [] => []
  else if 0 ≤ last then digits ++ zeros last ++ ['.', '0']
  else if 0 ≤ first then
    digits.take (first + 1).toNat ++ '.' :: digits.drop (first + 1).toNat
  else '0' :: '.' :: zeros (-first - 1) ++ digits

def writeUnsigned (x : Float) : List Char :=
  if x == infinite then "inf".toList
  else if x == 0.0 then "0.0".toList
  else
    let (digits, last) := shortest x
    layout digits last

def write (x : Float) : String :=
  if x.isNaN then "nan"
  else if Nat.pow 2 63 ≤ x.toBits.toNat then String.ofList ('-' :: writeUnsigned (-x))
  else String.ofList (writeUnsigned x)

end SqlComposer.Text.Decimal
