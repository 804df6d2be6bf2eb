import SqlComposer.Clause.Part
import SqlComposer.Dialect.Basic
import SqlComposer.Text.Decimal

/-! The window of rows that a query keeps: at most `limit` rows after the first `offset`. -/

namespace SqlComposer

structure Window where
  limit : Option Nat
  offset : Nat
  deriving DecidableEq, Repr

namespace Window

def all : Window := ⟨none, 0⟩

def isWritable (w : Window) : Bool :=
  w.limit.all Text.Numeral.isWritable && Text.Numeral.isWritable w.offset

def clause (d : Dialect) (w : Window) : List Part :=
  match d.family.window (w.limit.map Int.ofNat) w.offset with
  | "" => []
  | text => [.text (" " ++ text)]

end Window

inductive WindowEdit where
  | limit (n : Value)
  | offset (n : Value)
  | limitOffset (limit offset : Value)
  /-- Pages count from one; a page before the first is the first. -/
  | page (page size : Value)
  | pageFromZero (page size : Value)

/-- How many pages lie before one. A whole number goes by its kind; of a page between two others it
is no whole number. -/
inductive PagesBefore where
  | whole (kind : String) (n : Int)
  | fraction (x : Float)

namespace PagesBefore

/-- Texts and sequences can be taken several times, but not in part. -/
def checkSize (pages : PagesBefore) (size : Value) : Except Fault Unit :=
  match size, pages with
  | .int _, _ | .bool _, _ | .float _, _ => .ok ()
  | .text _, fraction _ | .operator _, fraction _ | .bytes _, fraction _ => .error .notRepeated
  | .list _, fraction _ | .sequence _, fraction _ => .error .notRepeated
  | .text _, _ | .operator _, _ | .bytes _, _ | .list _, _ | .sequence _, _ => .ok ()
  | size, whole kind _ => .error (.notMultiplied kind size.kind)
  | size, fraction _ => .error (.notMultiplied "float" size.kind)

def rows (pages : PagesBefore) (size : Int) : Value :=
  match pages with
  | whole _ n => .int (n * size)
  | fraction x => .float (Text.Decimal.write (x * Text.Decimal.ofInt size))

end PagesBefore

namespace WindowEdit

def limitOf : Value → Except Fault Nat
  | .int n => if 0 < n then .ok n.toNat else .error (.limitRange (.int n))
  | v => .error (.limitRange v)

def offsetOf : Value → Except Fault Nat
  | .int n => if 0 ≤ n then .ok n.toNat else .error (.offsetRange (.int n))
  | v => .error (.offsetRange v)

def setLimit (w : Window) (n : Value) : Step Window :=
  .ofExcept w ((limitOf n).map fun k => { w with limit := some k })

def setOffset (w : Window) (n : Value) : Step Window :=
  .ofExcept w ((offsetOf n).map fun k => { w with offset := k })

/-- A limit that is accepted stays, even if the offset is refused. -/
def setBoth (w : Window) (limit offset : Value) : Step Window :=
  match setLimit w limit with
  | ⟨w, none⟩ => setOffset w offset
  | step => step

/-- How many pages lie before a page, where pages are counted from `first` and a page before the
first is the first. What is no number is before or behind no page. -/
def pagesBefore (first : Int) : Value → Except Fault PagesBefore
  | .int n => .ok (.whole "int" (max n first - first))
  | .bool b => .ok (.whole (if first = 0 then "bool" else "int") (max (b.toNat : Int) first - first))
  | .float digits =>
    let n := Text.Decimal.read digits
    let origin := Text.Decimal.ofInt first
    .ok (if n < origin then .whole "int" 0 else .fraction (n - origin))
  | v => .error (.notOrdered v.kind)

/-- The product is formed before its size is looked at as a limit. -/
def setPage (w : Window) (first : Int) (page size : Value) : Step Window :=
  match pagesBefore first page with
  | .error fault => .refused w fault
  | .ok pages =>
    match pages.checkSize size, size with
    | .error fault, _ => .refused w fault
    | .ok _, .int n => setBoth w size (pages.rows n)
    | .ok _, size => setLimit w size

def apply (e : WindowEdit) (w : Window) : Step Window :=
  match e with
  | limit n => setLimit w n
  | offset n => setOffset w n
  | limitOffset l o => setBoth w l o
  | page p size => setPage w 1 p size
  | pageFromZero p size => setPage w 0 p size

end WindowEdit
end SqlComposer
