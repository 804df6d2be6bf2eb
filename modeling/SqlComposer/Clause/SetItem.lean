import SqlComposer.Clause.Assignment
import SqlComposer.Json.Revision

/-! The SET clause of an UPDATE: assignments, and raw texts that assign. -/

namespace SqlComposer

inductive SetItem where
  | assignment (a : Assignment)
  | raw (text : String) (values : List Value)
  deriving Repr

def SetItem.parts : SetItem → List Part
  | assignment a => a.parts
  | raw t values => [.bound t values]

inductive Arithmetic where
  | add
  | subtract
  | multiply
  | divide
  | remainder
  deriving DecidableEq, Repr

def Arithmetic.symbol : Arithmetic → String
  | add => "+"
  | subtract => "-"
  | multiply => "*"
  | divide => "/"
  | remainder => "%"

inductive SetEdit where
  /-- A single value that the text has no placeholder for is assigned to the text. -/
  | raw (text : Value) (values : List Value)
  | arithmetic (op : Arithmetic) (column value : Value)
  | concat (column value : Value)
  | append (column value : Value)
  | prepend (column value : Value)
  | coalesce (column value : Value)
  | arrayAppend (column value : Value)
  | arrayRemove (column value : Value)
  | revise (storage : Json.Storage) (column : Value) (changes : List Json.Change)

namespace SetEdit

def rawItem (text : Phrase) (values : List Value) : SetItem :=
  match values with
  | [v] =>
    if text.alone.toList.contains '?' then .raw text.alone [v]
    else .assignment ⟨text.within, .expression placeholder [v]⟩
  | values => .raw text.alone values

/-- The new value is written around the column before the column is checked. -/
def assign (column : Value) (expression : String → String) (value : Value) :
    Except Fault SetItem := do
  let text ← spell column
  let c ← requireText "column" column
  return .assignment ⟨c.within, .expression (expression text) [value]⟩

/-- An operation that the dialect may lack; the dialect is asked before the column is looked at. -/
def assignGated (column : Value) (expression : String → Except Fault String)
    (value : Value) : Except Fault SetItem := do
  let text ← expression column.plain
  let _ ← spell column
  let c ← requireText "column" column
  return .assignment ⟨c.within, .expression text [value]⟩

def items (d : Dialect) (e : SetEdit) : Except Fault (List SetItem) :=
  match e with
  | raw text values => do
    let t ← requireText "expr" text
    return [rawItem t values]
  | arithmetic op column value => do
    return [← assign column (fun c => c ++ " " ++ op.symbol ++ " ?") value]
  | concat column value => do
    return [← assign column (fun c => "CONCAT(" ++ c ++ ", ?)") value]
  | append column value => do
    return [← assign column d.family.stringAppend value]
  | prepend column value => do
    return [← assign column d.family.stringPrepend value]
  | coalesce column value => do
    return [← assign column (fun c => "COALESCE(" ++ c ++ ", ?)") value]
  | arrayAppend column value => do
    return [← assignGated column d.arrayAppend value]
  | arrayRemove column value => do
    return [← assignGated column d.arrayRemove value]
  | revise storage column changes => do
    let c ← requireText "column" column
    let r ← (Json.Revision.start d.family storage c.alone).applyAll changes
    if r.isEmpty then return []
    let (text, values) := r.render
    return [.assignment ⟨c.within, .expression text values⟩]

end SetEdit
end SqlComposer
