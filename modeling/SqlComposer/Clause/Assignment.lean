import SqlComposer.Clause.Part
import SqlComposer.Dialect.Json

/-! Assignments: a column and the expression whose value it takes. INSERT and UPDATE share them; the
one writes columns and expressions apart, the other side by side. -/

namespace SqlComposer

inductive AssignedValue where
  | expression (text : String) (values : List Value)
  | query (id : Option StatementId)
  deriving Repr

def AssignedValue.parts : AssignedValue → List Part
  | expression t values => [.bound t values]
  | query id => Part.embedded "(" id ")"

structure Assignment where
  column : String
  value : AssignedValue
  deriving Repr

def Assignment.parts (a : Assignment) : List Part :=
  .text (a.column ++ " = ") :: a.value.parts

inductive AssignmentEdit where
  | expression (column text : Value) (values : List Value)
  /-- One value for each entry; the keys become column names by the dialect's naming. -/
  | entries (es : Option (List (String × Value)))
  | now (column : Value)
  | null (column : Value)
  | default (column : Value)
  | document (storage : Json.Storage) (column value : Value)
  | bytes (column value : Value)
  | array (column values : Value)
  | uuid (column : Value)
  | nextValue (column sequence : Value)
  | query (column : Value) (id : Option StatementId)

namespace AssignmentEdit

def assign (reading : Phrase → String) (column : Value) (text : String)
    (values : List Value) : Except Fault Assignment := do
  let c ← requireText "column" column
  return ⟨reading c, .expression text values⟩

def leadingEntries (n : Naming) : List (String × Value) → Step (List Assignment)
  | [] => .made []
  | (key, v) :: es =>
    match requireText "column" (.text key) with
    | .ok _ => (leadingEntries n es).map (⟨n.convert key, .expression placeholder [v]⟩ :: ·)
    | .error f => .refused [] f

def one (a : Except Fault Assignment) : Step (List Assignment) :=
  .ofExcept [] (a.map ([·]))

/-- What an edit assigns, and the fault that ends it. The dialect is asked for an expression before
the column is looked at. Columns and expressions are written as the statement asks that puts them
together. -/
def assignments (d : Dialect) (reading : Phrase → String) (e : AssignmentEdit) :
    Step (List Assignment) :=
  match e with
  | expression column text values => one do
    let c ← requireText "column" column
    let t ← requireText "expr" text
    return ⟨reading c, .expression (reading t) values⟩
  | entries none => .refused [] .notMapping
  | entries (some es) => leadingEntries d.naming es
  | now column => one (assign reading column d.family.nowFunction [])
  | null column => one (assign reading column "NULL" [])
  | default column => one (assign reading column "DEFAULT" [])
  | document storage column value =>
    one (assign reading column (d.family.documentCast storage) [value])
  | bytes column value => one (assign reading column d.family.binaryCast [value])
  | array column values => one do
    match values.elements? with
    | some vs =>
      let text ← d.arrayLiteral vs.length
      assign reading column text vs
    | none => throw .notSequence
  | uuid column => one do
    let text ← d.uuidFunction
    assign reading column text []
  | nextValue column sequence => one do
    let s ← requireText "sequence" sequence
    let text ← d.nextValue s
    assign reading column text []
  | query column id => one do
    let c ← requireText "column" column
    return ⟨reading c, .query id⟩

end AssignmentEdit
end SqlComposer
