import SqlComposer.Clause.Source

/-! The column list of a query; without any column it is the star. -/

namespace SqlComposer

inductive Column where
  | expression (text : String)
  | query (id : Option StatementId) (asName : String)
  deriving Repr

def Column.parts : Column → List Part
  | expression t => [.text t]
  | query id asName => Part.embedded "(" id (") AS " ++ asName)

structure Projection where
  distinct : Bool
  columns : List Column
  deriving Repr

namespace Projection

def all : Projection := ⟨false, []⟩

def parts (p : Projection) : List Part :=
  .text (if p.distinct then "SELECT DISTINCT " else "SELECT ")
    :: if p.columns.isEmpty then [.text "*"] else Part.separated ", " (p.columns.map Column.parts)

def add (p : Projection) (columns : List Column) : Projection :=
  { p with columns := p.columns ++ columns }

end Projection

inductive AggregateFunction where
  | count
  | sum
  | avg
  | max
  | min
  deriving DecidableEq, Repr

def AggregateFunction.name : AggregateFunction → String
  | count => "COUNT"
  | sum => "SUM"
  | avg => "AVG"
  | max => "MAX"
  | min => "MIN"

def aggregateText (function column : Value) : Except Fault String := do
  let f ← requireText "func" function
  let c ← requireText "column" column
  return f.within ++ "(" ++ c.within ++ ")"

inductive ColumnEdit where
  | columns (cs : List Value)
  | columnAs (column asName : Value)
  | star
  | distinct
  | aggregate (function column asName : Value)
  | count (asName : Value)
  | countDistinct (column asName : Value)
  | query (id : Option StatementId) (asName : Value)

namespace ColumnEdit

def addText (p : Projection) (text : Except Fault String) : Step Projection :=
  .ofExcept p (text.map fun t => p.add [.expression t])

def apply (e : ColumnEdit) (p : Projection) : Step Projection :=
  match e with
  | columns cs =>
    (leadingTexts "column" cs).map fun texts => p.add (texts.map .expression)
  | columnAs column asName => addText p do
    let c ← requireText "column" column
    let a ← optionalText asName
    return aliased (c.besideAlias a) a
  | star => addText p (.ok "*")
  | distinct => .made { p with distinct := true }
  | aggregate function column asName => addText p do
    let text ← aggregateText function column
    return aliased text (← optionalText asName)
  | count asName => addText p do
    return aliased "COUNT(1)" (← optionalText asName)
  | countDistinct column asName => addText p do
    let c ← requireText "column" column
    let text ← aggregateText (.text AggregateFunction.count.name) (.text ("DISTINCT " ++ c.within))
    return aliased text (← optionalText asName)
  | query id asName => .ofExcept p do
    let a ← requireText "alias" asName
    return p.add [.query id a.within]

end ColumnEdit
end SqlComposer
