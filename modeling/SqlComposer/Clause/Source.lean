import SqlComposer.Argument
import SqlComposer.Clause.Part

/-! Sources of rows: tables and embedded queries, as FROM lists them. -/

namespace SqlComposer

def aliased (name : String) : Option String → String
  | some a => name ++ " AS " ++ a
  | none => name

inductive Source where
  | table (name : String) (asName : Option String)
  | query (id : Option StatementId) (asName : String)
  deriving Repr

def Source.parts : Source → List Part
  | table name asName => [.text (aliased name asName)]
  | query id asName => Part.embedded "(" id (") AS " ++ asName)

inductive SourceEdit where
  | table (name asName : Value)
  | query (id : Option StatementId) (asName : Value)

namespace SourceEdit

def source : SourceEdit → Except Fault Source
  | table name asName => do
    let t ← requireText "table" name
    let a ← optionalText asName
    return .table (t.besideAlias a) a
  | query id asName => do
    let a ← requireText "alias" asName
    return .query id a.within

def apply (e : SourceEdit) (sources : List Source) : Except Fault (List Source) := do
  let s ← e.source
  return sources ++ [s]

end SourceEdit
end SqlComposer
