import SqlComposer.Clause.Part
import SqlComposer.Dialect.Basic

/-! Common tables: the named queries that WITH puts in front of a statement. -/

namespace SqlComposer

inductive Hint where
  | unspecified
  | materialized
  | notMaterialized
  deriving DecidableEq, Repr

namespace Hint

def text : Hint → String
  | unspecified => ""
  | materialized => "MATERIALIZED"
  | notMaterialized => "NOT MATERIALIZED"

def ofValue (v : Value) : Except Fault Hint :=
  match [unspecified, materialized, notMaterialized].find? (some ·.text == v.text?) with
  | some h => .ok h
  | none => .error (.unknownHint v)

def lead : Hint → String
  | unspecified => ""
  | h => h.text ++ " "

end Hint

structure CommonTable where
  name : String
  hint : Hint
  query : Option StatementId
  recursive : Bool
  deriving Repr

namespace CommonTable

def parts (t : CommonTable) : List Part :=
  Part.embedded (t.name ++ " AS " ++ t.hint.lead ++ "(\n") t.query "\n)"

/-- One recursive table makes the whole clause recursive. -/
def keyword (ts : List CommonTable) : String :=
  if ts.any (·.recursive) then "WITH RECURSIVE " else "WITH "

def clause (ts : List CommonTable) : List Part :=
  if ts.isEmpty then []
  else Part.clause (keyword ts) ",\n" (ts.map parts) ++ [.text "\n"]

end CommonTable

structure CommonTableEdit where
  name : Value
  query : Option StatementId
  hint : Value
  recursive : Bool

namespace CommonTableEdit

def checkHint (d : Dialect) (h : Hint) : Except Fault Unit :=
  if h = .unspecified ∨ d.supportsMaterializationHints then .ok ()
  else .error (d.unsupported ("CTE materialization hint " ++ h.text))

def table (d : Dialect) (e : CommonTableEdit) : Except Fault CommonTable := do
  let name ← requireText "name" e.name
  let hint ← Hint.ofValue e.hint
  checkHint d hint
  return ⟨name.within, hint, e.query, e.recursive⟩

def apply (d : Dialect) (e : CommonTableEdit) (ts : List CommonTable) :
    Except Fault (List CommonTable) := do
  let t ← e.table d
  return ts ++ [t]

end CommonTableEdit
end SqlComposer
