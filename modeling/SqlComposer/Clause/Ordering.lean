import SqlComposer.Argument
import SqlComposer.Clause.Part

/-! The ORDER BY clause. -/

namespace SqlComposer

def direction (ascending : Bool) : String :=
  if ascending then "ASC" else "DESC"

inductive NullsOrder where
  | unspecified
  | first
  | last
  deriving DecidableEq, Repr

namespace NullsOrder

def text : NullsOrder → String
  | unspecified => ""
  | first => "NULLS FIRST"
  | last => "NULLS LAST"

def required (v : Value) : Except Fault NullsOrder :=
  match [unspecified, first, last].find? (some ·.text == v.text?) with
  | some unspecified => .error .nullsOrderMissing
  | some n => .ok n
  | none => .error (.unknownNullsOrder v)

end NullsOrder

inductive OrderingEdit where
  | expressions (exprs : List Value)
  | columns (ascending : Bool) (cs : List Value)
  | nulls (column : Value) (ascending : Bool) (place : Value)
  | position (p : Value) (ascending : Bool)
  | collate (column collation : Value) (ascending : Bool)

namespace OrderingEdit

def positionOf : Value → Except Fault Int
  | .int n => if 1 ≤ n then .ok n else .error (.positionRange (.int n))
  | v => .error (.positionRange v)

def addText (items : List String) (text : Except Fault String) : Step (List String) :=
  .ofExcept items (text.map fun t => items ++ [t])

/-- Expressions in front of the first that is refused are kept; columns are added all or none. -/
def apply (e : OrderingEdit) (items : List String) : Step (List String) :=
  match e with
  | expressions exprs =>
    (leadingTexts "expr" exprs).map fun texts => items ++ texts
  | columns ascending cs => .ofExcept items do
    let names ← cs.mapM (requireText "column")
    return items ++ names.map fun c => c.within ++ " " ++ direction ascending
  | nulls column ascending place => addText items do
    let n ← NullsOrder.required place
    let c ← requireText "column" column
    return c.within ++ " " ++ direction ascending ++ " " ++ n.text
  | position p ascending => addText items do
    let n ← positionOf p
    let text ← spell (.int n)
    return text ++ " " ++ direction ascending
  | collate column collation ascending => addText items do
    let k ← requireText "collation" collation
    let c ← requireText "column" column
    return c.within ++ " COLLATE " ++ k.within ++ " " ++ direction ascending

end OrderingEdit

def orderingClause (items : List String) : List Part :=
  Part.clause " ORDER BY " ", " (items.map fun i => [.text i])

end SqlComposer
