import SqlComposer.Clause.Source
import SqlComposer.Text.LetterCase

/-! Joins. A join has a kind, a source and at most one condition; its values belong to the condition
and follow those of an embedded query. -/

namespace SqlComposer

inductive JoinKind where
  | inner
  | left
  | right
  | full
  | cross
  deriving DecidableEq, Repr

namespace JoinKind

def keyword : JoinKind → String
  | inner => "JOIN"
  | left => "LEFT JOIN"
  | right => "RIGHT JOIN"
  | full => "FULL JOIN"
  | cross => "CROSS JOIN"

def name : JoinKind → String
  | inner => "INNER"
  | left => "LEFT"
  | right => "RIGHT"
  | full => "FULL"
  | cross => "CROSS"

def ofName? (s : String) : Option JoinKind :=
  [inner, left, right, full, cross].find? (·.name == Text.upper s)

def resolve : Named JoinKind → Except Fault JoinKind
  | .choice k => .ok k
  | .name v =>
    match ofName? v.plain with
    | some k => .ok k
    | none => .error (.unknownJoinKind v)

end JoinKind

inductive JoinCondition where
  | none
  | on (text : String)
  | columns (names : List String)
  deriving Repr

def JoinCondition.ofText : Option String → JoinCondition
  | some t => .on t
  | Option.none => .none

def JoinCondition.text : JoinCondition → String
  | none => ""
  | on t => " ON " ++ t
  | columns names => " USING (" ++ ", ".intercalate names ++ ")"

structure Join where
  natural : Bool
  kind : JoinKind
  source : Source
  condition : JoinCondition
  values : List Value
  deriving Repr

def Join.conditionText (j : Join) : String :=
  match j.source with
  | .query none _ => ""
  | _ => j.condition.text

def Join.parts (j : Join) : List Part :=
  .text ((if j.natural then " NATURAL " else " ") ++ j.kind.keyword ++ " ")
    :: j.source.parts ++ [.bound j.conditionText j.values]

inductive JoinEdit where
  | table (kind : Named JoinKind) (name on asName : Value) (values : List Value)
  | columns (kind : Named JoinKind) (name : Value) (names : List Phrase) (asName : Value)
  | natural (kind : Named JoinKind) (name : Value)
  | query (kind : Named JoinKind) (id : Option StatementId) (asName on : Value)
      (values : List Value)

namespace JoinEdit

/-- A cross join with a table takes no condition. -/
def tableCondition (kind : JoinKind) (on : Value) : Except Fault JoinCondition :=
  if kind = .cross ∧ on.isTrue then .error .crossJoinCondition
  else (optionalText on).map .ofText

def join : JoinEdit → Except Fault Join
  | table kind name on asName values => do
    let k ← JoinKind.resolve kind
    let t ← requireText "table" name
    let a ← optionalText asName
    let c ← tableCondition k on
    return ⟨false, k, .table t.within a, c, values⟩
  | columns _ _ [] _ => .error .noUsingColumns
  | columns kind name names asName => do
    let k ← JoinKind.resolve kind
    let t ← requireText "table" name
    let a ← optionalText asName
    return ⟨false, k, .table t.within a, .columns (names.map Phrase.alone), []⟩
  | natural kind name => do
    let k ← JoinKind.resolve kind
    let t ← requireText "table" name
    return ⟨true, k, .table t.within none, .none, []⟩
  | query kind id asName on values => do
    let a ← requireText "alias" asName
    let k ← JoinKind.resolve kind
    let c ← optionalText on
    return ⟨false, k, .query id a.within, .ofText c, values⟩

def apply (e : JoinEdit) (joins : List Join) : Except Fault (List Join) := do
  let j ← e.join
  return joins ++ [j]

end JoinEdit
end SqlComposer
