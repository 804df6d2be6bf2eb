import SqlComposer.Clause.Condition
import SqlComposer.Dialect.Basic

/-! Filters: the changes of a WHERE clause. A filter on a guard value (a pattern, or a comparison
across columns) is dropped when the value is absent, except in an alternative, where it holds. -/

namespace SqlComposer

def requireCollection (op : Operator) : Value → Except Fault (List Value)
  | .bytes _ => .error (.notCollection op)
  | v => requireMembers (.notCollection op) v

def membership (op : Operator) (column : Value) (values : Value) :
    Except Fault (Option Predicate) := do
  let c := (← requireText "column" column).within
  match ← requireCollection op values with
  | [] => return none
  | [v] =>
    let single : Operator := if op = .within then .eq else .ne
    return some (.text (single.predicate c) [v])
  | vs =>
    let marks := ", ".intercalate (List.replicate vs.length placeholder)
    return some (.text (op.predicateOver c marks) vs)

/-- The two forms of a condition: a raw text with its values, or a column, an operator and the
values that the operator takes. A raw text is written as the place of the condition asks. -/
def expandCondition (reading : Phrase → String) (expr : Value) :
    List Value → Except Fault (Option Predicate)
  | .operator op :: values => do
    let column ← requireText "column" expr
    if op.takesCollection then
      match values with
      | [vs] => membership op expr vs
      | _ => throw (.collectionCount op)
    else if values.length = op.valueCount then
      return some (.text (op.predicate column.within) values)
    else throw (.valueCount op values.length)
  | values => do
    let text ← requireText "expression" expr
    return some (.text (reading text) values)

def Conditions.addExpanded (cs : Conditions) (logic : Logic) (expr : Value)
    (values : List Value) : Except Fault Conditions := do
  match ← expandCondition cs.reading expr values with
  | some p => cs.add (.choice logic) p
  | none => return cs

inductive Pattern where
  | contains
  | startsWith
  | endsWith
  /-- The value is a pattern itself. -/
  | verbatim
  deriving DecidableEq, Repr

def Pattern.wrap (p : Pattern) (s : String) : String :=
  match p with
  | contains => "%" ++ s ++ "%"
  | startsWith => s ++ "%"
  | endsWith => "%" ++ s
  | verbatim => s

inductive Comparison where
  | eq | ne | gt | gte | lt | lte
  deriving DecidableEq, Repr

def Comparison.operator : Comparison → Operator
  | eq => .eq
  | ne => .ne
  | gt => .gt
  | gte => .gte
  | lt => .lt
  | lte => .lte

inductive Quantifier where
  | some
  | every
  deriving DecidableEq, Repr

def Quantifier.logic : Quantifier → Logic
  | some => .or
  | every => .and

inductive FilterEdit where
  | condition (logic : Logic) (expr : Value) (values : List Value)
  | compare (op : Comparison) (column : Value) (value : Value) (logic : Named Logic)
  | member (negated : Bool) (column : Value) (values : Value) (logic : Named Logic)
  | memberOf (negated : Bool) (column : Value) (query : Option StatementId) (logic : Named Logic)
  | between (column : Value) (first last : Value)
  | isNull (negated : Bool) (column : Value) (logic : Named Logic)
  | pattern (negated : Bool) (shape : Pattern) (column : Value) (value : Value)
      (logic : Named Logic)
  | regexp (negated : Bool) (column : Value) (expr : Value) (logic : Named Logic)
  | across (quantifier : Quantifier) (columns : Value) (op : Operator) (value : Value)
      (logic : Named Logic)
  | acrossPattern (shape : Pattern) (columns value : Value) (logic : Named Logic)
  | anyOf (column : Value) (query : Option StatementId) (logic : Named Logic)
  | hasRows (negated : Bool) (query : StatementId) (logic : Named Logic)
  | hasRowsText (negated : Bool) (query : Value) (logic : Named Logic)

namespace FilterEdit

def columnNames (columns : Value) : Except Fault (List String) := do
  let vs ← requireMembers .notColumns columns
  let names ← vs.mapM (requireText "column")
  if names.isEmpty then throw .noColumns
  return names.map Phrase.within

def acrossColumns (cs : Conditions) (quantifier : Quantifier) (columns : Value) (op : Operator)
    (value : Value) (logic : Named Logic) : Except Fault Conditions := do
  let names ← columnNames columns
  if !op.isScalar then throw (.notScalar op)
  let joined (op : Operator) : String :=
    "(" ++ (" " ++ quantifier.logic.keyword ++ " ").intercalate (names.map op.predicate) ++ ")"
  match op, value with
  | .eq, .null => cs.add logic (.text (joined .isNull) [])
  | .ne, .null => cs.add logic (.text (joined .isNotNull) [])
  | op, value =>
    if op.hasValue then
      if value.isNull then cs.addTautology logic
      else cs.add logic (.text (joined op) (List.replicate names.length value))
    else cs.add logic (.text (joined op) [])

def addBound (cs : Conditions) (op : Operator) (column : String) (v : Value) : Conditions :=
  if v.isNull then cs else cs ++ [⟨.and, .text (op.predicate column) [v]⟩]

def bounds : Value → Value → Value × Value
  | .range first last, _ => (first, last)
  | first, last => (first, last)

def apply (d : Dialect) (e : FilterEdit) (cs : Conditions) : Except Fault Conditions :=
  match e with
  | condition logic expr values => cs.addExpanded logic expr values
  | compare op column value logic => do
    let c := (← requireText "column" column).within
    cs.add logic (.text (op.operator.predicate c) [value])
  | member negated column values logic => do
    match ← membership (if negated then .notWithin else .within) column values with
    | some p => cs.add logic p
    | none => return cs
  | memberOf negated column query logic => do
    let c := (← requireText "column" column).within
    cs.add logic (.query (c ++ if negated then " NOT IN (" else " IN (") query ")")
  | between column first last => do
    let c := (← requireText "column" column).within
    let (low, high) := bounds first last
    return addBound (addBound cs .gte c low) .lte c high
  | isNull negated column logic => do
    let c := (← requireText "column" column).within
    cs.add logic (.text ((if negated then Operator.isNotNull else .isNull).predicate c) [])
  | pattern negated shape column value logic => do
    let c := (← requireText "column" column).within
    if value.isAbsent then cs.addTautology logic
    else
      let op : Operator := if negated then .notLike else .like
      cs.add logic (.text (op.predicate c) [.text (shape.wrap (← spell value))])
  | regexp negated column expr logic => do
    let c := (← requireText "column" column).within
    let text ← d.regexp negated c
    if expr.isAbsent then cs.addTautology logic
    else cs.add logic (.text text [expr])
  | across quantifier columns op value logic => acrossColumns cs quantifier columns op value logic
  | acrossPattern shape columns value logic => do
    if value.isAbsent then cs.addTautology logic
    else acrossColumns cs .some columns .like (.text (shape.wrap (← spell value))) logic
  | anyOf column query logic => do
    let c := (← requireText "column" column).within
    cs.add logic (.query (c ++ " = any(") query ")")
  | hasRows negated query logic =>
    cs.add logic (.query (if negated then "NOT EXISTS (" else "EXISTS (") (some query) ")")
  | hasRowsText negated query logic => do
    let q := (← requireText "subquery" query).within
    cs.add logic (.text ((if negated then "NOT " else "") ++ Operator.hasRows.predicate q) [])

end FilterEdit
end SqlComposer
