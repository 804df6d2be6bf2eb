/-! The comparison operators of conditions. Each operator has a template in which the column, the
list of values and the placeholders of its scalar values are marked. -/

namespace SqlComposer

def placeholder : String := "?"

inductive TemplatePart where
  | column
  | values
  | placeholder
  | text (s : String)
  deriving DecidableEq, Repr

inductive Operator where
  | eq | ne | gt | gte | lt | lte
  | like | notLike
  | within | notWithin
  | isNull | isNotNull
  | between
  | hasRows
  deriving DecidableEq, Repr

namespace Operator

def all : List Operator :=
  [eq, ne, gt, gte, lt, lte, like, notLike, within, notWithin, isNull, isNotNull, between, hasRows]

def name : Operator → String
  | eq => "EQ"
  | ne => "NE"
  | gt => "GT"
  | gte => "GTE"
  | lt => "LT"
  | lte => "LTE"
  | like => "LIKE"
  | notLike => "NOT_LIKE"
  | within => "IN"
  | notWithin => "NOT_IN"
  | isNull => "IS_NULL"
  | isNotNull => "IS_NOT_NULL"
  | between => "BETWEEN"
  | hasRows => "EXISTS"

def fullName (op : Operator) : String :=
  "Oper." ++ op.name

def ofName? (s : String) : Option Operator :=
  all.find? (·.name == s)

def template : Operator → List TemplatePart
  | eq => [.column, .text " = ", .placeholder]
  | ne => [.column, .text " <> ", .placeholder]
  | gt => [.column, .text " > ", .placeholder]
  | gte => [.column, .text " >= ", .placeholder]
  | lt => [.column, .text " < ", .placeholder]
  | lte => [.column, .text " <= ", .placeholder]
  | like => [.column, .text " LIKE ", .placeholder]
  | notLike => [.column, .text " NOT LIKE ", .placeholder]
  | within => [.column, .text " IN (", .values, .text ")"]
  | notWithin => [.column, .text " NOT IN (", .values, .text ")"]
  | isNull => [.column, .text " IS NULL"]
  | isNotNull => [.column, .text " IS NOT NULL"]
  | between => [.column, .text " BETWEEN ", .placeholder, .text " AND ", .placeholder]
  | hasRows => [.text "EXISTS (", .column, .text ")"]

def templateText (op : Operator) : String :=
  String.join <| op.template.map fun
    | .column => "\x7bcolumn\x7d"
    | .values => "\x7bvalues\x7d"
    | .placeholder => SqlComposer.placeholder
    | .text s => s

def valueCount (op : Operator) : Nat :=
  op.template.count .placeholder

def hasValue (op : Operator) : Bool :=
  0 < op.valueCount

def predicateOver (op : Operator) (column values : String) : String :=
  String.join <| op.template.map fun
    | .column => column
    | .values => values
    | .placeholder => SqlComposer.placeholder
    | .text s => s

def predicate (op : Operator) (column : String) : String :=
  op.predicateOver column SqlComposer.placeholder

def takesCollection : Operator → Bool
  | within | notWithin => true
  | _ => false

def isScalar : Operator → Bool
  | within | notWithin | between | hasRows => false
  | _ => true

end Operator
end SqlComposer
