import SqlComposer.Text.Numeral
import SqlComposer.Value

/-! Why a change or a read is refused. Each cause has one message; a cause that blames an argument
of a change names it, and a cause that blames a backend names the backend and the feature. -/

namespace SqlComposer

inductive SegmentFault where
  | neitherKeyNorIndex (given : Value)
  | negativeIndex (index : Int)
  | blankKey
  deriving Repr

def SegmentFault.message : SegmentFault → String
  | .neitherKeyNorIndex v => "path segment must be a key or an index, got " ++ v.shown
  | .negativeIndex i => "array index must be >= 0, got " ++ toString i
  | .blankKey => "path key must not be empty"

inductive Fault where
  | blankText (argument : String)
  | unknownLogic (given : Value)
  | unknownJoinKind (given : Value)
  | unknownHint (given : Value)
  | unknownNullsOrder (given : Value)
  | nullsOrderMissing
  | limitRange (given : Value)
  | offsetRange (given : Value)
  | positionRange (given : Value)
  /-- A page is no number. -/
  | notOrdered (kind : String)
  /-- A page and its size cannot be multiplied. -/
  | notMultiplied (left right : String)
  | notRepeated
  | valueCount (op : Operator) (given : Nat)
  | collectionCount (op : Operator)
  | notCollection (op : Operator)
  /-- Members are asked of a value that has none. -/
  | noMembers (kind : String)
  | notScalar (op : Operator)
  | notColumns
  | noColumns
  | noUsingColumns
  | crossJoinCondition
  | groupAllWithGroups
  | notMapping
  | notSequence
  | noKeys
  | path (segments : List Value) (why : SegmentFault)
  | joinsWithoutFrom (dialect : String)
  | longInteger
  | unsupported (dialect feature : String)
  | unknownDialect (name : String) (registered : List String)
  | unknownProduct (name : String)
  | negativeVersion
  | versionNotInteger
  | versionNotNumeral
  | versionTooLong
  /-- A connection reports a text that is no integer. -/
  | reportedVersion (given : String)
  | reportedVersionTooLong (digits : Nat)
  /-- A change was sent to a statement without the clause that it changes. -/
  | noSuchClause
  /-- A statement refers to one that does not exist, or to itself. -/
  | unresolvedStatement
  deriving Repr

namespace Fault

def generation : String := "SQL generation"

def ofObstacle : Obstacle → Fault
  | .joinsWithoutFrom dialect => joinsWithoutFrom dialect
  | .longInteger => longInteger

def digitLimit (excess : String) : String :=
  "Exceeds the limit (" ++ toString Text.Numeral.longest
    ++ " digits) for integer string conversion" ++ excess
    ++ "; use sys.set_int_max_str_digits() to increase the limit"

def message : Fault → String
  | blankText argument => argument ++ " must be a non-empty string"
  | unknownLogic v => "Unknown logic " ++ v.shown ++ "; expected AND or OR"
  | unknownJoinKind v => "Unknown join type " ++ v.shown
  | unknownHint v => "Unknown materialization hint " ++ v.shown
  | unknownNullsOrder v => v.shown ++ " is not a valid NullsOrder"
  | nullsOrderMissing => "nulls order must be NULLS_FIRST or NULLS_LAST"
  | limitRange v => "limit must be a positive integer, got " ++ v.shown
  | offsetRange v => "offset must be a non-negative integer, got " ++ v.shown
  | positionRange v => "position must be >= 1, got " ++ v.shown
  | notOrdered kind => "'>' not supported between instances of 'int' and '" ++ kind ++ "'"
  | notMultiplied left right =>
    "unsupported operand type(s) for *: '" ++ left ++ "' and '" ++ right ++ "'"
  | notRepeated => "can't multiply sequence by non-int of type 'float'"
  | valueCount op given =>
    op.name ++ " takes " ++ toString op.valueCount ++ " value(s), got " ++ toString given
  | collectionCount op => op.name ++ " takes exactly one collection"
  | notCollection op => op.name ++ " requires a collection of values"
  | noMembers kind => "'" ++ kind ++ "' object is not iterable"
  | notScalar op => op.name ++ " cannot be applied across columns"
  | notColumns => "columns must be a collection of column names"
  | noColumns => "at least one column is required"
  | noUsingColumns => "USING requires at least one column"
  | crossJoinCondition => "CROSS JOIN takes no ON condition"
  | groupAllWithGroups => "GROUP BY ALL cannot be combined with explicit groups"
  | notMapping => "values must be a mapping"
  | notSequence => "values must be a sequence"
  | noKeys => "at least one key is required"
  | path segments why =>
    "Invalid JSON path " ++ (Value.sequence segments).shown ++ ": Value error, " ++ why.message
  | joinsWithoutFrom dialect => dialect ++ " UPDATE joins need a FROM table; call from_() first"
  | longInteger => digitLimit ""
  | unsupported dialect feature => dialect ++ " does not support " ++ feature
  | unknownDialect name registered =>
    name ++ " does not support " ++ generation ++ ": registered dialects are "
      ++ (Value.list (registered.map .text)).shown
  | unknownProduct name =>
    name ++ " does not support " ++ generation ++ ": unknown database product"
  | negativeVersion => "Input should be greater than or equal to 0"
  | versionNotInteger => "Input should be a valid integer"
  | versionNotNumeral =>
    "Input should be a valid integer, unable to parse string as an integer"
  | versionTooLong => "Unable to parse input string as an integer, exceeded maximum size"
  | reportedVersion given =>
    "invalid literal for int() with base 10: "
      ++ String.ofList ((Text.quoted given).toList.take 200)
  | reportedVersionTooLong digits => digitLimit (": value has " ++ toString digits ++ " digits")
  | noSuchClause => "the statement has no such clause"
  | unresolvedStatement => "the statement cannot be resolved"

def subject? : Fault → Option Value
  | unknownLogic v | unknownJoinKind v | unknownHint v | unknownNullsOrder v => some v
  | limitRange v | offsetRange v | positionRange v => some v
  | path segments _ => some (.sequence segments)
  | _ => none

/-- The cause that is reported. A message that would show what cannot be shown gives way to the
reason why it cannot. -/
def reported (f : Fault) : Fault :=
  match f.subject?.bind Value.obstacle? with
  | some why => ofObstacle why
  | none => f

def argument? : Fault → Option String
  | blankText argument => some argument
  | unknownLogic _ => some "logic"
  | unknownJoinKind _ => some "join_type"
  | unknownHint _ => some "hint"
  | nullsOrderMissing => some "nulls"
  | limitRange _ => some "limit"
  | offsetRange _ => some "offset"
  | positionRange _ => some "position"
  | valueCount .. | collectionCount _ | notCollection _ | notMapping | notSequence => some "values"
  | notScalar _ => some "oper"
  | notColumns | noColumns | noUsingColumns => some "columns"
  | crossJoinCondition => some "on"
  | groupAllWithGroups => some "exprs"
  | noKeys => some "keys"
  | path .. => some "path"
  | joinsWithoutFrom _ => some "table"
  | _ => none

def missingFeature? : Fault → Option (String × String)
  | unsupported dialect feature => some (dialect, feature)
  | unknownDialect name _ | unknownProduct name => some (name, generation)
  | _ => none

end Fault
end SqlComposer
