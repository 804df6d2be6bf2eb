import SqlComposer.Argument
import SqlComposer.Naming

/-! SQL dialects. A dialect belongs to a family of backends, which fixes its texts, and has a major
version, which opens features; version 0 stands for an unknown server and opens only the baseline.
-/

namespace SqlComposer

inductive Family where
  | ansi
  | mysql
  | postgresql
  | sqlite
  deriving DecidableEq, Repr

/-- Where an UPDATE lists its further tables: after SET, behind FROM, or before SET, as joined
targets. -/
inductive UpdateStyle where
  | fromClause
  | joinedTargets
  deriving DecidableEq, Repr

def UpdateStyle.name : UpdateStyle → String
  | .fromClause => "FROM"
  | .joinedTargets => "JOIN"

namespace Family

def name : Family → String
  | ansi => "ansi"
  | mysql => "mysql"
  | postgresql => "postgresql"
  | sqlite => "sqlite"

def quoteChar : Family → Char
  | mysql => '\x60'
  | _ => '"'

def updateStyle : Family → UpdateStyle
  | mysql => .joinedTargets
  | _ => .fromClause

def emptyInsertValues : Family → String
  | mysql => " () VALUES ()"
  | _ => " DEFAULT VALUES"

def nowFunction : Family → String
  | mysql => "NOW()"
  | postgresql => "now()"
  | _ => "CURRENT_TIMESTAMP"

/-- The limit written where only an offset is asked for and the backend cannot do without one. -/
def unboundedLimit? : Family → Option String
  | mysql => some "18446744073709551615"
  | sqlite => some "-1"
  | _ => none

def currentSchemaSql : Family → String
  | ansi => "SELECT CURRENT_SCHEMA"
  | mysql => "SELECT DATABASE()"
  | postgresql => "SELECT current_schema()"
  | sqlite => "SELECT 'main'"

def supportsUuid : Family → Bool
  | mysql | postgresql => true
  | _ => false

def supportsSequence : Family → Bool
  | ansi | postgresql => true
  | _ => false

def binaryCast : Family → String
  | postgresql => "?::bytea"
  | _ => "?"

def stringAppend (f : Family) (column : String) : String :=
  match f with
  | mysql => "CONCAT(" ++ column ++ ", ?)"
  | _ => column ++ " || ?"

def stringPrepend (f : Family) (column : String) : String :=
  match f with
  | mysql => "CONCAT(?, " ++ column ++ ")"
  | _ => "? || " ++ column

def windowText (f : Family) (limit : Option String) (offset : String) (skips : Bool) : String :=
  match f, limit with
  | ansi, none => if skips then "OFFSET " ++ offset ++ " ROWS" else ""
  | ansi, some n => "OFFSET " ++ offset ++ " ROWS FETCH NEXT " ++ n ++ " ROWS ONLY"
  | _, none =>
    if skips then
      match f.unboundedLimit? with
      | some all => "LIMIT " ++ all ++ " OFFSET " ++ offset
      | none => "OFFSET " ++ offset
    else ""
  | _, some n => if skips then "LIMIT " ++ n ++ " OFFSET " ++ offset else "LIMIT " ++ n

/-- The end of a query that keeps at most `limit` rows after the first `offset`; empty if it keeps
all of them. A query is read only if both numbers can be written. -/
def window (f : Family) (limit : Option Int) (offset : Int) : String :=
  f.windowText (limit.map toString) (toString offset) (0 < offset)

/-- The window of a limit and an offset that nobody has checked; a limit may be null. An offset that
is no number at all counts where it stands alone, but not in standard SQL. -/
def uncheckedWindow (f : Family) (limit offset : Value) : Except Fault String := do
  let limit? ← if limit.isNull then pure none else (spell limit).map some
  let skips := if limit.isNull && f != ansi then !offset.isAtMostZero else offset.isPositive
  let isShown := skips || (f == ansi && limit?.isSome)
  return f.windowText limit? (← if isShown then spell offset else pure "") skips

end Family

/-- Encloses a name in a quote character, at each end unless the name already has one there. A lone
quote character counts as an opening one. -/
def enclose (quote : Char) (name : String) : String :=
  let cs := name.toList
  let opening := if cs.head? = some quote then [] else [quote]
  let closing := if cs.getLast? = some quote ∧ 1 < cs.length then [] else [quote]
  String.ofList (opening ++ cs ++ closing)

def stringLiteral (s : String) : String :=
  let double (c : Char) : List Char := if c = '\'' then ['\'', '\''] else [c]
  String.ofList ('\'' :: s.toList.flatMap double ++ ['\''])

structure Dialect where
  family : Family
  /-- The name shown in messages and in the dialect's own text. -/
  name : String
  version : Nat
  naming : Naming
  deriving DecidableEq, Repr

namespace Dialect

def standard : Dialect := ⟨.postgresql, Family.postgresql.name, 0, .snake⟩

def text (d : Dialect) : Except Fault String :=
  if d.version = 0 then .ok d.name
  else (spell (.int d.version)).map fun version => d.name ++ ":" ++ version

def unsupported (d : Dialect) (feature : String) : Fault :=
  .unsupported d.name feature

def quoteName (d : Dialect) (name : String) : String :=
  enclose d.family.quoteChar name

def uuidFunction (d : Dialect) : Except Fault String :=
  match d.family with
  | .mysql => .ok "UUID()"
  | .postgresql =>
    .ok (if 18 ≤ d.version then "uuidv7()"
      else if 13 ≤ d.version then "gen_random_uuid()"
      else "uuid_generate_v4()")
  | _ => .error (d.unsupported "UUID generation")

def nextValue (d : Dialect) (sequence : Phrase) : Except Fault String :=
  match d.family with
  | .ansi => .ok ("NEXT VALUE FOR " ++ sequence.within)
  | .postgresql => .ok ("nextval(" ++ stringLiteral sequence.alone ++ ")")
  | _ => .error (d.unsupported "sequences")

def regexp (d : Dialect) (negated : Bool) (column : String) : Except Fault String :=
  match d.family with
  | .postgresql => .ok (column ++ (if negated then " !~ ?" else " ~ ?"))
  | .mysql | .sqlite => .ok (column ++ (if negated then " NOT REGEXP ?" else " REGEXP ?"))
  | .ansi => .error (d.unsupported "regular expression matching")

def arrayLiteral (d : Dialect) (size : Nat) : Except Fault String :=
  match d.family with
  | .postgresql => .ok ("ARRAY[" ++ ", ".intercalate (List.replicate size placeholder) ++ "]")
  | _ => .error (d.unsupported "array values")

def arrayAppend (d : Dialect) (column : String) : Except Fault String :=
  match d.family with
  | .postgresql => .ok ("array_append(" ++ column ++ ", ?)")
  | _ => .error (d.unsupported "array values")

def arrayRemove (d : Dialect) (column : String) : Except Fault String :=
  match d.family with
  | .postgresql => .ok ("array_remove(" ++ column ++ ", ?)")
  | _ => .error (d.unsupported "array values")

def supportsGroupByAll (d : Dialect) : Bool :=
  d.family == .postgresql && 17 ≤ d.version

def supportsMaterializationHints (d : Dialect) : Bool :=
  d.family == .postgresql && 12 ≤ d.version

def selectUuidSql (d : Dialect) : Except Fault String := do
  let function ← d.uuidFunction
  return "SELECT " ++ function

def selectNextValueSql (d : Dialect) (sequence : Phrase) : Except Fault String := do
  let next ← d.nextValue sequence
  return "SELECT " ++ next

end Dialect
end SqlComposer
