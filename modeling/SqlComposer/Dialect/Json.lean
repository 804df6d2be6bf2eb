import SqlComposer.Dialect.Basic
import SqlComposer.Json.Path

/-! JSON expressions of the families. An operation wraps the expression that it is given; families
that cannot express an operation refuse it. -/

namespace SqlComposer

namespace Json

inductive Storage where
  | json
  | jsonb
  deriving DecidableEq, Repr

def Storage.name : Storage → String
  | .json => "json"
  | .jsonb => "jsonb"

def Storage.title : Storage → String
  | .json => "JSON"
  | .jsonb => "JSONB"

inductive Operation where
  | merge
  | setPath (path : Path) (createMissing : Bool)
  | removeKey (key : Phrase)
  | removeKeys (keys : List Phrase)
  | removePath (path : Path)
  | arrayAppend
  | arrayPrepend
  | stripNulls
  deriving DecidableEq, Repr

def Operation.feature : Operation → String
  | .merge => "JSON merge"
  | .setPath .. => "JSON set path"
  | .removeKey _ => "JSON remove key"
  | .removeKeys _ => "JSON remove keys"
  | .removePath _ => "JSON remove path"
  | .arrayAppend => "JSON array append"
  | .arrayPrepend => "JSON array prepend"
  | .stripNulls => "JSON strip nulls"

def Operation.isWritable : Operation → Bool
  | .setPath p _ | .removePath p => p.isWritable
  | _ => true

def dollarPath (p : Path) : String :=
  "$" ++ String.join (p.segments.map fun
    | .index i => "[" ++ toString i ++ "]"
    | .key k => "." ++ k)

def bracePath (p : Path) : String :=
  "\x7b" ++ ",".intercalate (p.segments.map Segment.text) ++ "\x7d"

end Json

namespace Family
open Json

def pathText : Family → Path → String
  | postgresql => bracePath
  | _ => dollarPath

def formatPath (f : Family) (p : Path) : Except Fault String :=
  if p.isWritable then .ok (f.pathText p) else .error .longInteger

def documentCast (f : Family) (t : Storage) : String :=
  match f with
  | postgresql => "?::" ++ t.name
  | _ => "?"

def unsupportedJson (f : Family) (t : Storage) (op : Operation) : Fault :=
  .unsupported f.name (op.feature ++ " on " ++ t.title)

def binaryOperation (column : String) : Operation → String
  | .merge => column ++ " || ?::jsonb"
  | .setPath p create =>
    "jsonb_set(" ++ column ++ ", " ++ stringLiteral (bracePath p) ++ ", ?::jsonb, "
      ++ (if create then "true" else "false") ++ ")"
  | .removeKey k => column ++ " - " ++ stringLiteral k.alone
  | .removeKeys ks =>
    column ++ " - ARRAY[" ++ ", ".intercalate (ks.map fun k => stringLiteral k.alone) ++ "]"
  | .removePath p => column ++ " #- " ++ stringLiteral (bracePath p)
  | .arrayAppend => column ++ " || ?::jsonb"
  | .arrayPrepend => "?::jsonb || " ++ column
  | .stripNulls => "jsonb_strip_nulls(" ++ column ++ ")"

def keyPath (key : Phrase) : String :=
  stringLiteral ("$." ++ key.within)

def mysqlOperation? (column : String) : Operation → Option String
  | .merge => some ("JSON_MERGE_PATCH(" ++ column ++ ", ?)")
  | .setPath p create =>
    some ((if create then "JSON_SET(" else "JSON_REPLACE(") ++ column ++ ", "
      ++ stringLiteral (dollarPath p) ++ ", ?)")
  | .removeKey k => some ("JSON_REMOVE(" ++ column ++ ", " ++ keyPath k ++ ")")
  | .removeKeys ks =>
    some ("JSON_REMOVE(" ++ column ++ ", " ++ ", ".intercalate (ks.map keyPath) ++ ")")
  | .removePath p => some ("JSON_REMOVE(" ++ column ++ ", " ++ stringLiteral (dollarPath p) ++ ")")
  | .arrayAppend => some ("JSON_ARRAY_APPEND(" ++ column ++ ", '$', ?)")
  | .arrayPrepend => some ("JSON_ARRAY_INSERT(" ++ column ++ ", '$[0]', ?)")
  | .stripNulls => none

def sqliteOperation? (column : String) : Operation → Option String
  | .merge => some ("json_patch(" ++ column ++ ", ?)")
  | .setPath p create =>
    some ((if create then "json_set(" else "json_replace(") ++ column ++ ", "
      ++ stringLiteral (dollarPath p) ++ ", ?)")
  | .removeKey k => some ("json_remove(" ++ column ++ ", " ++ keyPath k ++ ")")
  | .removeKeys ks =>
    some ("json_remove(" ++ column ++ ", " ++ ", ".intercalate (ks.map keyPath) ++ ")")
  | .removePath p => some ("json_remove(" ++ column ++ ", " ++ stringLiteral (dollarPath p) ++ ")")
  | .arrayAppend => some ("json_insert(" ++ column ++ ", '$[#]', ?)")
  | .arrayPrepend | .stripNulls => none

/-- Textual JSON has no operators; only its nulls can be stripped. -/
def textualOperation? (column : String) : Operation → Option String
  | .stripNulls => some ("json_strip_nulls(" ++ column ++ ")")
  | _ => none

def operation? (f : Family) (t : Storage) (column : String) (op : Operation) : Option String :=
  match f, t with
  | ansi, _ => none
  | mysql, _ => mysqlOperation? column op
  | postgresql, .json => textualOperation? column op
  | postgresql, .jsonb => some (binaryOperation column op)
  | sqlite, _ => sqliteOperation? column op

def jsonExpression (f : Family) (t : Storage) (column : String) (op : Operation) :
    Except Fault String :=
  match f.operation? t column op with
  | some e => if op.isWritable then .ok e else .error .longInteger
  | none => .error (f.unsupportedJson t op)

end Family
end SqlComposer
