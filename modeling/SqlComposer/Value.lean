import SqlComposer.Json.Segment
import SqlComposer.Operator
import SqlComposer.Text.Blank
import SqlComposer.Text.Quoted

/-! Values bound to placeholders. A statement never computes with a value: it passes it on, shows it
in a message, or writes it into a pattern. -/

namespace SqlComposer

/-- Why a value can be neither shown nor written. -/
inductive Obstacle where
  /-- It holds a statement that the dialect cannot express. -/
  | joinsWithoutFrom (dialect : String)
  /-- It holds an integer with more digits than are written. -/
  | longInteger
  deriving DecidableEq, Repr

inductive Value where
  | null
  | bool (b : Bool)
  | int (n : Int)
  /-- A number with a fraction or an exponent, as it is written. -/
  | float (digits : String)
  | text (s : String)
  | bytes (bs : List UInt8)
  | list (vs : List Value)
  /-- A sequence of fixed length. -/
  | sequence (vs : List Value)
  | operator (op : Operator)
  | range (first last : Value)
  /-- Entries in the order in which they were inserted. -/
  | map (entries : List (String × Value))
  | path (segments : List Json.Segment)
  /-- A statement by its kind and the text that it has at the moment. -/
  | statement (kind sql : String)
  /-- A statement by its kind that cannot be read, and why. -/
  | unreadable (kind : String) (why : Obstacle)
  deriving Repr, Inhabited

namespace Value

/-- The members of a fixed sequence as messages show them; a single one is followed by a comma. -/
def enclosed : List String → String
  | [member] => "(" ++ member ++ ",)"
  | members => "(" ++ ", ".intercalate members ++ ")"

def shownSegment : Json.Segment → String
  | .key k => Text.quoted k
  | .index i => toString i

mutual

def shown : Value → String
  | null => "None"
  | bool true => "True"
  | bool false => "False"
  | int n => toString n
  | float d => d
  | text s => Text.quoted s
  | bytes bs => Text.quotedBytes bs
  | list vs => "[" ++ ", ".intercalate (shownAll vs) ++ "]"
  | sequence vs => enclosed (shownAll vs)
  | operator op => "<" ++ op.fullName ++ ": " ++ Text.quoted op.name ++ ">"
  | range first last => "Range(begin=" ++ first.shown ++ ", end=" ++ last.shown ++ ")"
  | map es => "\x7b" ++ ", ".intercalate (shownEntries es) ++ "\x7d"
  | path segments => "JsonPath(segments=" ++ enclosed (segments.map shownSegment) ++ ")"
  | statement kind sql => kind ++ "(" ++ Text.quoted sql ++ ")"
  | unreadable .. => ""

def shownAll : List Value → List String
  | [] => []
  | v :: vs => v.shown :: shownAll vs

def shownEntries : List (String × Value) → List String
  | [] => []
  | (k, v) :: es => (Text.quoted k ++ ": " ++ v.shown) :: shownEntries es

end

mutual

def obstacle? : Value → Option Obstacle
  | int n => if Text.Numeral.isWritable n.natAbs then none else some .longInteger
  | list vs | sequence vs => obstacleIn? vs
  | range first last => first.obstacle? <|> last.obstacle?
  | map es => obstacleAt? es
  | path segments => if segments.all Json.Segment.isWritable then none else some .longInteger
  | unreadable _ why => some why
  | _ => none

def obstacleIn? : List Value → Option Obstacle
  | [] => none
  | v :: vs => v.obstacle? <|> obstacleIn? vs

def obstacleAt? : List (String × Value) → Option Obstacle
  | [] => none
  | (_, v) :: es => v.obstacle? <|> obstacleAt? es

end

/-- The value as part of a larger text: text stands for itself. -/
def plain : Value → String
  | text s => s
  | operator op => op.fullName
  | path segments => Json.Segment.joined segments
  | statement _ sql => sql
  | v => v.shown

def text? : Value → Option String
  | text s => some s
  | _ => none

def kind : Value → String
  | null => "NoneType"
  | bool _ => "bool"
  | int _ => "int"
  | float _ => "float"
  | text _ => "str"
  | bytes _ => "bytes"
  | list _ => "list"
  | sequence _ => "tuple"
  | operator _ => "Oper"
  | range .. => "Range"
  | map _ => "dict"
  | path _ => "JsonPath"
  | statement kind _ | unreadable kind _ => kind

/-- An absent guard value: null, or text that is blank. -/
def isAbsent : Value → Bool
  | null => true
  | text s => Text.isBlank s
  | _ => false

def isTrue : Value → Bool
  | null => false
  | bool b => b
  | int n => n != 0
  | float digits => digits != "0.0" && digits != "-0.0"
  | text s => !s.isEmpty
  | bytes bs => !bs.isEmpty
  | list vs | sequence vs => !vs.isEmpty
  | map es => !es.isEmpty
  | path segments => !segments.isEmpty
  | operator _ | range .. | statement .. | unreadable .. => true

def isAtMostZero : Value → Bool
  | bool b => !b
  | int n => n ≤ 0
  | float digits => digits.startsWith "-" || digits == "0.0"
  | _ => false

/-- Whether the value is a number above zero. What is no number at all is neither above nor below.
-/
def isPositive : Value → Bool
  | bool b => b
  | int n => 0 < n
  | float digits => digits != "nan" && !(float digits).isAtMostZero
  | _ => false

def isNull : Value → Bool
  | null => true
  | _ => false

def ofSegment : Json.Segment → Value
  | .key k => text k
  | .index i => int i

/-- The members of a collection in order. The members of a mapping are its keys; a path is a record
whose one member is the name of its field with the segments. -/
def members? : Value → Option (List Value)
  | list vs | sequence vs => some vs
  | path segments => some [sequence [text "segments", sequence (segments.map ofSegment)]]
  | map es => some (es.map fun e => text e.1)
  | bytes bs => some (bs.map fun b => int b.toNat)
  | _ => none

def elements? : Value → Option (List Value)
  | list vs | sequence vs => some vs
  | _ => none

def characters (s : String) : List Value :=
  s.toList.map fun c => text (String.singleton c)

/-- The values that a value stands for where several are asked for; those of a text are its
characters. -/
def spread? : Value → Option (List Value)
  | text s => some (characters s)
  | operator op => some (characters op.name)
  | v => v.members?

end Value
end SqlComposer
