import SqlComposer.Dialect.Basic
import SqlComposer.Dialect.Version

/-! The dialects that can be asked for by name or by the product that a connection reports. Entries
keep the place at which their name was first registered; products are tried in that order. -/

namespace SqlComposer

/-- What is registered under a name: a family under a display name, and the small-letter texts that
give one of its products away. -/
structure Backend where
  family : Family
  display : String
  products : List String
  deriving DecidableEq, Repr

def Family.products : Family → List String
  | ansi => ["oracle", "sql server", "mssql", "db2", "h2"]
  | mysql => ["mysql", "mariadb"]
  | postgresql => ["postgres"]
  | sqlite => ["sqlite"]

def Family.backend (f : Family) : Backend := ⟨f, f.name, f.products⟩

def occursIn (part : List Char) : List Char → Bool
  | [] => part.isEmpty
  | c :: cs => part.isPrefixOf (c :: cs) || occursIn part cs

namespace Backend

def matchesProduct (b : Backend) (product : String) : Bool :=
  let small := (Text.lower product).toList
  b.products.any fun p => occursIn p.toList small

def dialect (b : Backend) (version : Value) (naming : Option Naming) : Except Fault Dialect := do
  let v ← Version.ofValue version
  return ⟨b.family, b.display, v, naming.getD .snake⟩

end Backend

structure Registry where
  entries : List (String × Backend)
  deriving DecidableEq, Repr

namespace Registry

def builtin : Registry :=
  ⟨[Family.ansi, .mysql, .postgresql, .sqlite].map fun f => (f.name, f.backend)⟩

def find? (r : Registry) (name : String) : Option Backend :=
  r.entries.lookup name

def names (r : Registry) : List String :=
  (r.entries.map (·.1)).mergeSort fun a b => decide (a ≤ b)

def insert (name : String) (b : Backend) : List (String × Backend) → List (String × Backend)
  | [] => [(name, b)]
  | e :: es => if e.1 = name then (name, b) :: es else e :: insert name b es

def register (r : Registry) (name : String) (b : Backend) : Registry :=
  ⟨insert name b r.entries⟩

def derive? (r : Registry) (name base : String) (display : Option String)
    (products : Option (List String)) : Option Registry :=
  (r.find? base).map fun b =>
    r.register name { b with display := display.getD b.display
                             products := products.getD b.products }

/-- The dialect registered under a name, which is looked up in small letters. -/
def create (r : Registry) (name : String) (version : Value) (naming : Option Naming) :
    Except Fault Dialect :=
  match r.find? (Text.lower name) with
  | some b => b.dialect version naming
  | none => .error (.unknownDialect name r.names)

def ofProduct (r : Registry) (product : String) (version : Value) (naming : Option Naming) :
    Except Fault Dialect :=
  match r.entries.find? (·.2.matchesProduct product) with
  | some e => e.2.dialect version naming
  | none => .error (.unknownProduct product)

def ofConnection (r : Registry) (product : String) (version : List Value)
    (naming : Option Naming) : Except Fault Dialect := do
  let v ← Version.ofReported (version.head?.getD (.int 0))
  r.ofProduct product v naming

end Registry
end SqlComposer
