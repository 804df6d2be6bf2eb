import SqlComposer.Edit
import SqlComposer.Parameters

/-! A store of statements that refer to each other. A reference stands for the statement as it is
when the whole is read, so later edits show wherever the statement is embedded. References may go in
either direction but never round in a circle, so they can be followed at most as deep as there are
statements. -/

namespace SqlComposer

structure Store where
  statements : List Statement
  deriving Repr

inductive Creation where
  | select (dialect : Option Dialect) (table asName : Value)
  /-- Takes over the dialect of the query unless it is given one. -/
  | selectFrom (dialect : Option Dialect) (query : StatementId) (asName : Value)
  | insert (dialect : Option Dialect) (table : Value)
  | update (dialect : Option Dialect) (table asName : Value)
  | delete (dialect : Option Dialect) (table asName : Value)

/-- Reads parts, given what each reference stands for. -/
def expandParts (expand : StatementId → Except Fault (List Chunk)) :
    List Part → Except Fault (List Chunk)
  | [] => .ok []
  | .chunk c :: ps => do
    let cs ← expandParts expand ps
    return c :: cs
  | .statement id :: ps => do
    let inner ← expand id
    let cs ← expandParts expand ps
    return inner ++ cs

def chunksSql : List Chunk → String
  | [] => ""
  | c :: cs => c.text ++ chunksSql cs

def chunksParameters (cs : List Chunk) : Parameters :=
  cs.foldl (fun p c => p.append c.values) .empty

structure Compiled where
  sql : String
  parameters : Parameters
  dialect : String

def compile (dialect : String) (cs : List Chunk) : Compiled :=
  ⟨chunksSql cs, chunksParameters cs, dialect⟩

namespace Store

def empty : Store := ⟨[]⟩

def size (s : Store) : Nat := s.statements.length

def get? (s : Store) (id : StatementId) : Option Statement := s.statements[id]?

def find (s : Store) (id : StatementId) : Except Fault Statement :=
  match s.get? id with
  | some st => .ok st
  | none => .error .unresolvedStatement

/-- Follows references down to the given depth. The window comes last, so everything else has been
read when its numbers are written. -/
def expandAt (s : Store) : Nat → StatementId → Except Fault (List Chunk)
  | 0, _ => .error .unresolvedStatement
  | depth + 1, id => do
    let st ← s.find id
    let ps ← st.parts
    let cs ← expandParts (s.expandAt depth) ps
    st.whenWritable cs

def expand (s : Store) (ps : List Part) : Except Fault (List Chunk) :=
  expandParts (s.expandAt s.size) ps

def chunks (s : Store) (id : StatementId) : Except Fault (List Chunk) :=
  s.expandAt s.size id

def countChunks (s : Store) (id : StatementId) : Except Fault (List Chunk) := do
  let st ← s.find id
  let ps ← st.countParts
  s.expand ps

def sql (s : Store) (id : StatementId) : Except Fault String :=
  (s.chunks id).map chunksSql

def parameters (s : Store) (id : StatementId) : Except Fault Parameters :=
  (s.chunks id).map chunksParameters

def countSql (s : Store) (id : StatementId) : Except Fault String :=
  (s.countChunks id).map chunksSql

def countParameters (s : Store) (id : StatementId) : Except Fault Parameters :=
  (s.countChunks id).map chunksParameters

def build (s : Store) (id : StatementId) : Except Fault Compiled := do
  let st ← s.find id
  return compile st.dialect.name (← s.chunks id)

def buildCount (s : Store) (id : StatementId) : Except Fault Compiled := do
  let st ← s.find id
  return compile st.dialect.name (← s.countChunks id)

/-- A statement as a value: its kind and its text of the moment, if it can be read. -/
def value? (s : Store) (id : StatementId) : Option Value := do
  let st ← s.get? id
  match s.sql id with
  | .ok sql => return .statement st.body.title sql
  | .error (.joinsWithoutFrom dialect) => return .unreadable st.body.title (.joinsWithoutFrom dialect)
  | .error .longInteger => return .unreadable st.body.title .longInteger
  | .error _ => none

def describe (s : Store) (id : StatementId) : Except Fault String := do
  let st ← s.find id
  let sql ← s.sql id
  return (Value.statement st.body.title sql).shown

def statementOf (s : Store) : Creation → Except Fault Statement
  | .select d table asName => Statement.select (d.getD .standard) table asName
  | .selectFrom d query asName => do
    let q ← s.find query
    Statement.selectFrom (d.getD q.dialect) (some query) asName
  | .insert d table => Statement.insert (d.getD .standard) table
  | .update d table asName => Statement.update (d.getD .standard) table asName
  | .delete d table asName => Statement.delete (d.getD .standard) table asName

def create (s : Store) (c : Creation) : Except Fault (Store × StatementId) := do
  let st ← s.statementOf c
  return (⟨s.statements ++ [st]⟩, s.size)

def edit (s : Store) (id : StatementId) (e : Edit) : Step Store :=
  match s.get? id with
  | some st => (st.edit e).reported.map fun st => ⟨s.statements.set id st⟩
  | none => .refused s .unresolvedStatement

end Store
end SqlComposer
