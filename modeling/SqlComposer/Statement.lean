import SqlComposer.Clause.CommonTable
import SqlComposer.Clause.Grouping
import SqlComposer.Clause.Having
import SqlComposer.Clause.Join
import SqlComposer.Clause.Ordering
import SqlComposer.Clause.SetItem
import SqlComposer.Clause.Union
import SqlComposer.Clause.Window

/-! Statements. A statement holds the clauses of its kind, of which any may be empty, and is read as
the parts of its clauses in the order of the grammar. -/

namespace SqlComposer

structure Query where
  projection : Projection
  sources : List Source
  joins : List Join
  conditions : Conditions
  grouping : Grouping
  having : Conditions
  unions : List UnionBranch
  ordering : List String
  window : Window
  deriving Repr

structure Insertion where
  table : String
  assignments : List Assignment
  deriving Repr

structure Target where
  table : String
  asName : Option String
  deriving Repr

structure Update where
  targets : List Target
  items : List SetItem
  sources : List Source
  joins : List Join
  conditions : Conditions
  deriving Repr

structure Deletion where
  targets : List Target
  conditions : Conditions
  deriving Repr

inductive Body where
  | select (q : Query)
  | insert (i : Insertion)
  | update (u : Update)
  | delete (x : Deletion)
  deriving Repr

structure Statement where
  dialect : Dialect
  commonTables : List CommonTable
  body : Body
  deriving Repr

def Target.parts (t : Target) : List Part := [.text (aliased t.table t.asName)]

namespace Query

def empty : Query := ⟨.all, [], [], [], .groups [], [], [], [], .all⟩

def parts (d : Dialect) (q : Query) : List Part :=
  q.projection.parts
    ++ Part.clause " FROM " ", " (q.sources.map Source.parts)
    ++ q.joins.flatMap Join.parts
    ++ Conditions.clause " WHERE " q.conditions
    ++ q.grouping.clause
    ++ Conditions.clause " HAVING " q.having
    ++ q.unions.flatMap UnionBranch.parts
    ++ orderingClause q.ordering
    ++ q.window.clause d

def countParts (q : Query) : List Part :=
  .text "SELECT count(1) AS cnt"
    :: Part.clause " FROM " ", " (q.sources.map Source.parts)
    ++ q.joins.flatMap Join.parts
    ++ Conditions.clause " WHERE " q.conditions
    ++ q.grouping.clause
    ++ Conditions.clause " HAVING " q.having
    ++ q.unions.flatMap UnionBranch.parts

def rowParts (q : Query) : List Part :=
  Part.clause " FROM " ", " (q.sources.map Source.parts)
    ++ q.joins.flatMap Join.parts
    ++ Conditions.clause " WHERE " q.conditions
    ++ q.grouping.clause
    ++ Conditions.clause " HAVING " q.having
    ++ q.unions.flatMap UnionBranch.parts

theorem parts_eq (d : Dialect) (q : Query) :
    q.parts d = q.projection.parts ++ q.rowParts ++ orderingClause q.ordering ++ q.window.clause d := by
  simp only [parts, rowParts, List.append_assoc]

theorem countParts_eq (q : Query) :
    q.countParts = .text "SELECT count(1) AS cnt" :: q.rowParts := by
  simp only [countParts, rowParts, List.cons_append, List.append_assoc]

end Query

def Insertion.parts (d : Dialect) (i : Insertion) : List Part :=
  .text ("INSERT INTO " ++ i.table) ::
    if i.assignments.isEmpty then [.text d.family.emptyInsertValues]
    else .text (" (" ++ ", ".intercalate (i.assignments.map (·.column)) ++ ") VALUES (")
      :: Part.separated ", " (i.assignments.map (·.value.parts)) ++ [.text ")"]

/-- Joined targets stand before SET. Elsewhere joins need a FROM clause to join with. -/
def Update.parts (d : Dialect) (u : Update) : Except Fault (List Part) :=
  let target := Part.clause "UPDATE " ", " (u.targets.map Target.parts)
  let items := Part.clause " SET " ", " (u.items.map SetItem.parts)
  let sources (keyword : String) := Part.clause keyword ", " (u.sources.map Source.parts)
  let joins := u.joins.flatMap Join.parts
  let conditions := Conditions.clause " WHERE " u.conditions
  match d.family.updateStyle with
  | .joinedTargets => .ok (target ++ sources ", " ++ joins ++ items ++ conditions)
  | .fromClause =>
    if u.sources.isEmpty && !u.joins.isEmpty then .error (.joinsWithoutFrom d.name)
    else .ok (target ++ items ++ sources " FROM " ++ joins ++ conditions)

def Deletion.parts (x : Deletion) : List Part :=
  Part.clause "DELETE FROM " ", " (x.targets.map Target.parts)
    ++ Conditions.clause " WHERE " x.conditions

namespace Body

def parts (d : Dialect) : Body → Except Fault (List Part)
  | select q => .ok (q.parts d)
  | insert i => .ok (i.parts d)
  | update u => u.parts d
  | delete x => .ok x.parts

def title : Body → String
  | select _ => "Select"
  | insert _ => "Insert"
  | update _ => "Update"
  | delete _ => "Delete"

end Body

namespace Statement

def parts (s : Statement) : Except Fault (List Part) := do
  let ps ← s.body.parts s.dialect
  return CommonTable.clause s.commonTables ++ ps

def isWritable (s : Statement) : Bool :=
  match s.body with
  | .select q => q.window.isWritable
  | _ => true

theorem isWritable_of_select {s : Statement} {q : Query} (h : s.body = .select q) :
    s.isWritable = q.window.isWritable := by
  rw [isWritable, h]

def outline (s : Statement) : Except Fault (List Part) × Bool := (s.parts, s.isWritable)

def whenWritable {α : Type} (s : Statement) (read : α) : Except Fault α :=
  if s.isWritable then .ok read else .error .longInteger

theorem whenWritable_congr {α : Type} {s s' : Statement} (h : s.isWritable = s'.isWritable) (read : α) :
    s.whenWritable read = s'.whenWritable read := by
  rw [whenWritable, whenWritable, h]

theorem map_whenWritable {α β : Type} (s : Statement) (f : α → β) (read : α) :
    (s.whenWritable read).map f = s.whenWritable (f read) := by
  unfold whenWritable
  split <;> rfl

theorem whenWritable_eq_ok {α : Type} {s : Statement} {read result : α} :
    s.whenWritable read = .ok result ↔ s.isWritable ∧ result = read := by
  unfold whenWritable
  split
  · simp [*, eq_comm]
  · simp [*]

def countParts (s : Statement) : Except Fault (List Part) :=
  match s.body with
  | .select q => .ok (CommonTable.clause s.commonTables ++ q.countParts)
  | _ => .error .noSuchClause

end Statement
end SqlComposer
