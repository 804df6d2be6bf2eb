import SqlComposer.Statement

/-! Edits: the changes of a statement. Each edit changes one clause and reads nothing but that
clause and the statement's dialect. -/

namespace SqlComposer

inductive Edit where
  | commonTable (e : CommonTableEdit)
  | target (table asName : Value)
  | column (e : ColumnEdit)
  | source (e : SourceEdit)
  | join (e : JoinEdit)
  | filter (e : FilterEdit)
  | grouping (e : GroupingEdit)
  | having (e : HavingEdit)
  | union (u : UnionBranch)
  | ordering (e : OrderingEdit)
  | window (e : WindowEdit)
  | assignment (e : AssignmentEdit)
  /-- Binds a value to a column of an insertion. -/
  | bind (column value : Value)
  | set (e : SetEdit)

def targetOf (table asName : Value) : Except Fault Target := do
  let t ← requireText "table" table
  let a ← optionalText asName
  return ⟨t.besideAlias a, a⟩

namespace Query

def edit (d : Dialect) (q : Query) : Edit → Step Query
  | .column e => (e.apply q.projection).map fun p => { q with projection := p }
  | .source e => .ofExcept q ((e.apply q.sources).map fun s => { q with sources := s })
  | .join e => .ofExcept q ((e.apply q.joins).map fun j => { q with joins := j })
  | .filter e => .ofExcept q ((e.apply d q.conditions).map fun c => { q with conditions := c })
  | .grouping e => (e.apply d q.grouping).map fun g => { q with grouping := g }
  | .having e => .ofExcept q ((e.apply q.having).map fun c => { q with having := c })
  | .union u => .made { q with unions := q.unions ++ [u] }
  | .ordering e => (e.apply q.ordering).map fun o => { q with ordering := o }
  | .window e => (e.apply q.window).map fun w => { q with window := w }
  | _ => .refused q .noSuchClause

end Query

namespace Insertion

/-- Entries assigned before a refused one are kept. Columns and expressions are listed apart. -/
def edit (d : Dialect) (i : Insertion) : Edit → Step Insertion
  | .assignment e =>
    (e.assignments d Phrase.alone).map fun as => { i with assignments := i.assignments ++ as }
  | .bind column value =>
    .ofExcept i do
      let a ← AssignmentEdit.assign Phrase.alone column placeholder [value]
      return { i with assignments := i.assignments ++ [a] }
  | _ => .refused i .noSuchClause

end Insertion

namespace Update

def edit (d : Dialect) (u : Update) : Edit → Step Update
  | .target table asName =>
    .ofExcept u ((targetOf table asName).map fun t => { u with targets := u.targets ++ [t] })
  | .assignment e =>
    (e.assignments d Phrase.within).map fun as => { u with items := u.items ++ as.map .assignment }
  | .set e => .ofExcept u ((e.items d).map fun is => { u with items := u.items ++ is })
  | .source e => .ofExcept u ((e.apply u.sources).map fun s => { u with sources := s })
  | .join e => .ofExcept u ((e.apply u.joins).map fun j => { u with joins := j })
  | .filter e => .ofExcept u ((e.apply d u.conditions).map fun c => { u with conditions := c })
  | _ => .refused u .noSuchClause

end Update

namespace Deletion

def edit (d : Dialect) (x : Deletion) : Edit → Step Deletion
  | .target table asName =>
    .ofExcept x ((targetOf table asName).map fun t => { x with targets := x.targets ++ [t] })
  | .filter e => .ofExcept x ((e.apply d x.conditions).map fun c => { x with conditions := c })
  | _ => .refused x .noSuchClause

end Deletion

def Body.edit (d : Dialect) (b : Body) (e : Edit) : Step Body :=
  match b with
  | .select q => (q.edit d e).map .select
  | .insert i => (i.edit d e).map .insert
  | .update u => (u.edit d e).map .update
  | .delete x => (x.edit d e).map .delete

namespace Statement

def edit (s : Statement) : Edit → Step Statement
  | .commonTable e =>
    .ofExcept s ((e.apply s.dialect s.commonTables).map fun ts => { s with commonTables := ts })
  | e => (s.body.edit s.dialect e).map fun b => { s with body := b }

def select (d : Dialect) (table asName : Value) :
    Except Fault Statement :=
  match table with
  | .null => .ok ⟨d, [], .select .empty⟩
  | table => do
    let s ← SourceEdit.source (.table table asName)
    return ⟨d, [], .select { Query.empty with sources := [s] }⟩

def selectFrom (d : Dialect) (query : Option StatementId) (asName : Value) :
    Except Fault Statement := do
  let s ← SourceEdit.source (.query query asName)
  return ⟨d, [], .select { Query.empty with sources := [s] }⟩

def insert (d : Dialect) (table : Value) : Except Fault Statement := do
  let t ← requireText "table" table
  return ⟨d, [], .insert ⟨t.alone, []⟩⟩

def update (d : Dialect) (table asName : Value) :
    Except Fault Statement := do
  let t ← targetOf table asName
  return ⟨d, [], .update ⟨[t], [], [], [], []⟩⟩

def delete (d : Dialect) (table asName : Value) :
    Except Fault Statement := do
  let t ← targetOf table asName
  return ⟨d, [], .delete ⟨[t], []⟩⟩

end Statement
end SqlComposer
