import SqlComposer.Proofs.Expansion
import SqlComposer.Proofs.Independence
import SqlComposer.Proofs.Renaming.Clause
import Mathlib.Data.Finset.Card
import Mathlib.Data.Finset.Range
import Mathlib.Logic.Equiv.Defs

/-! Renaming in statements and in stores. Two stores with the same statements in different places read
alike, place for place. -/

namespace SqlComposer
variable (ρ : StatementId → StatementId)

def Query.rename (q : Query) : Query :=
  { q with
    projection := q.projection.rename ρ
    sources := q.sources.map (Source.rename ρ)
    joins := q.joins.map (Join.rename ρ)
    conditions := q.conditions.rename ρ
    having := q.having.rename ρ
    unions := q.unions.map (UnionBranch.rename ρ) }

def Insertion.rename (i : Insertion) : Insertion :=
  { i with assignments := i.assignments.map (Assignment.rename ρ) }

def Update.rename (u : Update) : Update :=
  { u with
    items := u.items.map (SetItem.rename ρ)
    sources := u.sources.map (Source.rename ρ)
    joins := u.joins.map (Join.rename ρ)
    conditions := u.conditions.rename ρ }

def Deletion.rename (x : Deletion) : Deletion := { x with conditions := x.conditions.rename ρ }

def Body.rename : Body → Body
  | select q => .select (q.rename ρ)
  | insert i => .insert (i.rename ρ)
  | update u => .update (u.rename ρ)
  | delete x => .delete (x.rename ρ)

def Statement.rename (st : Statement) : Statement :=
  { st with
    commonTables := st.commonTables.map (CommonTable.rename ρ)
    body := st.body.rename ρ }

theorem flatMap_parts_rename {α : Type} {parts : α → List Part} {rename : α → α}
    (h : ∀ a, parts (rename a) = (parts a).map (Part.rename ρ)) (items : List α) :
    (items.map rename).flatMap parts = (items.flatMap parts).map (Part.rename ρ) := by
  rw [List.flatMap_map, List.map_flatMap]
  exact congrArg (items.flatMap ·) (funext h)

theorem clause_parts_rename {α : Type} {parts : α → List Part} {rename : α → α}
    (h : ∀ a, parts (rename a) = (parts a).map (Part.rename ρ)) (keyword separator : String)
    (items : List α) :
    Part.clause keyword separator ((items.map rename).map parts) =
      (Part.clause keyword separator (items.map parts)).map (Part.rename ρ) := by
  rw [Part.map_rename_clause, List.map_map, List.map_map]
  exact congrArg (fun f => Part.clause keyword separator (items.map f)) (funext h)

theorem Query.rowParts_rename (q : Query) :
    (q.rename ρ).rowParts = q.rowParts.map (Part.rename ρ) := by
  simp only [rowParts, rename, List.map_append]
  rw [clause_parts_rename ρ (Source.parts_rename ρ), flatMap_parts_rename ρ (Join.parts_rename ρ),
    Conditions.clause_rename, Conditions.clause_rename, Grouping.clause_rename,
    flatMap_parts_rename ρ (UnionBranch.parts_rename ρ)]

theorem Query.parts_rename (d : Dialect) (q : Query) :
    (q.rename ρ).parts d = (q.parts d).map (Part.rename ρ) := by
  simp only [parts_eq, rowParts_rename, List.map_append, orderingClause_rename, Window.clause_rename]
  rw [← Projection.parts_rename]
  rfl

theorem Insertion.parts_rename (d : Dialect) (i : Insertion) :
    (i.rename ρ).parts d = (i.parts d).map (Part.rename ρ) := by
  have hcolumns : (i.rename ρ).assignments.map (·.column) = i.assignments.map (·.column) := by
    rw [rename, List.map_map]
    rfl
  have hempty : (i.rename ρ).assignments.isEmpty = i.assignments.isEmpty := List.isEmpty_map
  have hvalues : (i.rename ρ).assignments.map (·.value.parts) =
      (i.assignments.map (·.value.parts)).map (List.map (Part.rename ρ)) := by
    rw [rename, List.map_map, List.map_map]
    exact congrArg (i.assignments.map ·) (funext fun a => AssignedValue.parts_rename ρ a.value)
  rw [parts, parts, hcolumns, hempty, hvalues, ← Part.map_rename_separated]
  split
  · rfl
  · simp only [List.map_cons, List.map_append]
    rfl

theorem Target.clause_rename (ts : List Target) (keyword : String) :
    (Part.clause keyword ", " (ts.map parts)).map (Part.rename ρ) =
      Part.clause keyword ", " (ts.map parts) := by
  rw [Part.map_rename_clause, List.map_map]
  rfl

theorem Update.parts_rename (d : Dialect) (u : Update) :
    (u.rename ρ).parts d = (u.parts d).map (List.map (Part.rename ρ)) := by
  have hsources (keyword : String) := clause_parts_rename ρ (Source.parts_rename ρ) keyword ", " u.sources
  have hitems := clause_parts_rename ρ (SetItem.parts_rename ρ) " SET " ", " u.items
  have hjoins := flatMap_parts_rename ρ (Join.parts_rename ρ) u.joins
  have hlone : ((u.rename ρ).sources.isEmpty && !(u.rename ρ).joins.isEmpty) =
      (u.sources.isEmpty && !u.joins.isEmpty) := by
    simp only [rename, List.isEmpty_map]
  unfold parts
  rw [hlone]
  simp only [rename, hsources, hitems, hjoins, Conditions.clause_rename]
  split
  · simp only [Except.map, List.map_append, Target.clause_rename]
  · split
    · rfl
    · simp only [Except.map, List.map_append, Target.clause_rename]

theorem Deletion.parts_rename (x : Deletion) :
    (x.rename ρ).parts = x.parts.map (Part.rename ρ) := by
  simp only [parts, rename, Conditions.clause_rename, List.map_append, Target.clause_rename]

namespace Statement

theorem parts_rename (st : Statement) :
    (st.rename ρ).parts = st.parts.map (List.map (Part.rename ρ)) := by
  have hbody : (st.body.rename ρ).parts st.dialect =
      (st.body.parts st.dialect).map (List.map (Part.rename ρ)) := by
    cases st.body with
    | select q => exact congrArg Except.ok (q.parts_rename ρ st.dialect)
    | insert i => exact congrArg Except.ok (i.parts_rename ρ st.dialect)
    | update u => exact u.parts_rename ρ st.dialect
    | delete x => exact congrArg Except.ok (x.parts_rename ρ)
  simp only [parts, rename, hbody, CommonTable.clause_rename]
  cases st.body.parts st.dialect with
  | ok ps => exact congrArg Except.ok List.map_append.symm
  | error f => rfl

theorem isWritable_rename (st : Statement) : (st.rename ρ).isWritable = st.isWritable := by
  obtain ⟨d, ts, body⟩ := st
  cases body <;> rfl

theorem countParts_rename (st : Statement) :
    (st.rename ρ).countParts = st.countParts.map (List.map (Part.rename ρ)) := by
  obtain ⟨d, ts, body⟩ := st
  cases body with
  | select q =>
    simp only [countParts, rename, Body.rename, Query.countParts_eq, Query.rowParts_rename,
      CommonTable.clause_rename, Except.map, List.map_append, List.map_cons]
    rfl
  | insert | update | delete => rfl

end Statement

namespace Edit

def rename : Edit → Edit
  | commonTable e => .commonTable (e.rename ρ)
  | column e => .column (e.rename ρ)
  | source e => .source (e.rename ρ)
  | join e => .join (e.rename ρ)
  | filter e => .filter (e.rename ρ)
  | union u => .union (u.rename ρ)
  | assignment e => .assignment (e.rename ρ)
  | e => e

theorem clause_rename (e : Edit) : (e.rename ρ).clause = e.clause := by
  cases e <;> rfl

end Edit

theorem Query.edit_rename (d : Dialect) (q : Query) (e : Edit) :
    (q.rename ρ).edit d (e.rename ρ) = (q.edit d e).map (rename ρ) := by
  cases e with
  | column e =>
    have h : (e.rename ρ).apply (q.rename ρ).projection = _ := e.apply_rename ρ q.projection
    rw [Edit.rename, edit, h]
    rfl
  | source e =>
    have h : (e.rename ρ).apply (q.rename ρ).sources = _ := e.apply_rename ρ q.sources
    rw [Edit.rename, edit, h, edit]
    cases e.apply q.sources <;> rfl
  | join e =>
    have h : (e.rename ρ).apply (q.rename ρ).joins = _ := e.apply_rename ρ q.joins
    rw [Edit.rename, edit, h, edit]
    cases e.apply q.joins <;> rfl
  | filter e =>
    have h : (e.rename ρ).apply d (q.rename ρ).conditions = _ := e.apply_rename ρ q.conditions d
    rw [Edit.rename, edit, h, edit]
    cases e.apply d q.conditions <;> rfl
  | having e =>
    have hrename : Edit.rename ρ (.having e) = .having e := rfl
    have h : e.apply (q.rename ρ).having = _ := e.apply_rename ρ q.having
    rw [hrename, edit, h, edit]
    cases e.apply q.having <;> rfl
  | union u =>
    have h : q.unions.map (UnionBranch.rename ρ) ++ [u.rename ρ] =
        (q.unions ++ [u]).map (UnionBranch.rename ρ) := by
      rw [List.map_append]
      rfl
    simp only [Edit.rename, edit, rename, h]
    rfl
  | _ => rfl

theorem Insertion.edit_rename (d : Dialect) (i : Insertion) (e : Edit) :
    (i.rename ρ).edit d (e.rename ρ) = (i.edit d e).map (rename ρ) := by
  have hadd (as : List Assignment) :
      { i.rename ρ with
        assignments := (i.rename ρ).assignments ++ as.map (Assignment.rename ρ) } =
        ({ i with assignments := i.assignments ++ as } : Insertion).rename ρ := by
    simp only [rename, List.map_append]
  cases e with
  | assignment e =>
    rw [Edit.rename, edit, e.assignments_rename ρ d Phrase.alone]
    exact congrArg (Step.mk · _) (hadd _)
  | bind column value =>
    have hassign := AssignmentEdit.ensures_assign_rename ρ Phrase.alone column placeholder [value]
    simp only [Edit.rename, edit]
    cases h : AssignmentEdit.assign Phrase.alone column placeholder [value] with
    | ok a =>
      have hadd := hadd [a]
      rw [List.map_singleton, hassign a h] at hadd
      exact congrArg Step.made hadd
    | error f => rfl
  | _ => rfl

theorem Update.edit_rename (d : Dialect) (u : Update) (e : Edit) :
    (u.rename ρ).edit d (e.rename ρ) = (u.edit d e).map (rename ρ) := by
  have hadd (is : List SetItem) :
      { u.rename ρ with items := (u.rename ρ).items ++ is.map (SetItem.rename ρ) } =
        ({ u with items := u.items ++ is } : Update).rename ρ := by
    simp only [rename, List.map_append]
  cases e with
  | target table asName =>
    simp only [Edit.rename, edit]
    cases targetOf table asName <;> rfl
  | assignment e =>
    have h (as : List Assignment) : (as.map (Assignment.rename ρ)).map SetItem.assignment =
        (as.map SetItem.assignment).map (SetItem.rename ρ) := by
      rw [List.map_map, List.map_map]
      rfl
    have hstate := hadd ((e.assignments d Phrase.within).state.map .assignment)
    rw [← h] at hstate
    rw [Edit.rename, edit, e.assignments_rename ρ d Phrase.within]
    exact congrArg (Step.mk · _) hstate
  | set e =>
    have hrename : Edit.rename ρ (.set e) = .set e := rfl
    rw [hrename, edit, ← e.items_rename ρ d, edit]
    cases e.items d with
    | ok is => exact congrArg Step.made (hadd is)
    | error f => rfl
  | source e =>
    have h : (e.rename ρ).apply (u.rename ρ).sources = _ := e.apply_rename ρ u.sources
    rw [Edit.rename, edit, h, edit]
    cases e.apply u.sources <;> rfl
  | join e =>
    have h : (e.rename ρ).apply (u.rename ρ).joins = _ := e.apply_rename ρ u.joins
    rw [Edit.rename, edit, h, edit]
    cases e.apply u.joins <;> rfl
  | filter e =>
    have h : (e.rename ρ).apply d (u.rename ρ).conditions = _ := e.apply_rename ρ u.conditions d
    rw [Edit.rename, edit, h, edit]
    cases e.apply d u.conditions <;> rfl
  | _ => rfl

theorem Deletion.edit_rename (d : Dialect) (x : Deletion) (e : Edit) :
    (x.rename ρ).edit d (e.rename ρ) = (x.edit d e).map (rename ρ) := by
  cases e with
  | target table asName =>
    simp only [Edit.rename, edit]
    cases targetOf table asName <;> rfl
  | filter e =>
    have h : (e.rename ρ).apply d (x.rename ρ).conditions = _ := e.apply_rename ρ x.conditions d
    rw [Edit.rename, edit, h, edit]
    cases e.apply d x.conditions <;> rfl
  | _ => rfl

theorem Body.edit_rename (d : Dialect) (b : Body) (e : Edit) :
    (b.rename ρ).edit d (e.rename ρ) = (b.edit d e).map (rename ρ) := by
  cases b with
  | select q => exact congrArg (Step.map select) (q.edit_rename ρ d e)
  | insert i => exact congrArg (Step.map insert) (i.edit_rename ρ d e)
  | update u => exact congrArg (Step.map update) (u.edit_rename ρ d e)
  | delete x => exact congrArg (Step.map delete) (x.edit_rename ρ d e)

namespace Statement

theorem edit_rename (st : Statement) (e : Edit) :
    (st.rename ρ).edit (e.rename ρ) = (st.edit e).map (rename ρ) := by
  have hbody := congrArg (Step.map fun b => { st.rename ρ with body := b })
    (st.body.edit_rename ρ st.dialect e)
  cases e with
  | commonTable e =>
    have h : (e.rename ρ).apply st.dialect (st.rename ρ).commonTables = _ :=
      e.apply_rename ρ st.dialect st.commonTables
    have hdialect : (st.rename ρ).dialect = st.dialect := rfl
    rw [Edit.rename, edit, hdialect, h, edit]
    cases e.apply st.dialect st.commonTables <;> rfl
  | _ => exact hbody

theorem editAll_rename (st : Statement) (es : List Edit) :
    (st.rename ρ).editAll (es.map (Edit.rename ρ)) = (st.editAll es).rename ρ := by
  induction es generalizing st with
  | nil => rfl
  | cons e es ih =>
    rw [List.map_cons, editAll, List.foldl_cons, edit_rename]
    exact ih _

theorem answers_rename (k : ClauseName) (st : Statement) (es : List Edit) :
    (st.rename ρ).answers k (es.map (Edit.rename ρ)) = st.answers k es := by
  induction es generalizing st with
  | nil => rfl
  | cons e es ih =>
    simp only [List.map_cons, answers, edit_rename, Edit.clause_rename, Step.map_state, ih]
    rfl

theorem editsOf_rename (k : ClauseName) (es : List Edit) :
    editsOf k (es.map (Edit.rename ρ)) = (editsOf k es).map (Edit.rename ρ) := by
  rw [editsOf, editsOf, List.filter_map]
  exact congrArg (fun p => (es.filter p).map (Edit.rename ρ))
    (funext fun e => by rw [Function.comp_apply, Edit.clause_rename])

end Statement

theorem expandParts_rename {expand expand' : StatementId → Except Fault (List Chunk)}
    (h : ∀ id, expand' (ρ id) = expand id) (ps : List Part) :
    expandParts expand' (ps.map (Part.rename ρ)) = expandParts expand ps := by
  induction ps with
  | nil => rfl
  | cons p ps ih =>
    cases p with
    | chunk c => simp only [List.map_cons, Part.rename, expandParts, ih]
    | statement id => simp only [List.map_cons, Part.rename, expandParts, ih, h]

namespace Store

/-- The second store has the statements of the first in other places. -/
def Renamed (ρ : Equiv.Perm StatementId) (s t : Store) : Prop :=
  ∀ id, t.get? (ρ id) = (s.get? id).map (Statement.rename ρ)

variable {ρ : Equiv.Perm StatementId} {s t : Store} (h : Renamed ρ s t)
include h

theorem Renamed.size_eq : t.size = s.size := by
  have hlt (id : StatementId) : ρ id < t.size ↔ id < s.size := by
    rw [← isSome_get?, ← isSome_get?, h id, Option.isSome_map]
  have hmap : (Finset.range s.size).map ρ.toEmbedding = Finset.range t.size := by
    ext id
    simp only [Finset.mem_map_equiv, Finset.mem_range, ← hlt, Equiv.apply_symm_apply]
  rw [← Finset.card_range t.size, ← hmap, Finset.card_map, Finset.card_range]

theorem Renamed.find_eq (id : StatementId) :
    t.find (ρ id) = (s.find id).map (Statement.rename ρ) := by
  unfold find
  rw [h id]
  cases s.get? id <;> rfl

theorem Renamed.expandAt_eq (depth : Nat) (id : StatementId) :
    t.expandAt depth (ρ id) = s.expandAt depth id := by
  induction depth generalizing id with
  | zero => rfl
  | succ depth ih =>
    rw [expandAt, expandAt, h.find_eq]
    cases s.find id with
    | error f => rfl
    | ok st =>
      have hparts := st.parts_rename ρ
      simp only [Except.map, bind, Except.bind, hparts]
      cases st.parts with
      | error f => rfl
      | ok ps =>
        simp only [expandParts_rename ρ ih ps]
        cases expandParts (s.expandAt depth) ps with
        | error f => rfl
        | ok cs => exact Statement.whenWritable_congr (st.isWritable_rename ρ) cs

theorem Renamed.chunks_eq (id : StatementId) : t.chunks (ρ id) = s.chunks id := by
  rw [chunks, chunks, h.size_eq, h.expandAt_eq]

theorem Renamed.countChunks_eq (id : StatementId) : t.countChunks (ρ id) = s.countChunks id := by
  rw [countChunks, countChunks, h.find_eq]
  cases s.find id with
  | error f => rfl
  | ok st =>
    have hparts := st.countParts_rename ρ
    simp only [Except.map, bind, Except.bind, hparts]
    cases st.countParts with
    | error f => rfl
    | ok ps =>
      simp only [expand, h.size_eq]
      exact expandParts_rename ρ (h.expandAt_eq s.size) ps

end Store
end SqlComposer
