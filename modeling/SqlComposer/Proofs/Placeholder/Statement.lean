import SqlComposer.Edit
import SqlComposer.Proofs.Placeholder.Assignment
import SqlComposer.Proofs.Placeholder.Clause

/-! Aligned statements: all their clauses are. Edits whose texts bring a placeholder for each value
keep them so, whether they are accepted or refused. -/

namespace SqlComposer

structure Query.Aligned (q : Query) : Prop where
  projection : q.projection.Aligned
  sources : ∀ s ∈ q.sources, AlignedParts s.parts
  joins : ∀ j ∈ q.joins, AlignedParts j.parts
  conditions : q.conditions.Aligned
  grouping : q.grouping.Aligned
  having : q.having.Aligned
  ordering : ∀ i ∈ q.ordering, marks i = 0

structure Insertion.Aligned (i : Insertion) : Prop where
  table : marks i.table = 0
  assignments : ∀ a ∈ i.assignments, a.Aligned

structure Update.Aligned (u : Update) : Prop where
  targets : ∀ t ∈ u.targets, AlignedParts t.parts
  items : ∀ i ∈ u.items, AlignedParts i.parts
  sources : ∀ s ∈ u.sources, AlignedParts s.parts
  joins : ∀ j ∈ u.joins, AlignedParts j.parts
  conditions : u.conditions.Aligned

structure Deletion.Aligned (x : Deletion) : Prop where
  targets : ∀ t ∈ x.targets, AlignedParts t.parts
  conditions : x.conditions.Aligned

def Body.Aligned : Body → Prop
  | select q => q.Aligned
  | insert i => i.Aligned
  | update u => u.Aligned
  | delete x => x.Aligned

structure Statement.Aligned (st : Statement) : Prop where
  commonTables : ∀ t ∈ st.commonTables, AlignedParts t.parts
  body : st.body.Aligned

/-- Texts that are given with values hold a placeholder for each, and all others none. -/
def Edit.Aligned : Edit → Prop
  | commonTable e => e.Aligned
  | target table asName => table.Unmarked ∧ asName.optionalMarks = 0
  | column e => e.Aligned
  | source e => e.Aligned
  | join e => e.Aligned
  | filter e => e.Aligned
  | grouping e => e.Aligned
  | having e => e.Aligned
  | union _ | window _ => True
  | ordering e => e.Aligned
  | assignment e => e.Aligned
  | bind name _ => name.Unmarked
  | set e => e.Aligned

namespace Query
variable {q : Query}

theorem Aligned.rowParts (h : q.Aligned) : AlignedParts q.rowParts := by
  simp only [Query.rowParts, alignedParts_append]
  refine ⟨⟨⟨⟨⟨?_, ?_⟩, ?_⟩, ?_⟩, ?_⟩, ?_⟩
  · exact alignedParts_clause (by decide) (by decide) h.sources
  · exact alignedParts_flatMap h.joins
  · exact Conditions.aligned_clause (by decide) h.conditions
  · exact h.grouping.clause
  · exact Conditions.aligned_clause (by decide) h.having
  · exact alignedParts_flatMap fun u _ => u.aligned_parts

theorem Aligned.parts (d : Dialect) (h : q.Aligned) : AlignedParts (q.parts d) := by
  have hordering : AlignedParts (orderingClause q.ordering) :=
    alignedParts_texts (by decide) h.ordering
  simp only [parts_eq, alignedParts_append]
  exact ⟨⟨⟨h.projection.parts, h.rowParts⟩, hordering⟩, q.window.aligned_clause d⟩

theorem Aligned.countParts (h : q.Aligned) : AlignedParts q.countParts := by
  have hcount : marks "SELECT count(1) AS cnt" = 0 := by decide
  rw [countParts_eq]
  exact alignedParts_cons.2 ⟨hcount, h.rowParts⟩

end Query

theorem Insertion.Aligned.parts (d : Dialect) {i : Insertion} (h : i.Aligned) :
    AlignedParts (i.parts d) := by
  refine alignedParts_cons.2 ⟨?_, ?_⟩
  · rw [Part.aligned_text, marks_append, h.table]
    decide
  · split
    · have hempty : marks d.family.emptyInsertValues = 0 := by cases d.family <;> decide
      exact alignedParts_cons.2 ⟨hempty, alignedParts_nil⟩
    · have hcolumns : marks (", ".intercalate (i.assignments.map (·.column))) = 0 :=
        marks_intercalate_eq_zero (by decide) (List.forall_mem_map.2 fun a ha => (h.assignments a ha).1)
      refine alignedParts_cons.2 ⟨?_, alignedParts_append.2 ⟨?_, by decide⟩⟩
      · rw [Part.aligned_text, marks_append, marks_append, hcolumns]
        decide
      · refine alignedParts_separated (by decide) ?_
        exact List.forall_mem_map.2 fun a ha => (h.assignments a ha).2

theorem Update.Aligned.parts (d : Dialect) {u : Update} (h : u.Aligned) :
    Ensures (u.parts d) AlignedParts := by
  have htarget : AlignedParts (Part.clause "UPDATE " ", " (u.targets.map Target.parts)) :=
    alignedParts_clause (by decide) (by decide) h.targets
  have hitems : AlignedParts (Part.clause " SET " ", " (u.items.map SetItem.parts)) :=
    alignedParts_clause (by decide) (by decide) h.items
  have hjoins : AlignedParts (u.joins.flatMap Join.parts) := alignedParts_flatMap h.joins
  have hconditions : AlignedParts (Conditions.clause " WHERE " u.conditions) :=
    Conditions.aligned_clause (by decide) h.conditions
  unfold Update.parts
  split
  · refine ensures_ok ?_
    simp only [alignedParts_append]
    exact ⟨⟨⟨⟨htarget, alignedParts_clause (by decide) (by decide) h.sources⟩, hjoins⟩, hitems⟩,
      hconditions⟩
  · split
    · exact ensures_error _
    · refine ensures_ok ?_
      simp only [alignedParts_append]
      exact ⟨⟨⟨⟨htarget, hitems⟩, alignedParts_clause (by decide) (by decide) h.sources⟩, hjoins⟩,
        hconditions⟩

theorem Deletion.Aligned.parts {x : Deletion} (h : x.Aligned) : AlignedParts x.parts :=
  alignedParts_append.2 ⟨alignedParts_clause (by decide) (by decide) h.targets,
    Conditions.aligned_clause (by decide) h.conditions⟩

namespace Statement
variable {st : Statement}

theorem Aligned.parts (h : st.Aligned) : Ensures st.parts AlignedParts := by
  have hbody : Ensures (st.body.parts st.dialect) AlignedParts := by
    have hb := h.body
    cases hst : st.body with
    | select q =>
      rw [hst] at hb
      exact ensures_ok (Query.Aligned.parts st.dialect hb)
    | insert i =>
      rw [hst] at hb
      exact ensures_ok (Insertion.Aligned.parts st.dialect hb)
    | update u =>
      rw [hst] at hb
      exact Update.Aligned.parts st.dialect hb
    | delete x =>
      rw [hst] at hb
      exact ensures_ok (Deletion.Aligned.parts hb)
  refine hbody.bind fun ps hps => ensures_ok ?_
  exact alignedParts_append.2 ⟨CommonTable.aligned_clause h.commonTables, hps⟩

theorem Aligned.countParts (h : st.Aligned) : Ensures st.countParts AlignedParts := by
  have hb := h.body
  unfold Statement.countParts
  split
  · next q hst =>
    rw [hst] at hb
    refine ensures_ok (alignedParts_append.2 ⟨CommonTable.aligned_clause h.commonTables, ?_⟩)
    exact Query.Aligned.countParts hb
  · exact ensures_error _

end Statement

namespace Query

theorem aligned_empty : Query.empty.Aligned where
  projection := fun _ h => absurd h List.not_mem_nil
  sources := fun _ h => absurd h List.not_mem_nil
  joins := fun _ h => absurd h List.not_mem_nil
  conditions := fun _ h => absurd h List.not_mem_nil
  grouping := fun _ h => absurd h List.not_mem_nil
  having := fun _ h => absurd h List.not_mem_nil
  ordering := fun _ h => absurd h List.not_mem_nil

theorem Aligned.edit (d : Dialect) {q : Query} (h : q.Aligned) {e : Edit} (he : e.Aligned) :
    (q.edit d e).state.Aligned := by
  cases e with
  | column e => exact { h with projection := ColumnEdit.Aligned.apply he h.projection }
  | source e =>
    exact Step.ofExcept_keeps h ((SourceEdit.Aligned.apply he h.sources).map fun _ hs =>
      { h with sources := hs })
  | join e =>
    exact Step.ofExcept_keeps h ((JoinEdit.Aligned.apply he h.joins).map fun _ hj =>
      { h with joins := hj })
  | filter e =>
    exact Step.ofExcept_keeps h ((FilterEdit.Aligned.apply d he h.conditions).map fun _ hc =>
      { h with conditions := hc })
  | grouping e => exact { h with grouping := GroupingEdit.Aligned.apply d he h.grouping }
  | having e =>
    exact Step.ofExcept_keeps h ((HavingEdit.Aligned.apply he h.having).map fun _ hc =>
      { h with having := hc })
  | union u => exact { h with }
  | ordering e => exact { h with ordering := OrderingEdit.Aligned.apply he h.ordering }
  | window e => exact { h with }
  | _ => exact h

end Query

theorem Insertion.Aligned.edit (d : Dialect) {i : Insertion} (h : i.Aligned) {e : Edit}
    (he : e.Aligned) : (i.edit d e).state.Aligned := by
  have hr (p : Phrase) : marks p.alone = marks p.alone := rfl
  cases e with
  | assignment e =>
    have hassigned := AssignmentEdit.Aligned.assignments d hr he
    exact { h with assignments := List.forall_mem_append.2 ⟨h.assignments, hassigned⟩ }
  | bind column value =>
    refine Step.ofExcept_keeps h ((AssignmentEdit.ensures_assign hr he rfl).bind fun a ha => ?_)
    refine ensures_ok { h with assignments := ?_ }
    exact List.forall_mem_append.2 ⟨h.assignments, List.forall_mem_singleton.2 ha⟩
  | _ => exact h

theorem Update.Aligned.edit (d : Dialect) {u : Update} (h : u.Aligned) {e : Edit} (he : e.Aligned) :
    (u.edit d e).state.Aligned := by
  cases e with
  | target table asName =>
    refine Step.ofExcept_keeps h ((ensures_targetOf he.1 he.2).map fun t ht => ?_)
    exact { h with targets := List.forall_mem_append.2 ⟨h.targets, List.forall_mem_singleton.2 ht⟩ }
  | assignment e =>
    have hassigned := AssignmentEdit.Aligned.assignments d Phrase.marks_within he
    have hitems : ∀ i ∈ (e.assignments d Phrase.within).state.map SetItem.assignment,
        AlignedParts i.parts :=
      List.forall_mem_map.2 fun a ha => Assignment.aligned_parts (hassigned a ha)
    exact { h with items := List.forall_mem_append.2 ⟨h.items, hitems⟩ }
  | set e =>
    refine Step.ofExcept_keeps h ((SetEdit.Aligned.items d he).map fun is his => ?_)
    exact { h with items := List.forall_mem_append.2 ⟨h.items, his⟩ }
  | source e =>
    exact Step.ofExcept_keeps h ((SourceEdit.Aligned.apply he h.sources).map fun _ hs =>
      { h with sources := hs })
  | join e =>
    exact Step.ofExcept_keeps h ((JoinEdit.Aligned.apply he h.joins).map fun _ hj =>
      { h with joins := hj })
  | filter e =>
    exact Step.ofExcept_keeps h ((FilterEdit.Aligned.apply d he h.conditions).map fun _ hc =>
      { h with conditions := hc })
  | _ => exact h

theorem Deletion.Aligned.edit (d : Dialect) {x : Deletion} (h : x.Aligned) {e : Edit}
    (he : e.Aligned) : (x.edit d e).state.Aligned := by
  cases e with
  | target table asName =>
    refine Step.ofExcept_keeps h ((ensures_targetOf he.1 he.2).map fun t ht => ?_)
    exact { h with targets := List.forall_mem_append.2 ⟨h.targets, List.forall_mem_singleton.2 ht⟩ }
  | filter e =>
    exact Step.ofExcept_keeps h ((FilterEdit.Aligned.apply d he h.conditions).map fun _ hc =>
      { h with conditions := hc })
  | _ => exact h

theorem Body.Aligned.edit (d : Dialect) {b : Body} (h : b.Aligned) {e : Edit} (he : e.Aligned) :
    (b.edit d e).state.Aligned := by
  cases b with
  | select q => exact Query.Aligned.edit d h he
  | insert i => exact Insertion.Aligned.edit d h he
  | update u => exact Update.Aligned.edit d h he
  | delete x => exact Deletion.Aligned.edit d h he

namespace Statement
variable {st : Statement} {table asName : Value}

theorem Aligned.edit (h : st.Aligned) {e : Edit} (he : e.Aligned) : (st.edit e).state.Aligned := by
  cases e with
  | commonTable e =>
    exact Step.ofExcept_keeps h ((CommonTableEdit.Aligned.apply st.dialect he h.commonTables).map
      fun _ ht => { h with commonTables := ht })
  | _ => exact { h with body := Body.Aligned.edit st.dialect h.body he }

theorem aligned_of_body {d : Dialect} {b : Body} (h : b.Aligned) : Aligned ⟨d, [], b⟩ where
  commonTables := fun _ h => absurd h List.not_mem_nil
  body := h

theorem aligned_fromSource (d : Dialect) {s : Source} (h : AlignedParts s.parts) :
    Aligned ⟨d, [], .select { Query.empty with sources := [s] }⟩ :=
  aligned_of_body (show Query.Aligned _ from
    { Query.aligned_empty with sources := List.forall_mem_singleton.2 h })

theorem ensures_select (d : Dialect) (ht : table.Unmarked) (ha : asName.optionalMarks = 0) :
    Ensures (select d table asName) Aligned := by
  unfold select
  split
  · exact ensures_ok (aligned_of_body Query.aligned_empty)
  · exact (SourceEdit.Aligned.source (e := .table _ _) ⟨ht, ha⟩).bind fun s hs =>
      ensures_ok (aligned_fromSource d hs)

theorem ensures_selectFrom (d : Dialect) (query : Option StatementId) (ha : asName.Unmarked) :
    Ensures (selectFrom d query asName) Aligned :=
  (SourceEdit.Aligned.source (e := .query query asName) ha).bind fun _ hs =>
    ensures_ok (aligned_fromSource d hs)

theorem ensures_insert (d : Dialect) (ht : table.Unmarked) : Ensures (insert d table) Aligned :=
  (ht.ensures "table").bind fun _ ht => ensures_ok (aligned_of_body (show Insertion.Aligned _ from
    ⟨ht, fun _ h => absurd h List.not_mem_nil⟩))

theorem ensures_update (d : Dialect) (ht : table.Unmarked) (ha : asName.optionalMarks = 0) :
    Ensures (update d table asName) Aligned := by
  refine (ensures_targetOf ht ha).bind fun t ht => ensures_ok (aligned_of_body ?_)
  exact show Update.Aligned _ from
    { targets := List.forall_mem_singleton.2 ht
      items := fun _ h => absurd h List.not_mem_nil
      sources := fun _ h => absurd h List.not_mem_nil
      joins := fun _ h => absurd h List.not_mem_nil
      conditions := fun _ h => absurd h List.not_mem_nil }

theorem ensures_delete (d : Dialect) (ht : table.Unmarked) (ha : asName.optionalMarks = 0) :
    Ensures (delete d table asName) Aligned := by
  refine (ensures_targetOf ht ha).bind fun t ht => ensures_ok (aligned_of_body ?_)
  exact show Deletion.Aligned _ from
    { targets := List.forall_mem_singleton.2 ht
      conditions := fun _ h => absurd h List.not_mem_nil }

end Statement
end SqlComposer
