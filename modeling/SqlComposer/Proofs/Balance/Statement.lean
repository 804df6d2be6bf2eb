import SqlComposer.Proofs.Balance.Assignment
import SqlComposer.Proofs.Balance.Clause

/-! Balanced statements: all their clauses are. Edits with balanced texts keep them so, whether they are
accepted or refused. -/

namespace SqlComposer

structure Query.Balanced (q : Query) : Prop where
  projection : q.projection.Balanced
  sources : ∀ s ∈ q.sources, BalancedParts s.parts
  joins : ∀ j ∈ q.joins, BalancedParts j.parts
  conditions : q.conditions.Balanced
  grouping : q.grouping.Balanced
  having : q.having.Balanced
  ordering : ∀ i ∈ q.ordering, shape i = 1

structure Insertion.Balanced (i : Insertion) : Prop where
  table : shape i.table = 1
  assignments : ∀ a ∈ i.assignments, a.Balanced

structure Update.Balanced (u : Update) : Prop where
  targets : ∀ t ∈ u.targets, BalancedParts t.parts
  items : ∀ i ∈ u.items, BalancedParts i.parts
  sources : ∀ s ∈ u.sources, BalancedParts s.parts
  joins : ∀ j ∈ u.joins, BalancedParts j.parts
  conditions : u.conditions.Balanced

structure Deletion.Balanced (x : Deletion) : Prop where
  targets : ∀ t ∈ x.targets, BalancedParts t.parts
  conditions : x.conditions.Balanced

def Body.Balanced : Body → Prop
  | select q => q.Balanced
  | insert i => i.Balanced
  | update u => u.Balanced
  | delete x => x.Balanced

structure Statement.Balanced (st : Statement) : Prop where
  commonTables : ∀ t ∈ st.commonTables, BalancedParts t.parts
  body : st.body.Balanced

/-- Texts are balanced, and statements to be embedded are given. -/
def Edit.Balanced : Edit → Prop
  | commonTable e => e.Balanced
  | target table asName => table.Balanced ∧ asName.Balanced
  | column e => e.Balanced
  | source e => e.Balanced
  | join e => e.Balanced
  | filter e => e.Balanced
  | grouping e => e.Balanced
  | having e => e.Balanced
  | union _ | window _ => True
  | ordering e => e.Balanced
  | assignment e => e.Balanced
  | bind name _ => name.Balanced
  | set e => e.Balanced

def Creation.Balanced : Creation → Prop
  | select _ table asName => table = .null ∨ table.Balanced ∧ asName.Balanced
  | update _ table asName | delete _ table asName => table.Balanced ∧ asName.Balanced
  | selectFrom _ _ asName => asName.Balanced
  | insert _ table => table.Balanced

namespace Query
variable {q : Query}

theorem Balanced.rowParts (h : q.Balanced) : BalancedParts q.rowParts := by
  have hsources : BalancedParts (Part.clause " FROM " ", " (q.sources.map Source.parts)) :=
    balancedParts_clause (by decide) (by decide) h.sources
  have hjoins : BalancedParts (q.joins.flatMap Join.parts) := balancedParts_flatMap h.joins
  have hconditions : BalancedParts (Conditions.clause " WHERE " q.conditions) :=
    h.conditions.clause (by decide)
  have hhaving : BalancedParts (Conditions.clause " HAVING " q.having) := h.having.clause (by decide)
  have hunions : BalancedParts (q.unions.flatMap UnionBranch.parts) :=
    balancedParts_flatMap fun u _ => u.balanced_parts
  exact ((((hsources.append hjoins).append hconditions).append h.grouping.clause).append hhaving).append
    hunions

theorem Balanced.parts (d : Dialect) (h : q.Balanced) : BalancedParts (q.parts d) := by
  have hordering : BalancedParts (orderingClause q.ordering) :=
    balancedParts_texts (by decide) h.ordering
  rw [parts_eq]
  exact ((h.projection.parts.append h.rowParts).append hordering).append (q.window.balanced_clause d)

end Query

theorem Insertion.Balanced.parts (d : Dialect) {i : Insertion} (h : i.Balanced) :
    BalancedParts (i.parts d) := by
  refine BalancedParts.text_cons ?_ ?_
  · rw [shape_append, h.table]
    decide
  · split
    · exact balancedParts_text d.family.shape_emptyInsertValues
    · have hcolumns : shape (", ".intercalate (i.assignments.map (·.column))) = 1 :=
        shape_intercalate_eq_one (by decide) (List.forall_mem_map.2 fun a ha => (h.assignments a ha).1)
      have hvalues : BalancedParts (Part.separated ", " (i.assignments.map (·.value.parts))) :=
        balancedParts_separated (by decide) (List.forall_mem_map.2 fun a ha => (h.assignments a ha).2)
      -- The parenthesis in front of the values is closed by the last part.
      simp only [BalancedParts, List.cons_append, partsShape_text, partsShape_append, shape_append, hcolumns,
        show partsShape _ = 1 from hvalues, partsShape_nil]
      decide

theorem Update.Balanced.parts (d : Dialect) {u : Update} (h : u.Balanced) :
    Ensures (u.parts d) BalancedParts := by
  have htarget : BalancedParts (Part.clause "UPDATE " ", " (u.targets.map Target.parts)) :=
    balancedParts_clause (by decide) (by decide) h.targets
  have hitems : BalancedParts (Part.clause " SET " ", " (u.items.map SetItem.parts)) :=
    balancedParts_clause (by decide) (by decide) h.items
  have hsources {keyword : String} (hk : shape keyword = 1) :
      BalancedParts (Part.clause keyword ", " (u.sources.map Source.parts)) :=
    balancedParts_clause hk (by decide) h.sources
  have hjoins : BalancedParts (u.joins.flatMap Join.parts) := balancedParts_flatMap h.joins
  have hconditions : BalancedParts (Conditions.clause " WHERE " u.conditions) :=
    h.conditions.clause (by decide)
  unfold Update.parts
  split
  · exact ensures_ok ((((htarget.append (hsources (by decide))).append hjoins).append hitems).append
      hconditions)
  · split
    · exact ensures_error _
    · exact ensures_ok ((((htarget.append hitems).append (hsources (by decide))).append hjoins).append
        hconditions)

theorem Deletion.Balanced.parts {x : Deletion} (h : x.Balanced) : BalancedParts x.parts :=
  (balancedParts_clause (by decide) (by decide) h.targets).append (h.conditions.clause (by decide))

theorem Statement.Balanced.parts {st : Statement} (h : st.Balanced) : Ensures st.parts BalancedParts := by
  have hbody : Ensures (st.body.parts st.dialect) BalancedParts := by
    have hb := h.body
    cases hst : st.body with
    | select q =>
      rw [hst] at hb
      exact ensures_ok (Query.Balanced.parts st.dialect hb)
    | insert i =>
      rw [hst] at hb
      exact ensures_ok (Insertion.Balanced.parts st.dialect hb)
    | update u =>
      rw [hst] at hb
      exact Update.Balanced.parts st.dialect hb
    | delete x =>
      rw [hst] at hb
      exact ensures_ok (Deletion.Balanced.parts hb)
  exact hbody.bind fun ps hps =>
    ensures_ok ((CommonTable.balanced_clause h.commonTables).append hps)

namespace Query

theorem balanced_empty : Query.empty.Balanced where
  projection := fun _ h => absurd h List.not_mem_nil
  sources := fun _ h => absurd h List.not_mem_nil
  joins := fun _ h => absurd h List.not_mem_nil
  conditions := fun _ h => absurd h List.not_mem_nil
  grouping := fun _ h => absurd h List.not_mem_nil
  having := fun _ h => absurd h List.not_mem_nil
  ordering := fun _ h => absurd h List.not_mem_nil

theorem Balanced.edit (d : Dialect) {q : Query} (h : q.Balanced) {e : Edit} (he : e.Balanced) :
    (q.edit d e).state.Balanced := by
  cases e with
  | column e => exact { h with projection := ColumnEdit.Balanced.apply he h.projection }
  | source e =>
    exact Step.ofExcept_keeps h ((SourceEdit.Balanced.apply he h.sources).map fun _ hs =>
      { h with sources := hs })
  | join e =>
    exact Step.ofExcept_keeps h ((JoinEdit.Balanced.apply he h.joins).map fun _ hj =>
      { h with joins := hj })
  | filter e =>
    exact Step.ofExcept_keeps h ((FilterEdit.Balanced.apply d he h.conditions).map fun _ hc =>
      { h with conditions := hc })
  | grouping e => exact { h with grouping := GroupingEdit.Balanced.apply d he h.grouping }
  | having e =>
    exact Step.ofExcept_keeps h ((HavingEdit.Balanced.apply he h.having).map fun _ hc =>
      { h with having := hc })
  | union u => exact { h with }
  | ordering e => exact { h with ordering := OrderingEdit.Balanced.apply he h.ordering }
  | window e => exact { h with }
  | _ => exact h

end Query

theorem Insertion.Balanced.edit (d : Dialect) {i : Insertion} (h : i.Balanced) {e : Edit}
    (he : e.Balanced) : (i.edit d e).state.Balanced := by
  have hr (p : Phrase) : shape p.alone = shape p.alone := rfl
  cases e with
  | assignment e =>
    have hassigned := AssignmentEdit.Balanced.assignments d hr he
    exact { h with assignments := List.forall_mem_append.2 ⟨h.assignments, hassigned⟩ }
  | bind column value =>
    have hassigned := AssignmentEdit.balanced_assign hr he (show shape placeholder = 1 by decide) [value]
    refine Step.ofExcept_keeps h (hassigned.bind fun a ha => ensures_ok { h with assignments := ?_ })
    exact List.forall_mem_append.2 ⟨h.assignments, List.forall_mem_singleton.2 ha⟩
  | _ => exact h

theorem Update.Balanced.edit (d : Dialect) {u : Update} (h : u.Balanced) {e : Edit} (he : e.Balanced) :
    (u.edit d e).state.Balanced := by
  cases e with
  | target table asName =>
    refine Step.ofExcept_keeps h ((balanced_targetOf he.1 he.2).map fun t ht => ?_)
    exact { h with targets := List.forall_mem_append.2 ⟨h.targets, List.forall_mem_singleton.2 ht⟩ }
  | assignment e =>
    have hassigned := AssignmentEdit.Balanced.assignments d Phrase.shape_within he
    have hitems : ∀ i ∈ (e.assignments d Phrase.within).state.map SetItem.assignment,
        BalancedParts i.parts :=
      List.forall_mem_map.2 fun a ha => (hassigned a ha).parts
    exact { h with items := List.forall_mem_append.2 ⟨h.items, hitems⟩ }
  | set e =>
    refine Step.ofExcept_keeps h ((SetEdit.Balanced.items d he).map fun is his => ?_)
    exact { h with items := List.forall_mem_append.2 ⟨h.items, his⟩ }
  | source e =>
    exact Step.ofExcept_keeps h ((SourceEdit.Balanced.apply he h.sources).map fun _ hs =>
      { h with sources := hs })
  | join e =>
    exact Step.ofExcept_keeps h ((JoinEdit.Balanced.apply he h.joins).map fun _ hj =>
      { h with joins := hj })
  | filter e =>
    exact Step.ofExcept_keeps h ((FilterEdit.Balanced.apply d he h.conditions).map fun _ hc =>
      { h with conditions := hc })
  | _ => exact h

theorem Deletion.Balanced.edit (d : Dialect) {x : Deletion} (h : x.Balanced) {e : Edit}
    (he : e.Balanced) : (x.edit d e).state.Balanced := by
  cases e with
  | target table asName =>
    refine Step.ofExcept_keeps h ((balanced_targetOf he.1 he.2).map fun t ht => ?_)
    exact { h with targets := List.forall_mem_append.2 ⟨h.targets, List.forall_mem_singleton.2 ht⟩ }
  | filter e =>
    exact Step.ofExcept_keeps h ((FilterEdit.Balanced.apply d he h.conditions).map fun _ hc =>
      { h with conditions := hc })
  | _ => exact h

theorem Body.Balanced.edit (d : Dialect) {b : Body} (h : b.Balanced) {e : Edit} (he : e.Balanced) :
    (b.edit d e).state.Balanced := by
  cases b with
  | select q => exact Query.Balanced.edit d h he
  | insert i => exact Insertion.Balanced.edit d h he
  | update u => exact Update.Balanced.edit d h he
  | delete x => exact Deletion.Balanced.edit d h he

namespace Statement
variable {st : Statement} {table asName : Value}

theorem Balanced.edit (h : st.Balanced) {e : Edit} (he : e.Balanced) : (st.edit e).state.Balanced := by
  cases e with
  | commonTable e =>
    exact Step.ofExcept_keeps h ((CommonTableEdit.Balanced.apply st.dialect he h.commonTables).map
      fun _ ht => { h with commonTables := ht })
  | _ => exact { h with body := Body.Balanced.edit st.dialect h.body he }

theorem balanced_of_body {d : Dialect} {b : Body} (h : b.Balanced) : Balanced ⟨d, [], b⟩ where
  commonTables := fun _ h => absurd h List.not_mem_nil
  body := h

theorem balanced_fromSource (d : Dialect) {s : Source} (h : BalancedParts s.parts) :
    Balanced ⟨d, [], .select { Query.empty with sources := [s] }⟩ :=
  balanced_of_body (show Query.Balanced _ from
    { Query.balanced_empty with sources := List.forall_mem_singleton.2 h })

theorem balanced_select (d : Dialect) (h : table = .null ∨ table.Balanced ∧ asName.Balanced) :
    Ensures (select d table asName) Balanced := by
  unfold select
  split
  · exact ensures_ok (balanced_of_body Query.balanced_empty)
  · next hnull =>
    have hsource := SourceEdit.Balanced.source (e := .table table asName) (h.resolve_left hnull)
    exact hsource.bind fun s hs => ensures_ok (balanced_fromSource d hs)

theorem balanced_selectFrom (d : Dialect) (query : StatementId) (ha : asName.Balanced) :
    Ensures (selectFrom d (some query) asName) Balanced := by
  have hsource := SourceEdit.Balanced.source (e := .query (some query) asName) ⟨ha, rfl⟩
  exact hsource.bind fun _ hs => ensures_ok (balanced_fromSource d hs)

theorem balanced_insert (d : Dialect) (ht : table.Balanced) : Ensures (insert d table) Balanced :=
  (ht.require "table").bind fun _ ht => ensures_ok (balanced_of_body (show Insertion.Balanced _ from
    ⟨ht, fun _ h => absurd h List.not_mem_nil⟩))

theorem balanced_update (d : Dialect) (ht : table.Balanced) (ha : asName.Balanced) :
    Ensures (update d table asName) Balanced := by
  refine (balanced_targetOf ht ha).bind fun t ht => ensures_ok (balanced_of_body ?_)
  exact show Update.Balanced _ from
    { targets := List.forall_mem_singleton.2 ht
      items := fun _ h => absurd h List.not_mem_nil
      sources := fun _ h => absurd h List.not_mem_nil
      joins := fun _ h => absurd h List.not_mem_nil
      conditions := fun _ h => absurd h List.not_mem_nil }

theorem balanced_delete (d : Dialect) (ht : table.Balanced) (ha : asName.Balanced) :
    Ensures (delete d table asName) Balanced := by
  refine (balanced_targetOf ht ha).bind fun t ht => ensures_ok (balanced_of_body ?_)
  exact show Deletion.Balanced _ from
    { targets := List.forall_mem_singleton.2 ht
      conditions := fun _ h => absurd h List.not_mem_nil }

end Statement

theorem Store.balanced_statementOf (s : Store) {c : Creation} (hc : c.Balanced) :
    Ensures (s.statementOf c) Statement.Balanced := by
  cases c with
  | select d table asName => exact Statement.balanced_select _ hc
  | selectFrom d query asName =>
    exact (ensures_any _).bind fun q _ => Statement.balanced_selectFrom _ _ hc
  | insert d table => exact Statement.balanced_insert _ hc
  | update d table asName => exact Statement.balanced_update _ hc.1 hc.2
  | delete d table asName => exact Statement.balanced_delete _ hc.1 hc.2

end SqlComposer
