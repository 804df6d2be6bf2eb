import SqlComposer.Proofs.Unreadable

/-! The statements that a statement refers to, in the order in which they are written: those of its
common tables, those of its columns, and those of its other clauses. An UPDATE writes its sources and
joins in front of what it sets or behind it. -/

namespace SqlComposer

def Binding.statement? : Binding → Option StatementId
  | value _ => none
  | statement id => some id

def referencesOf (ps : List Part) : List StatementId := (bindingsOf ps).filterMap Binding.statement?

@[simp] theorem referencesOf_append (ps qs : List Part) :
    referencesOf (ps ++ qs) = referencesOf ps ++ referencesOf qs := by
  rw [referencesOf, bindingsOf_append, List.filterMap_append]
  rfl

@[simp] theorem referencesOf_chunk (c : Chunk) (ps : List Part) :
    referencesOf (.chunk c :: ps) = referencesOf ps := by
  have hvalues : (c.values.map Binding.value).filterMap Binding.statement? = [] := by
    simp [Binding.statement?]
  rw [referencesOf, bindingsOf_cons, Part.bindings, List.filterMap_append, hvalues]
  rfl

@[simp] theorem referencesOf_statement (id : StatementId) (ps : List Part) :
    referencesOf (.statement id :: ps) = id :: referencesOf ps := rfl

theorem filterMap_statement (ids : List StatementId) :
    (ids.map Binding.statement).filterMap Binding.statement? = ids := by
  rw [List.filterMap_map]
  exact List.filterMap_some

theorem references_flatMap {α : Type} {f : α → List Binding} {query? : α → Option StatementId}
    (h : ∀ a, (f a).filterMap Binding.statement? = (query? a).toList) (items : List α) :
    (items.flatMap f).filterMap Binding.statement? = items.filterMap query? := by
  rw [List.filterMap_flatMap, List.filterMap_eq_flatMap_toList]
  simp only [h]

theorem references_embedded (before after : String) (query : Option StatementId) :
    (bindingsOf (Part.embedded before query after)).filterMap Binding.statement? = query.toList := by
  rw [Part.bindings_embedded, filterMap_statement]

theorem Source.references (s : Source) :
    (bindingsOf s.parts).filterMap Binding.statement? = s.query?.toList := by
  cases s with
  | table name asName => rfl
  | query id asName => exact references_embedded _ _ id

theorem Join.references (j : Join) :
    (bindingsOf j.parts).filterMap Binding.statement? = j.source.query?.toList := by
  simp [parts, Source.references, Binding.statement?]

theorem Predicate.references (p : Predicate) :
    (bindingsOf p.parts).filterMap Binding.statement? = p.query?.toList := by
  cases p with
  | text t values => simp [parts, query?, Binding.statement?]
  | query before id after => exact references_embedded _ _ id

theorem AssignedValue.references (v : AssignedValue) :
    (bindingsOf v.parts).filterMap Binding.statement? = v.query?.toList := by
  cases v with
  | expression t values => simp [parts, query?, Binding.statement?]
  | query id => exact references_embedded _ _ id

theorem SetItem.references (i : SetItem) : i.bindings.filterMap Binding.statement? = i.query?.toList := by
  cases i with
  | assignment a =>
    simp [bindings, parts, Assignment.parts, query?, AssignedValue.references]
  | raw t values => simp [bindings, parts, query?, Binding.statement?]

theorem references_sources (keyword : String) (sources : List Source) :
    referencesOf (Part.clause keyword ", " (sources.map Source.parts)) =
      sources.filterMap Source.query? := by
  rw [referencesOf, Part.bindings_clause, List.flatMap_map]
  exact references_flatMap Source.references sources

theorem references_joins (joins : List Join) :
    referencesOf (joins.flatMap Join.parts) = joins.filterMap (·.source.query?) := by
  rw [referencesOf, bindingsOf_flatMap]
  exact references_flatMap Join.references joins

theorem Conditions.references (keyword : String) (cs : Conditions) :
    referencesOf (clause keyword cs) = cs.filterMap (·.predicate.query?) := by
  rw [referencesOf, bindings_clause]
  exact references_flatMap (fun c => Predicate.references c.predicate) cs

theorem references_unions (unions : List UnionBranch) :
    referencesOf (unions.flatMap UnionBranch.parts) = unions.filterMap (·.query) := by
  rw [referencesOf, bindingsOf_flatMap]
  exact references_flatMap (fun u => references_embedded _ _ u.query) unions

theorem Projection.references (p : Projection) :
    referencesOf p.parts = p.columns.filterMap Column.query? := by
  rw [referencesOf, p.bindings_parts, filterMap_statement]

theorem CommonTable.references (ts : List CommonTable) :
    referencesOf (clause ts) = ts.filterMap (·.query) := by
  unfold clause
  split
  · next hempty =>
    rw [List.isEmpty_iff.1 hempty]
    rfl
  · rw [referencesOf_append, referencesOf, Part.bindings_clause, List.flatMap_map]
    refine (List.append_nil _).trans ?_
    exact references_flatMap (fun t => references_embedded _ _ t.query) ts

namespace Query

theorem references_rowParts (q : Query) : referencesOf q.rowParts = q.rowQueries := by
  have hgrouping : referencesOf q.grouping.clause = [] := by
    cases q.grouping with
    | groups exprs =>
      rw [Grouping.clause, referencesOf, Part.bindings_clause]
      simp
    | all => rfl
  simp only [rowParts, referencesOf_append, references_sources, references_joins,
    Conditions.references, hgrouping, references_unions, List.append_nil]
  rfl

end Query

namespace Statement

def tableQueries (st : Statement) : List StatementId := st.commonTables.filterMap (·.query)

def columnQueries (st : Statement) : List StatementId :=
  match st.body with
  | .select q => q.columnQueries
  | _ => []

def otherQueries (st : Statement) : List StatementId :=
  match st.body with
  | .select q => q.rowQueries
  | .insert i => i.assignments.filterMap (·.value.query?)
  | .update u =>
    let further := u.sources.filterMap Source.query? ++ u.joins.filterMap (·.source.query?)
    let items := u.items.filterMap SetItem.query?
    let conditions := u.conditions.filterMap (·.predicate.query?)
    match st.dialect.family.updateStyle with
    | .joinedTargets => further ++ items ++ conditions
    | .fromClause => items ++ further ++ conditions
  | .delete x => x.conditions.filterMap (·.predicate.query?)

variable {st : Statement} {ps : List Part}

theorem references_parts (h : st.parts = .ok ps) :
    referencesOf ps = st.tableQueries ++ st.columnQueries ++ st.otherQueries := by
  obtain ⟨d, ts, body⟩ := st
  obtain ⟨own, hown, ⟨⟩⟩ := bind_eq_ok.1 h
  rw [referencesOf_append, CommonTable.references, List.append_assoc]
  refine congrArg (ts.filterMap (·.query) ++ ·) ?_
  cases body with
  | select q =>
    cases hown
    have hordering : referencesOf (orderingClause q.ordering) = [] := by
      rw [referencesOf, bindings_orderingClause]
      rfl
    have hwindow : referencesOf (q.window.clause d) = [] := by
      rw [referencesOf, bindings_window]
      rfl
    rw [Query.parts_eq, referencesOf_append, referencesOf_append, referencesOf_append,
      Projection.references, q.references_rowParts, hordering, hwindow, List.append_nil,
      List.append_nil]
    rfl
  | insert i =>
    cases hown
    rw [referencesOf, Insertion.bindings_parts]
    exact references_flatMap (fun a => AssignedValue.references a.value) i.assignments
  | update u =>
    rw [referencesOf, Update.bindings_parts hown]
    have hsources := references_flatMap Source.references u.sources
    have hjoins := references_flatMap Join.references u.joins
    have hitems := references_flatMap SetItem.references u.items
    have hconditions := Conditions.references " WHERE " u.conditions
    rw [referencesOf] at hconditions
    unfold columnQueries otherQueries
    cases d.family.updateStyle <;> simp [hsources, hjoins, hitems, hconditions]
  | delete x =>
    cases hown
    have htargets : referencesOf (Part.clause "DELETE FROM " ", " (x.targets.map Target.parts)) = [] := by
      rw [referencesOf, Part.bindings_clause, List.flatMap_map]
      simp [Target.parts]
    rw [Deletion.parts, referencesOf_append, htargets, Conditions.references]
    rfl

theorem references_countParts (h : st.countParts = .ok ps) :
    referencesOf ps = st.tableQueries ++ st.otherQueries := by
  obtain ⟨d, ts, body⟩ := st
  cases body with
  | select q =>
    cases h
    rw [Query.countParts_eq, referencesOf_append, CommonTable.references]
    exact congrArg (ts.filterMap (·.query) ++ ·) q.references_rowParts
  | insert | update | delete => cases h

theorem mem_written {r : StatementId} :
    r ∈ st.queries ↔ r ∈ st.tableQueries ∨ r ∈ st.columnQueries ∨ r ∈ st.otherQueries := by
  obtain ⟨d, ts, body⟩ := st
  rw [queries, List.mem_append]
  refine or_congr Iff.rfl ?_
  cases body with
  | select q => exact List.mem_append
  | insert i => exact (or_iff_right List.not_mem_nil).symm
  | update u =>
    unfold columnQueries otherQueries
    cases d.family.updateStyle <;> simp only [Body.queries, List.mem_append, List.not_mem_nil] <;> tauto
  | delete x => exact (or_iff_right List.not_mem_nil).symm

end Statement
end SqlComposer
