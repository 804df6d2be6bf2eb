import SqlComposer.Proofs.Dialect.Statement
import SqlComposer.Proofs.Count
import SqlComposer.Proofs.Numeral
import SqlComposer.Proofs.Window.Accepted

/-! Statements that cannot be read. Two things stop a read: an UPDATE with joins and no source, where
joins stand behind FROM, and a window with a number that is too long to be written. Whatever a statement
holds in one of its clauses is read with it, so each of them stops the read of every statement that holds
it at any depth; the count of a query passes over its own window and over what only its column list
holds. -/

namespace SqlComposer
open Relation
variable {r : StatementId}

def Source.query? : Source → Option StatementId
  | table .. => none
  | query id _ => id

def Predicate.query? : Predicate → Option StatementId
  | text .. => none
  | query _ id _ => id

def AssignedValue.query? : AssignedValue → Option StatementId
  | expression .. => none
  | query id => id

def SetItem.query? : SetItem → Option StatementId
  | assignment a => a.value.query?
  | raw .. => none

namespace Query

def columnQueries (q : Query) : List StatementId := q.projection.columns.filterMap Column.query?

def rowQueries (q : Query) : List StatementId :=
  q.sources.filterMap Source.query?
    ++ q.joins.filterMap (·.source.query?)
    ++ q.conditions.filterMap (·.predicate.query?)
    ++ q.having.filterMap (·.predicate.query?)
    ++ q.unions.filterMap (·.query)

end Query

def Body.queries : Body → List StatementId
  | select q => q.columnQueries ++ q.rowQueries
  | insert i => i.assignments.filterMap (·.value.query?)
  | update u =>
    u.items.filterMap SetItem.query?
      ++ u.sources.filterMap Source.query?
      ++ u.joins.filterMap (·.source.query?)
      ++ u.conditions.filterMap (·.predicate.query?)
  | delete x => x.conditions.filterMap (·.predicate.query?)

namespace Statement

def queries (st : Statement) : List StatementId :=
  st.commonTables.filterMap (·.query) ++ st.body.queries

/-- The statements that the count of a query sees: all but those of its column list. -/
def countedQueries (st : Statement) : List StatementId :=
  st.commonTables.filterMap (·.query) ++
    match st.body with
    | .select q => q.rowQueries
    | _ => []

def LacksFrom (st : Statement) : Prop :=
  ∃ u, st.body = .update u ∧ st.dialect.family.updateStyle = .fromClause ∧
    u.joins ≠ [] ∧ u.sources = []

/-- What stops the read of the statement itself. -/
def Meets (st : Statement) : Obstacle → Prop
  | .joinsWithoutFrom dialect => st.LacksFrom ∧ dialect = st.dialect.name
  | .longInteger => ∃ q, st.body = .select q ∧ q.window.IsLong

end Statement

namespace Part

theorem mem_embedded {before after : String} {query : Option StatementId} :
    .statement r ∈ embedded before query after ↔ query = some r := by
  cases query <;> simp [embedded, text, eq_comm]

theorem mem_clause {keyword separator : String} {items : List (List Part)} :
    .statement r ∈ clause keyword separator items ↔ ∃ item ∈ items, .statement r ∈ item := by
  rw [← mem_bindingsOf, bindings_clause, List.mem_flatMap]
  simp only [mem_bindingsOf]

theorem mem_clause_map {α : Type} {f : α → List Part} {query? : α → Option StatementId}
    (h : ∀ a, .statement r ∈ f a ↔ query? a = some r) {keyword separator : String} {items : List α} :
    .statement r ∈ clause keyword separator (items.map f) ↔ r ∈ items.filterMap query? := by
  simp [mem_clause, h]

end Part

theorem Source.mem_parts {s : Source} : .statement r ∈ s.parts ↔ s.query? = some r := by
  cases s with
  | table name asName => simp [parts, query?, Part.text]
  | query id asName => exact Part.mem_embedded

theorem mem_sourcesClause {keyword : String} {sources : List Source} :
    .statement r ∈ Part.clause keyword ", " (sources.map Source.parts) ↔
      r ∈ sources.filterMap Source.query? :=
  Part.mem_clause_map fun _ => Source.mem_parts

theorem Join.mem_parts {j : Join} : .statement r ∈ j.parts ↔ j.source.query? = some r := by
  simp [parts, Part.text, Part.bound, Source.mem_parts]

theorem mem_joinParts {joins : List Join} :
    .statement r ∈ joins.flatMap Join.parts ↔ r ∈ joins.filterMap (·.source.query?) := by
  simp [Join.mem_parts]

theorem Predicate.mem_parts {p : Predicate} : .statement r ∈ p.parts ↔ p.query? = some r := by
  cases p with
  | text t values => simp [parts, query?, Part.bound]
  | query before id after => exact Part.mem_embedded

theorem Conditions.mem_clause {keyword : String} {cs : Conditions} :
    .statement r ∈ clause keyword cs ↔ r ∈ cs.filterMap (·.predicate.query?) := by
  rw [← mem_bindingsOf, bindings_clause, List.mem_flatMap, List.mem_filterMap]
  simp only [mem_bindingsOf, Predicate.mem_parts]

theorem AssignedValue.mem_parts {v : AssignedValue} : .statement r ∈ v.parts ↔ v.query? = some r := by
  cases v with
  | expression t values => simp [parts, query?, Part.bound]
  | query id => exact Part.mem_embedded

theorem SetItem.mem_parts {i : SetItem} : .statement r ∈ i.parts ↔ i.query? = some r := by
  cases i with
  | assignment a => simp [parts, query?, Assignment.parts, Part.text, AssignedValue.mem_parts]
  | raw t values => simp [parts, query?, Part.bound]

theorem CommonTable.mem_clause {ts : List CommonTable} :
    .statement r ∈ clause ts ↔ r ∈ ts.filterMap (·.query) := by
  cases ts with
  | nil => simp [clause]
  | cons t ts =>
    have h : .statement r ∈ Part.clause (keyword (t :: ts)) ",\n" ((t :: ts).map parts) ↔
        r ∈ (t :: ts).filterMap (·.query) := Part.mem_clause_map fun _ => Part.mem_embedded
    rw [clause, List.isEmpty_cons, if_neg Bool.false_ne_true, List.mem_append, h]
    simp [Part.text]

theorem Projection.mem_parts {p : Projection} :
    .statement r ∈ p.parts ↔ r ∈ p.columns.filterMap Column.query? := by
  rw [← mem_bindingsOf, bindings_parts]
  simp

theorem Query.mem_rowParts {q : Query} : .statement r ∈ q.rowParts ↔ r ∈ q.rowQueries := by
  have hgrouping : .statement r ∉ q.grouping.clause := by
    cases q.grouping with
    | groups exprs => simp [Grouping.clause, Part.mem_clause, Part.text]
    | all => simp [Grouping.clause, Part.text]
  have hunions : .statement r ∈ q.unions.flatMap UnionBranch.parts ↔
      r ∈ q.unions.filterMap (·.query) := by
    simp [UnionBranch.parts, Part.mem_embedded]
  simp only [rowParts, rowQueries, List.mem_append, mem_sourcesClause, mem_joinParts,
    Conditions.mem_clause, hgrouping, or_false, hunions]

theorem Query.mem_parts {q : Query} {d : Dialect} :
    .statement r ∈ q.parts d ↔ r ∈ q.columnQueries ∨ r ∈ q.rowQueries := by
  have hordering : .statement r ∉ orderingClause q.ordering := by
    simp [orderingClause, Part.mem_clause, Part.text]
  have hwindow : .statement r ∉ q.window.clause d := by
    rw [← mem_bindingsOf, bindings_window]
    exact List.not_mem_nil
  simp only [parts_eq, List.mem_append, Projection.mem_parts, mem_rowParts, hordering, hwindow, or_false,
    columnQueries]

theorem Insertion.mem_parts {i : Insertion} {d : Dialect} :
    .statement r ∈ i.parts d ↔ r ∈ i.assignments.filterMap (·.value.query?) := by
  rw [← mem_bindingsOf, bindings_parts, List.mem_flatMap, List.mem_filterMap]
  simp only [Assignment.bindings, mem_bindingsOf, AssignedValue.mem_parts]

theorem Update.mem_parts {u : Update} {d : Dialect} {ps : List Part} (h : u.parts d = .ok ps) :
    .statement r ∈ ps ↔ r ∈ (Body.update u).queries := by
  have htargets : .statement r ∉ Part.clause "UPDATE " ", " (u.targets.map Target.parts) := by
    simp [Part.mem_clause, Target.parts, Part.text]
  have hitems : .statement r ∈ Part.clause " SET " ", " (u.items.map SetItem.parts) ↔
      r ∈ u.items.filterMap SetItem.query? := Part.mem_clause_map fun _ => SetItem.mem_parts
  unfold parts at h
  split at h
  · cases h
    simp only [Body.queries, List.mem_append, htargets, hitems, mem_sourcesClause, mem_joinParts,
      Conditions.mem_clause, false_or]
    tauto
  · split at h
    · cases h
    · cases h
      simp only [Body.queries, List.mem_append, htargets, hitems, mem_sourcesClause, mem_joinParts,
        Conditions.mem_clause, false_or]

namespace Statement
variable {st : Statement} {ps : List Part}

theorem mem_parts (h : st.parts = .ok ps) : .statement r ∈ ps ↔ r ∈ st.queries := by
  obtain ⟨d, ts, body⟩ := st
  obtain ⟨own, hown, ⟨⟩⟩ := bind_eq_ok.1 h
  have hbody : .statement r ∈ own ↔ r ∈ body.queries := by
    cases body with
    | select q =>
      cases hown
      rw [Query.mem_parts, Body.queries, List.mem_append]
    | insert i =>
      cases hown
      exact Insertion.mem_parts
    | update u => exact Update.mem_parts hown
    | delete x =>
      cases hown
      simp [Deletion.parts, Body.queries, Part.mem_clause, Target.parts, Part.text,
        Conditions.mem_clause]
  rw [List.mem_append, CommonTable.mem_clause, hbody, queries, List.mem_append]

theorem mem_countParts (h : st.countParts = .ok ps) :
    .statement r ∈ ps ↔ r ∈ st.countedQueries := by
  obtain ⟨d, ts, body⟩ := st
  cases body with
  | select q =>
    cases h
    simp [countedQueries, Query.countParts_eq, CommonTable.mem_clause, Query.mem_rowParts, Part.text]
  | insert | update | delete => cases h

theorem parts_of_lacksFrom (h : st.LacksFrom) :
    st.parts = .error (.joinsWithoutFrom st.dialect.name) := by
  obtain ⟨d, ts, body⟩ := st
  obtain ⟨u, hu, hstyle, hjoins, hsources⟩ := h
  cases hu
  have hstyle : d.family.updateStyle = .fromClause := hstyle
  simp [parts, Body.parts, Update.parts, hstyle, hjoins, hsources, bind, Except.bind]

theorem parts_of_not_lacksFrom (h : ¬ st.LacksFrom) : ∃ ps, st.parts = .ok ps := by
  obtain ⟨d, ts, body⟩ := st
  cases body with
  | select | insert | delete => exact ⟨_, rfl⟩
  | update u =>
    cases hstyle : d.family.updateStyle with
    | joinedTargets => simp [parts, Body.parts, Update.parts, hstyle, bind, Except.bind, pure, Except.pure]
    | fromClause =>
      have hjoined : (u.sources.isEmpty && !u.joins.isEmpty) = false := by
        by_contra hblocked
        simp only [Bool.not_eq_false, Bool.and_eq_true, List.isEmpty_iff, Bool.not_eq_true',
          List.isEmpty_eq_false_iff] at hblocked
        exact h ⟨u, rfl, hstyle, hblocked.2, hblocked.1⟩
      simp [parts, Body.parts, Update.parts, hstyle, hjoined, bind, Except.bind, pure, Except.pure]

theorem isWritable_eq_false_iff : st.isWritable = false ↔ st.Meets .longInteger := by
  unfold isWritable Meets
  cases st.body with
  | select q => simp [Window.isWritable_eq_false_iff]
  | insert | update | delete => simp

end Statement

/-- What stops the reading of parts is what stopped the first of their statements that could not be
read. -/
theorem expandParts_eq_error {expand : StatementId → Except Fault (List Chunk)} {ps : List Part}
    {f : Fault} (h : expandParts expand ps = .error f) :
    ∃ id, .statement id ∈ ps ∧ expand id = .error f := by
  induction ps with
  | nil => cases h
  | cons p ps ih =>
    cases hrest : expandParts expand ps with
    | error g =>
      cases p with
      | chunk c =>
        rw [expandParts, hrest] at h
        cases h
        obtain ⟨id, hid, herror⟩ := ih hrest
        exact ⟨id, List.mem_cons_of_mem _ hid, herror⟩
      | statement id =>
        cases hinner : expand id with
        | error g' =>
          rw [expandParts, hinner] at h
          cases h
          exact ⟨id, List.mem_cons_self, hinner⟩
        | ok inner =>
          rw [expandParts, hinner, hrest] at h
          cases h
          obtain ⟨id', hid, herror⟩ := ih hrest
          exact ⟨id', List.mem_cons_of_mem _ hid, herror⟩
    | ok rest =>
      cases p with
      | chunk c =>
        rw [expandParts, hrest] at h
        cases h
      | statement id =>
        cases hinner : expand id with
        | error g =>
          rw [expandParts, hinner] at h
          cases h
          exact ⟨id, List.mem_cons_self, hinner⟩
        | ok inner =>
          rw [expandParts, hinner, hrest] at h
          cases h

namespace Store
variable {s : Store} {id : StatementId} {st : Statement}

def Holds (s : Store) (outer inner : StatementId) : Prop :=
  ∃ st, s.get? outer = some st ∧ inner ∈ st.queries

/-- Whatever the statement holds at any depth is there, and none of it holds itself. -/
structure Acyclic (s : Store) (id : StatementId) : Prop where
  found : ∀ j r, ReflTransGen s.Holds id j → s.Holds j r → r < s.size
  noCircle : ∀ j, ReflTransGen s.Holds id j → ¬ TransGen s.Holds j j

theorem Acyclic.inner (h : s.Acyclic id) (hr : s.Holds id r) : s.Acyclic r :=
  ⟨fun j k hj => h.found j k (.head hr hj), fun j hj => h.noCircle j (.head hr hj)⟩

/-- What stops the read of the statement, or of one that it holds at some depth. -/
def Meets (s : Store) (id : StatementId) (o : Obstacle) : Prop :=
  ∃ r st, ReflTransGen s.Holds id r ∧ s.get? r = some st ∧ st.Meets o

/-- A read that obstacles stop: it is refused for one of them, and answered if there are none. -/
def ReadUnless {α : Type} (P : Obstacle → Prop) (x : Except Fault α) : Prop :=
  (∃ a, x = .ok a ∧ ∀ o, ¬ P o) ∨ ∃ o, P o ∧ x = .error (.ofObstacle o)

theorem readUnless_expandParts {expand : StatementId → Except Fault (List Chunk)} {ps : List Part}
    {P : StatementId → Obstacle → Prop}
    (h : ∀ r, .statement r ∈ ps → ReadUnless (P r) (expand r)) :
    ReadUnless (fun o => ∃ r, .statement r ∈ ps ∧ P r o) (expandParts expand ps) := by
  cases hread : expandParts expand ps with
  | ok cs =>
    refine .inl ⟨cs, rfl, ?_⟩
    rintro o ⟨r, hr, ho⟩
    obtain ⟨inner, hinner⟩ := expandParts_eq_ok_mem hread hr
    rcases h r hr with ⟨_, _, hnone⟩ | ⟨_, _, herror⟩
    · exact hnone o ho
    · rw [hinner] at herror
      cases herror
  | error f =>
    obtain ⟨r, hr, hf⟩ := expandParts_eq_error hread
    rcases h r hr with ⟨inner, hinner, -⟩ | ⟨o, ho, herror⟩
    · rw [hf] at hinner
      cases hinner
    · rw [hf] at herror
      cases herror
      exact .inr ⟨o, ⟨r, hr, ho⟩, rfl⟩

theorem ReadUnless.iff {α : Type} {P Q : Obstacle → Prop} {x : Except Fault α}
    (h : ReadUnless P x) (hPQ : ∀ o, P o ↔ Q o) : ReadUnless Q x := by
  rcases h with ⟨a, ha, hnone⟩ | ⟨o, ho, herror⟩
  · exact .inl ⟨a, ha, fun o hQ => hnone o ((hPQ o).2 hQ)⟩
  · exact .inr ⟨o, (hPQ o).1 ho, herror⟩

theorem ReadUnless.whenWritable {α : Type} {P : Obstacle → Prop} {x : Except Fault α}
    (h : ReadUnless P x) (hlacks : ¬ st.LacksFrom) :
    ReadUnless (fun o => st.Meets o ∨ P o) (x >>= st.whenWritable) := by
  rcases h with ⟨a, rfl, hnone⟩ | ⟨o, ho, rfl⟩
  · cases hw : st.isWritable with
    | true =>
      refine .inl ⟨a, Statement.whenWritable_eq_ok.2 ⟨hw, rfl⟩, fun o => not_or.2 ⟨fun ho => ?_, hnone o⟩⟩
      cases o with
      | joinsWithoutFrom dialect => exact hlacks ho.1
      | longInteger => exact absurd ((Statement.isWritable_eq_false_iff.2 ho).symm.trans hw) nofun
    | false =>
      refine .inr ⟨.longInteger, .inl (Statement.isWritable_eq_false_iff.1 hw), ?_⟩
      exact if_neg (Bool.eq_false_iff.1 hw)
  · exact .inr ⟨o, .inr ho, rfl⟩

theorem meets_iff (hst : s.get? id = some st) (o : Obstacle) :
    s.Meets id o ↔ st.Meets o ∨ ∃ r ∈ st.queries, s.Meets r o := by
  constructor
  · rintro ⟨j, st', hj, hst', ho⟩
    rcases ReflTransGen.cases_head hj with rfl | ⟨r, ⟨st₁, hst₁, hr⟩, hj⟩
    · cases hst.symm.trans hst'
      exact .inl ho
    · cases hst.symm.trans hst₁
      exact .inr ⟨r, hr, j, st', hj, hst', ho⟩
  · rintro (ho | ⟨r, hr, j, st', hj, hst', ho⟩)
    · exact ⟨id, st, .refl, hst, ho⟩
    · exact ⟨j, st', .head ⟨st, hst, hr⟩ hj, hst', ho⟩

theorem Acyclic.lt_size (h : s.Acyclic id) {j : StatementId} (hid : id < s.size)
    (hj : ReflTransGen s.Holds id j) : j < s.size := by
  cases hj with
  | refl => exact hid
  | tail hj hstep => exact h.found _ _ hj hstep

/-- What a statement holds does not meet the statement again, so a chain is no longer than there are
statements. -/
theorem Acyclic.induction_size {P : StatementId → Nat → Prop}
    (step : ∀ id n, s.Acyclic id → id < s.size → (∀ r, s.Holds id r → P r n) → P id (n + 1))
    (h : s.Acyclic id) (hid : id < s.size) : P id s.size := by
  have hcard (n : Nat) : ∀ (id : StatementId) (met : Finset StatementId), s.Acyclic id → id < s.size →
      (∀ j, ReflTransGen s.Holds id j → j ∈ met) → met.card = n → P id n := by
    induction n with
    | zero =>
      intro id met _ _ hmet hn
      have hempty := Finset.card_eq_zero.1 hn
      exact absurd (hmet id .refl) (hempty ▸ Finset.notMem_empty id)
    | succ n ih =>
      intro id met h hid hmet hn
      refine step id n h hid fun r hr => ?_
      refine ih r (met.erase id) (h.inner hr) (h.found id r .refl hr) (fun j hj => ?_) ?_
      · refine Finset.mem_erase.2 ⟨?_, hmet j (.head hr hj)⟩
        rintro rfl
        exact h.noCircle _ .refl (TransGen.head' hr hj)
      · rw [Finset.card_erase_of_mem (hmet id .refl), hn, Nat.add_sub_cancel]
  refine hcard s.size id (Finset.range s.size) h hid (fun j hj => ?_) (Finset.card_range _)
  exact Finset.mem_range.2 (h.lt_size hid hj)

theorem Acyclic.readUnless_chunks (h : s.Acyclic id) (hid : id < s.size) :
    ReadUnless (s.Meets id) (s.chunks id) := by
  refine h.induction_size (P := fun r n => ReadUnless (s.Meets r) (s.expandAt n r)) ?_ hid
  intro id n _ hid hinner
  obtain ⟨st, hst⟩ := Option.isSome_iff_exists.1 ((s.isSome_get? id).2 hid)
  by_cases hlacks : st.LacksFrom
  · refine .inr ⟨.joinsWithoutFrom st.dialect.name, ⟨id, st, .refl, hst, hlacks, rfl⟩, ?_⟩
    rw [expandAt, find_eq_ok.2 hst]
    simp [bind, Except.bind, Statement.parts_of_lacksFrom hlacks, Fault.ofObstacle]
  · obtain ⟨ps, hps⟩ := Statement.parts_of_not_lacksFrom hlacks
    have hread : s.expandAt (n + 1) id = expandParts (s.expandAt n) ps >>= st.whenWritable := by
      rw [expandAt, find_eq_ok.2 hst]
      simp only [bind, Except.bind, hps]
    have hparts (r : StatementId) (hr : .statement r ∈ ps) : ReadUnless (s.Meets r) (s.expandAt n r) :=
      hinner r ⟨st, hst, (Statement.mem_parts hps).1 hr⟩
    rw [hread]
    refine ((readUnless_expandParts hparts).whenWritable hlacks).iff fun o => ?_
    simp only [meets_iff hst, Statement.mem_parts hps]

theorem Acyclic.readUnless_countChunks (h : s.Acyclic id) (hst : s.get? id = some st) {q : Query}
    (hq : st.body = .select q) :
    ReadUnless (fun o => ∃ r ∈ st.countedQueries, s.Meets r o) (s.countChunks id) := by
  obtain ⟨ps, hps⟩ : ∃ ps, st.countParts = .ok ps := by
    rw [Statement.countParts, hq]
    exact ⟨_, rfl⟩
  have hread : s.countChunks id = expandParts (s.expandAt s.size) ps := by
    rw [countChunks, find_eq_ok.2 hst]
    simp [bind, Except.bind, hps, expand]
  have hcounted (r : StatementId) (hr : r ∈ st.countedQueries) : r ∈ st.queries := by
    rw [Statement.countedQueries, hq, List.mem_append] at hr
    rw [Statement.queries, hq, Body.queries, List.mem_append, List.mem_append]
    exact hr.imp (fun h => h) .inr
  rw [hread]
  have hinner (r : StatementId) (hr : .statement r ∈ ps) :
      ReadUnless (s.Meets r) (s.expandAt s.size r) := by
    have hheld : s.Holds id r := ⟨st, hst, hcounted r ((Statement.mem_countParts hps).1 hr)⟩
    exact (h.inner hheld).readUnless_chunks (h.found id r .refl hheld)
  refine (readUnless_expandParts hinner).iff fun o => ?_
  simp only [Statement.mem_countParts hps]

/-- Text, values and both at once: all of them are answered, or all are refused for one obstacle. A table
that is missing is blamed on the argument that names tables, a long number on none. -/
structure ReadTogether (P : Obstacle → Prop) (sql : Except Fault String)
    (values : Except Fault Parameters) (compiled : Except Fault Compiled) : Prop where
  answered : (¬ ∃ o, P o) →
    ∃ c, sql = .ok c.sql ∧ values = .ok c.parameters ∧ compiled = .ok c
  refused : (∃ o, P o) →
    ∃ f, sql = .error f ∧ values = .error f ∧ compiled = .error f ∧
      ((f.argument? = some "table" ∧ ∃ d, P (.joinsWithoutFrom d) ∧ f = .joinsWithoutFrom d) ∨
        (f = .longInteger ∧ P .longInteger))

theorem ReadUnless.together {P : Obstacle → Prop} {read : Except Fault (List Chunk)}
    (h : ReadUnless P read) (dialect : String) :
    ReadTogether P (read.map chunksSql) (read.map chunksParameters) (read.map (compile dialect)) := by
  rcases h with ⟨cs, rfl, hnone⟩ | ⟨o, ho, rfl⟩
  · exact ⟨fun _ => ⟨compile dialect cs, rfl, rfl, rfl⟩, fun ⟨o, ho⟩ => absurd ho (hnone o)⟩
  · refine ⟨fun h => absurd ⟨o, ho⟩ h, fun _ => ⟨.ofObstacle o, rfl, rfl, rfl, ?_⟩⟩
    cases o with
    | joinsWithoutFrom d => exact .inl ⟨rfl, d, ho, rfl⟩
    | longInteger => exact .inr ⟨rfl, ho⟩

/-- Of a statement that holds no circle, a read fails for an UPDATE with joins and no source or for a
number that is too long, and for nothing else; and so does the count of a query, but not for what it
passes over. -/
theorem read_fails_for_obstacle (h : s.Acyclic id) (hst : s.get? id = some st) :
    ReadTogether (s.Meets id) (s.sql id) (s.parameters id) (s.build id) ∧
      ∀ q, st.body = .select q →
        ReadTogether (fun o => ∃ r ∈ st.countedQueries, s.Meets r o)
          (s.countSql id) (s.countParameters id) (s.buildCount id) := by
  have hid : id < s.size := (s.isSome_get? id).1 (by rw [hst, Option.isSome_some])
  have hbuild : s.build id = (s.chunks id).map (compile st.dialect.name) := by
    rw [build, find_eq_ok.2 hst]
    rfl
  have hbuildCount : s.buildCount id = (s.countChunks id).map (compile st.dialect.name) := by
    rw [buildCount, find_eq_ok.2 hst]
    rfl
  constructor
  · rw [hbuild]
    exact (h.readUnless_chunks hid).together _
  · intro q hq
    rw [hbuildCount]
    exact (h.readUnless_countChunks hst hq).together _

theorem acyclic_of_rank (rank : StatementId → Nat)
    (h : ∀ id < s.size, ∀ r ∈ ((s.get? id).map Statement.queries).getD [],
      r < s.size ∧ rank r < rank id) (id : StatementId) : s.Acyclic id := by
  have hstep (id r : StatementId) (hr : s.Holds id r) : r < s.size ∧ rank r < rank id := by
    obtain ⟨st, hst, hr⟩ := hr
    refine h id ((s.isSome_get? id).1 (by rw [hst, Option.isSome_some])) r ?_
    rwa [hst, Option.map_some, Option.getD_some]
  refine ⟨fun j r _ hr => (hstep j r hr).1, fun k _ hcircle => ?_⟩
  have hdown (j : StatementId) (hj : TransGen s.Holds k j) : rank j < rank k := by
    induction hj with
    | single hr => exact (hstep _ _ hr).2
    | tail _ hr ih => exact (hstep _ _ hr).2.trans ih
  exact Nat.lt_irrefl _ (hdown k hcircle)

theorem read_fails_for_nested_update :
    let s := run [
      .create (.update none (.text "u") .null),
      .edit 0 (.join (.natural (.choice .inner) (.text "w"))),
      .create (.select none (.text "v") .null),
      .edit 1 (.filter (.memberOf false (.text "m") (some 0) (.choice .and))),
      .create (.select none (.text "t") .null),
      .edit 2 (.column (.query (some 1) (.text "c")))]
    ∃ st q, s.Acyclic 2 ∧ s.get? 2 = some st ∧ st.body = .select q ∧
      ReadTogether (s.Meets 2) (s.sql 2) (s.parameters 2) (s.build 2) ∧
      ReadTogether (fun o => ∃ r ∈ st.countedQueries, s.Meets r o)
          (s.countSql 2) (s.countParameters 2) (s.buildCount 2) ∧
      (s.sql 2).toOption = none ∧ (s.countSql 2).toOption = some "SELECT count(1) AS cnt FROM t" := by
  intro s
  have hacyclic : s.Acyclic 2 := acyclic_of_rank (fun id => id) (by decide +kernel) 2
  have hst : s.get? 2 = some ⟨.standard, [], .select { Query.empty with
    projection := ⟨false, [.query (some 1) "c"]⟩, sources := [.table "t" none] }⟩ := rfl
  obtain ⟨hread, hcount⟩ := read_fails_for_obstacle hacyclic hst
  exact ⟨_, _, hacyclic, hst, rfl, hread, hcount _ rfl, by decide +kernel, by decide +kernel⟩

theorem run_page (n size : Nat) (hsize : 0 < size) :
    run [.create (.select none (.text "t") .null),
        .edit 0 (.window (.pageFromZero (.int n) (.int size)))] =
      ⟨[⟨.standard, [], .select { Query.empty with
        sources := [.table "t" none], window := ⟨some size, n * size⟩ }⟩]⟩ := by
  have hpage : WindowEdit.setPage .all 0 (.int n) (.int size) = .made ⟨some size, n * size⟩ := by
    rw [WindowEdit.setPage_int .all rfl, if_pos (Int.natCast_pos.2 hsize), Int.sub_zero,
      Int.toNat_natCast, Int.toNat_natCast]
  let st : Statement := ⟨.standard, [], .select { Query.empty with sources := [.table "t" none] }⟩
  have hst : (⟨[st]⟩ : Store).get? 0 = some st := rfl
  have hrun (e : WindowEdit) : run [.create (.select none (.text "t") .null), .edit 0 (.window e)] =
      ((⟨[st]⟩ : Store).edit 0 (.window e)).state := rfl
  rw [hrun, edit_eq_of_get? hst, Statement.edit_window rfl, WindowEdit.apply]
  rw [show Query.window _ = Window.all from rfl, hpage]
  rfl

/-- Both numbers of the page can be written, but not the number of the rows before it. No update lacks
a source, and the query is not read. -/
theorem read_fails_for_long_offset :
    let s := run [.create (.select none (.text "t") .null),
      .edit 0 (.window (.pageFromZero (.int Text.Numeral.wide) (.int Text.Numeral.wide)))]
    s.Acyclic 0 ∧ (∀ d, ¬ s.Meets 0 (.joinsWithoutFrom d)) ∧ s.sql 0 = .error .longInteger ∧
      s.parameters 0 = .error .longInteger ∧ s.build 0 = .error .longInteger := by
  have hpos := Text.Numeral.wide_pos
  have hlong := Text.Numeral.isWritable_wide_mul_wide
  generalize Text.Numeral.wide = n at hpos hlong
  intro s
  have hs : s = ⟨[⟨.standard, [], .select { Query.empty with
      sources := [.table "t" none], window := ⟨some n, n * n⟩ }⟩]⟩ := run_page n n hpos
  have hget : s.get? 0 = some ⟨.standard, [], .select { Query.empty with
      sources := [.table "t" none], window := ⟨some n, n * n⟩ }⟩ := by
    rw [hs]
    rfl
  have hacyclic : s.Acyclic 0 := by
    refine acyclic_of_rank (fun id => id) (fun id hid r hr => ?_) 0
    rw [hs] at hid hr
    obtain rfl : id = 0 := Nat.lt_one_iff.1 hid
    cases hr
  have hupdate (d : String) : ¬ s.Meets 0 (.joinsWithoutFrom d) := by
    rw [meets_iff hget]
    rintro (⟨⟨u, hu, -⟩, -⟩ | ⟨r, hr, -⟩)
    · cases hu
    · cases hr
  have hmeets : s.Meets 0 .longInteger :=
    ⟨0, _, .refl, hget, _, rfl, Window.isWritable_eq_false_iff.1 (by
      rw [Window.isWritable, hlong, Bool.and_false])⟩
  obtain ⟨f, hsql, hvalues, hbuild, ⟨-, d, hd, -⟩ | ⟨rfl, -⟩⟩ :=
    (read_fails_for_obstacle hacyclic hget).1.refused ⟨_, hmeets⟩
  · exact absurd hd (hupdate d)
  · exact ⟨hacyclic, hupdate, hsql, hvalues, hbuild⟩

end Store
end SqlComposer
