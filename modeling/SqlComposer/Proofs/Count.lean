import SqlComposer.Proofs.Binding
import SqlComposer.Proofs.Ensures
import SqlComposer.Proofs.Independence
import SqlComposer.Proofs.Program
import SqlComposer.Proofs.Reference

/-! Counting the rows of a query. The count is read of WITH and of the clauses from FROM to the unions,
the same texts and values that the query itself is read of. So the column list, the order and the window
have no part in it, and it binds what the query binds but for the values of the column list. -/

namespace SqlComposer
open Relation

def ClauseName.counted : ClauseName → Bool
  | columns | ordering | window => false
  | _ => true

def Edit.counted (e : Edit) : Bool := e.clause.counted

def Column.query? : Column → Option StatementId
  | expression _ => none
  | query id _ => id

theorem Projection.bindings_parts (p : Projection) :
    bindingsOf p.parts = (p.columns.filterMap Column.query?).map .statement := by
  have hcolumns (cs : List Column) : cs.flatMap (fun c => bindingsOf c.parts) =
      (cs.filterMap Column.query?).map .statement := by
    induction cs with
    | nil => rfl
    | cons c cs ih =>
      rw [List.flatMap_cons, ih, List.filterMap_cons]
      cases c with
      | expression t => rfl
      | query id asName => cases id <;> rfl
  rw [parts, bindingsOf_cons, Part.bindings_text, List.nil_append]
  split
  · next hempty =>
    rw [List.isEmpty_iff.1 hempty]
    rfl
  · rw [Part.bindings_separated, List.flatMap_map, hcolumns]

namespace Query
variable {q r : Query}

theorem rowParts_congr (h : ∀ k, k.counted → q.Agree k r) :
    q.rowParts = r.rowParts := by
  have hsources : q.sources = r.sources := h .sources rfl
  have hjoins : q.joins = r.joins := h .joins rfl
  have hconditions : q.conditions = r.conditions := h .conditions rfl
  have hgrouping : q.grouping = r.grouping := h .grouping rfl
  have hhaving : q.having = r.having := h .having rfl
  have hunions : q.unions = r.unions := h .unions rfl
  rw [rowParts, hsources, hjoins, hconditions, hgrouping, hhaving, hunions]
  rfl

end Query

namespace Statement
variable {st st' : Statement}

theorem countParts_congr (h : ∀ k, k.counted → st.Agree k st') :
    st.countParts = st'.countParts := by
  obtain ⟨-, htables, hbody⟩ := h .commonTables rfl
  cases st with
  | mk d ts body =>
    cases st' with
    | mk d' ts' body' =>
      have htables : ts = ts' := htables rfl
      subst htables
      cases hbody with
      | @select q r _ =>
        have hagree (k : ClauseName) (hk : k.counted) : q.Agree k r := by
          obtain ⟨-, -, hk⟩ := h k hk
          cases hk
          assumption
        have hrows := Query.rowParts_congr hagree
        simp only [countParts, Query.countParts_eq, hrows]
      | insert | update | delete => rfl

theorem countParts_editAll (st : Statement) {es fs : List Edit}
    (h : es.filter Edit.counted = fs.filter Edit.counted) :
    (st.editAll es).countParts = (st.editAll fs).countParts := by
  refine countParts_congr fun k hk => (st.editAll_agree ?_).1
  have hcounted (es : List Edit) : editsOf k (es.filter Edit.counted) = editsOf k es := by
    rw [editsOf, editsOf, List.filter_filter]
    refine List.filter_congr fun e _ => ?_
    by_cases he : e.clause = k
    · subst he
      simpa [Edit.counted] using hk
    · simp [he]
  rw [← hcounted es, h, hcounted]

theorem parts_of_countParts {ps : List Part} (h : st.countParts = .ok ps) :
    ∃ qs, st.parts = .ok qs ∧ ∀ r, .statement r ∈ ps → .statement r ∈ qs := by
  obtain ⟨d, ts, body⟩ := st
  cases body with
  | select q =>
    cases h
    refine ⟨_, rfl, fun r hr => ?_⟩
    simp only [Query.countParts_eq, List.mem_append, List.mem_cons] at hr
    simp only [Query.parts_eq, List.mem_append]
    rcases hr with htables | htext | hrows
    · exact .inl htables
    · cases htext
    · exact .inr (.inl (.inl (.inr hrows)))
  | insert | update | delete => cases h

end Statement

namespace Store
variable {s t : Store} {id : StatementId} {st : Statement}

theorem values_expand (s : Store) (ps : List Part) :
    (s.expand ps).map (·.flatMap Chunk.values) =
      readBindings (fun r => (s.parameters r).map Parameters.values) (bindingsOf ps) := by
  have hvalues : (fun r => (s.expandAt s.size r).map (·.flatMap Chunk.values)) =
      fun r => (s.parameters r).map Parameters.values := by
    funext r
    rw [parameters, chunks]
    cases s.expandAt s.size r with
    | ok cs => exact congrArg Except.ok (chunksParameters_values cs).symm
    | error f => rfl
  rw [expand, values_expandParts, hvalues]

theorem readBindings_statements (g : StatementId → Except Fault Parameters) (ids : List StatementId) :
    readBindings (fun r => (g r).map Parameters.values) (ids.map .statement) =
      (ids.mapM g).map (·.flatMap Parameters.values) := by
  induction ids with
  | nil => rfl
  | cons id ids ih =>
    rw [List.map_cons, readBindings, ih, List.mapM_cons]
    cases g id with
    | error f => rfl
    | ok p => cases ids.mapM g <;> rfl

theorem countChunks_editAll {es fs : List Edit} (hs : s.get? id = some (st.editAll es))
    (ht : t.get? id = some (st.editAll fs)) (hothers : ∀ j, j ≠ id → t.get? j = s.get? j)
    (hid : ¬ TransGen s.Embeds id id) (h : es.filter Edit.counted = fs.filter Edit.counted) :
    t.countChunks id = s.countChunks id := by
  have hsize : t.size = s.size := by
    refine size_eq_of_isSome fun j => ?_
    by_cases hj : j = id
    · rw [hj, hs, ht]
      rfl
    · rw [hothers j hj]
  have hparts := st.countParts_editAll h
  rw [countChunks, countChunks, find_eq_ok.2 hs, find_eq_ok.2 ht]
  simp only [bind, Except.bind, ← hparts]
  cases hps : (st.editAll es).countParts with
  | error f => rfl
  | ok ps =>
    simp only [expand, hsize]
    obtain ⟨qs, hqs, hrefs⟩ := Statement.parts_of_countParts hps
    refine expandParts_congr fun r hr => expandAt_congr (fun j hj => congrArg _ (hothers j ?_)) _
    -- Below the query the query itself is not met again.
    rintro rfl
    exact hid (TransGen.head' ⟨_, qs, hs, hqs, hrefs r hr⟩ hj)

/-- The query and its count are made of the same pieces: those of WITH and those from FROM to the
unions. The column list, which the count leaves out, binds the values of its queries in their order;
order and window bind none. -/
def CountsRows (s : Store) (id : StatementId) (st : Statement) (q : Query) : Prop :=
  ∃ tables columns rows rest : List Chunk, ∃ queries : List Parameters,
    s.expand (CommonTable.clause st.commonTables) = .ok tables ∧
    s.expand q.projection.parts = .ok columns ∧
    s.expand q.rowParts = .ok rows ∧
    s.expand (orderingClause q.ordering ++ q.window.clause st.dialect) = .ok rest ∧
    s.sql id = .ok (chunksSql tables ++ chunksSql columns ++ chunksSql rows ++ chunksSql rest) ∧
    s.parameters id = .ok ⟨(chunksParameters tables).values ++ (chunksParameters columns).values
      ++ (chunksParameters rows).values⟩ ∧
    s.countSql id = .ok (chunksSql tables ++ "SELECT count(1) AS cnt" ++ chunksSql rows) ∧
    s.countParameters id =
      .ok ⟨(chunksParameters tables).values ++ (chunksParameters rows).values⟩ ∧
    (q.projection.columns.filterMap Column.query?).mapM s.parameters = .ok queries ∧
    (chunksParameters columns).values = queries.flatMap Parameters.values

theorem countsRows_of_sql {q : Query} {text : String} (hst : s.get? id = some st)
    (hq : st.body = .select q) (h : s.sql id = .ok text) : s.CountsRows id st q := by
  obtain ⟨cs, hcs, -⟩ := map_eq_ok.1 h
  obtain ⟨st', ps, hst', hps, hread, -⟩ := chunks_eq_ok_of_parts hcs
  cases hst.symm.trans hst'
  have hparts : st.parts = .ok (CommonTable.clause st.commonTables ++
      (q.projection.parts ++ q.rowParts ++ (orderingClause q.ordering ++ q.window.clause st.dialect))) := by
    rw [Statement.parts, hq, ← List.append_assoc (q.projection.parts ++ q.rowParts), ← Query.parts_eq]
    rfl
  cases hps.symm.trans hparts
  obtain ⟨tables, body, htables, hbody, rfl⟩ := expandParts_append_eq_ok.1 hread
  obtain ⟨list, rest, hlist, hrest, rfl⟩ := expandParts_append_eq_ok.1 hbody
  obtain ⟨columns, rows, hcolumns, hrows, rfl⟩ := expandParts_append_eq_ok.1 hlist
  have hcount : s.countChunks id = .ok (tables ++ ⟨"SELECT count(1) AS cnt", []⟩ :: rows) := by
    have hcountParts : st.countParts = .ok (CommonTable.clause st.commonTables ++ q.countParts) := by
      rw [Statement.countParts, hq]
    rw [Query.countParts_eq] at hcountParts
    rw [countChunks, find_eq_ok.2 hst]
    refine bind_eq_ok.2 ⟨st, rfl, bind_eq_ok.2 ⟨_, hcountParts, ?_⟩⟩
    refine expandParts_append_eq_ok.2 ⟨tables, _, htables, ?_, rfl⟩
    exact bind_eq_ok.2 ⟨rows, hrows, rfl⟩
  have hnone : rest.flatMap Chunk.values = [] := by
    have hvalues := s.values_expand (orderingClause q.ordering ++ q.window.clause st.dialect)
    have hrest : s.expand (orderingClause q.ordering ++ q.window.clause st.dialect) = .ok rest := hrest
    rw [hrest, bindingsOf_append, bindings_orderingClause, bindings_window] at hvalues
    exact Except.ok.inj hvalues
  have hqueries := s.values_expand q.projection.parts
  have hcolumns : s.expand q.projection.parts = .ok columns := hcolumns
  rw [hcolumns, Projection.bindings_parts, readBindings_statements] at hqueries
  obtain ⟨queries, hmapM, hvalues⟩ := map_eq_ok.1 hqueries.symm
  refine ⟨tables, columns, rows, rest, queries, htables, hcolumns, hrows, hrest, ?_, ?_, ?_, ?_, hmapM,
    ?_⟩
  · refine map_eq_ok.2 ⟨_, hcs, ?_⟩
    simp only [chunksSql_append, String.append_assoc]
  · refine map_eq_ok.2 ⟨_, hcs, ?_⟩
    simp [chunksParameters_eq, hnone]
  · refine map_eq_ok.2 ⟨_, hcount, ?_⟩
    rw [chunksSql_append, chunksSql, String.append_assoc]
  · refine map_eq_ok.2 ⟨_, hcount, ?_⟩
    simp [chunksParameters_eq]
  · rw [chunksParameters_values, hvalues]

/-- The count of a query neither sees nor reads its column list, its order and its window, whether they
can be read or not; and it shares everything else with the query. -/
theorem count_of_rows (s : Store) (id : StatementId) :
    (∀ (t : Store) (st : Statement) (es fs : List Edit), s.get? id = some (st.editAll es) →
      t.get? id = some (st.editAll fs) → (∀ j, j ≠ id → t.get? j = s.get? j) →
      ¬ TransGen s.Embeds id id → es.filter Edit.counted = fs.filter Edit.counted →
      t.countSql id = s.countSql id ∧ t.countParameters id = s.countParameters id) ∧
    ∀ (st : Statement) (q : Query) (text : String), s.get? id = some st → st.body = .select q →
      s.sql id = .ok text → s.CountsRows id st q := by
  constructor
  · intro t st es fs hs ht hothers hid h
    have hcount := countChunks_editAll hs ht hothers hid h
    exact ⟨congrArg (Except.map chunksSql) hcount, congrArg (Except.map chunksParameters) hcount⟩
  · intro st q text hst hq h
    exact countsRows_of_sql hst hq h

theorem count_beside_unreadable_column :
    let tables : List Command := [
      .create (.select none (.text "t") .null),
      .create (.select none (.text "v") .null),
      .create (.update none (.text "u") .null),
      .edit 1 (.filter (.compare .eq (.text "m") (.int 7) (.choice .and))),
      .edit 2 (.join (.natural (.choice .inner) (.text "w")))]
    let es : List Edit := [
      .column (.query (some 1) (.text "c")),
      .filter (.compare .gt (.text "n") (.int 5) (.choice .and))]
    let fs : List Edit := [
      .window (.limit (.text "x")),
      .filter (.compare .gt (.text "n") (.int 5) (.choice .and)),
      .ordering (.columns true [.text "n"]),
      .column (.query (some 2) (.text "c"))]
    let s := run (tables ++ es.map (.edit 0))
    let t := run (tables ++ fs.map (.edit 0))
    let q : Query := { Query.empty with
      projection := ⟨false, [.query (some 1) "c"]⟩
      sources := [.table "t" none]
      conditions := [⟨.and, .text "n > ?" [.int 5]⟩] }
    (t.countSql 0 = s.countSql 0 ∧ t.countParameters 0 = s.countParameters 0) ∧
      s.CountsRows 0 ⟨.standard, [], .select q⟩ q ∧
      (s.countSql 0).toOption = some "SELECT count(1) AS cnt FROM t WHERE n > ?" ∧
      (t.sql 0).toOption = none := by
  intro tables es fs s t q
  have hs : s.get? 0 = some ⟨.standard, [], .select q⟩ := rfl
  have hcolumn : s.Resolves 1 :=
    resolves_of_references rfl (by decide +kernel : s.references 1 = []) (by simp)
  have hresolves : s.Resolves 0 := by
    refine resolves_of_references hs (by decide +kernel : s.references 0 = [1]) fun r hr => ?_
    exact List.mem_singleton.1 hr ▸ hcolumn
  have hothers (j : StatementId) (hj : j ≠ 0) : t.get? j = s.get? j := by
    match j with
    | 0 => exact absurd rfl hj
    | 1 => rfl
    | 2 => rfl
    | j + 3 => rfl
  have htext : s.sql 0 = .ok "SELECT (SELECT * FROM v WHERE m = ?) AS c FROM t WHERE n > ?" :=
    eq_ok_of_toOption (by decide +kernel)
  obtain ⟨hcount, hrows⟩ := count_of_rows s 0
  exact ⟨hcount t ⟨.standard, [], .select { Query.empty with sources := [.table "t" none] }⟩ es fs
      rfl rfl hothers hresolves.acyclic rfl, hrows _ q _ hs rfl htext, by decide +kernel,
    by decide +kernel⟩

end Store
end SqlComposer
