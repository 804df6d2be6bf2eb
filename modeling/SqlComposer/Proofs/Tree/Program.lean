import SqlComposer.Proofs.Renaming.Statement
import SqlComposer.Proofs.Tree.Copy

/-! Reading what programs leave. A statement holds nothing but what a call has put into it, so the
references of a program lead to its own statements. If none of them holds itself, each is read like the
tree that it stands for, whatever order the statements were made and put into each other in. -/

namespace SqlComposer
open Relation

def Edit.query? : Edit → Option StatementId
  | commonTable e => e.query
  | column (.query id _) => id
  | source (.query id _) => id
  | join (.query _ id _ _ _) => id
  | filter (.memberOf _ _ id _) => id
  | filter (.anyOf _ id _) => id
  | filter (.hasRows _ id _) => some id
  | union u => u.query
  | assignment (.query _ id) => id
  | _ => none

def Command.query? : Command → Option StatementId
  | create (.selectFrom _ id _) => some id
  | create _ => none
  | edit _ e => e.query?

section Fixed
variable {ρ : StatementId → StatementId}

theorem filterMap_rename {α : Type} {query? : α → Option StatementId} {rename : α → α}
    (h : ∀ a, query? (rename a) = (query? a).map ρ) (items : List α) :
    (items.map rename).filterMap query? = (items.filterMap query?).map ρ := by
  rw [List.filterMap_map, List.map_filterMap]
  exact congrArg (items.filterMap ·) (funext h)

theorem Source.query?_rename (s : Source) : (s.rename ρ).query? = s.query?.map ρ := by
  cases s <;> rfl

theorem Predicate.query?_rename (p : Predicate) : (p.rename ρ).query? = p.query?.map ρ := by
  cases p <;> rfl

theorem AssignedValue.query?_rename (v : AssignedValue) : (v.rename ρ).query? = v.query?.map ρ := by
  cases v <;> rfl

theorem SetItem.query?_rename (i : SetItem) : (i.rename ρ).query? = i.query?.map ρ := by
  cases i with
  | assignment a => exact a.value.query?_rename
  | raw t values => rfl

theorem Column.query?_rename (c : Column) : (c.rename ρ).query? = c.query?.map ρ := by
  cases c <;> rfl

theorem Statement.queries_rename (st : Statement) : (st.rename ρ).queries = st.queries.map ρ := by
  have hsources (ss : List Source) : (ss.map (Source.rename ρ)).filterMap Source.query? =
      (ss.filterMap Source.query?).map ρ := filterMap_rename Source.query?_rename ss
  have hjoins (js : List Join) : (js.map (Join.rename ρ)).filterMap (·.source.query?) =
      (js.filterMap (·.source.query?)).map ρ := filterMap_rename (fun j => j.source.query?_rename) js
  have hconditions (cs : Conditions) : (cs.rename ρ).filterMap (·.predicate.query?) =
      (cs.filterMap (·.predicate.query?)).map ρ :=
    filterMap_rename (fun c => c.predicate.query?_rename) cs
  have htables : (st.commonTables.map (CommonTable.rename ρ)).filterMap (·.query) =
      (st.commonTables.filterMap (·.query)).map ρ :=
    filterMap_rename (fun t : CommonTable => (rfl : (t.rename ρ).query = t.query.map ρ)) _
  have hbody : (st.body.rename ρ).queries = st.body.queries.map ρ := by
    cases st.body with
    | select q =>
      have hcolumns : (q.rename ρ).columnQueries = q.columnQueries.map ρ :=
        filterMap_rename Column.query?_rename q.projection.columns
      have hunions : (q.unions.map (UnionBranch.rename ρ)).filterMap (·.query) =
          (q.unions.filterMap (·.query)).map ρ :=
        filterMap_rename (fun u : UnionBranch => (rfl : (u.rename ρ).query = u.query.map ρ)) _
      rw [Body.rename, Body.queries, hcolumns]
      simp only [Query.rowQueries, Query.rename, hsources, hjoins, hconditions, hunions, Body.queries,
        List.map_append]
    | insert i => exact filterMap_rename (fun a => a.value.query?_rename) i.assignments
    | update u =>
      have hitems : (u.items.map (SetItem.rename ρ)).filterMap SetItem.query? =
          (u.items.filterMap SetItem.query?).map ρ := filterMap_rename SetItem.query?_rename u.items
      simp only [Body.rename, Body.queries, Update.rename, hsources, hjoins, hconditions, hitems,
        List.map_append]
    | delete x => exact hconditions x.conditions
  rw [queries, rename, htables, hbody, ← List.map_append]
  rfl

theorem fixed_of_mem_queries {st : Statement} (h : st.rename ρ = st) :
    ∀ r ∈ st.queries, ρ r = r := by
  have hqueries : st.queries.map ρ = st.queries.map id := by
    rw [← st.queries_rename, h, List.map_id]
  exact List.map_inj_left.1 hqueries

theorem map_eq_self {query : Option StatementId} (h : ∀ r ∈ query, ρ r = r) : query.map ρ = query := by
  cases query with
  | none => rfl
  | some r => exact congrArg some (h r rfl)

theorem Edit.rename_eq_self {e : Edit} (h : ∀ r ∈ e.query?, ρ r = r) : e.rename ρ = e := by
  cases e with
  | commonTable e => exact congrArg (fun q => commonTable { e with query := q }) (map_eq_self h)
  | union u => exact congrArg (fun q => union { u with query := q }) (map_eq_self h)
  | column e =>
    cases e with
    | query id asName => exact congrArg (fun q => column (.query q asName)) (map_eq_self h)
    | _ => rfl
  | source e =>
    cases e with
    | query id asName => exact congrArg (fun q => source (.query q asName)) (map_eq_self h)
    | _ => rfl
  | join e =>
    cases e with
    | query kind id asName on values =>
      exact congrArg (fun q => join (.query kind q asName on values)) (map_eq_self h)
    | _ => rfl
  | filter e =>
    cases e with
    | memberOf negated column id logic =>
      exact congrArg (fun q => filter (.memberOf negated column q logic)) (map_eq_self h)
    | anyOf column id logic =>
      exact congrArg (fun q => filter (.anyOf column q logic)) (map_eq_self h)
    | hasRows negated id logic =>
      exact congrArg (fun q => filter (.hasRows negated q logic)) (h id rfl)
    | _ => rfl
  | assignment e =>
    cases e with
    | query column id => exact congrArg (fun q => assignment (.query column q)) (map_eq_self h)
    | _ => rfl
  | _ => rfl

theorem Statement.edit_fixed {st : Statement} (hst : st.rename ρ = st) {e : Edit}
    (h : ∀ r ∈ e.query?, ρ r = r) : (st.edit e).state.rename ρ = (st.edit e).state := by
  have hedit := congrArg Step.state (st.edit_rename ρ e)
  rw [hst, Edit.rename_eq_self h] at hedit
  exact hedit.symm

theorem SourceEdit.table_fixed (name asName : Value) :
    Ensures (source (.table name asName)) fun s => s.rename ρ = s :=
  (ensures_any _).bind fun _ _ => (ensures_any _).bind fun _ _ => ensures_ok rfl

theorem SourceEdit.query_fixed {id : StatementId} (h : ρ id = id) (asName : Value) :
    Ensures (source (.query (some id) asName)) fun s => s.rename ρ = s := by
  refine (ensures_any _).bind fun a _ => ensures_ok ?_
  rw [Source.rename, Option.map_some, h]

theorem Store.statementOf_fixed (s : Store) {c : Creation}
    (h : ∀ r ∈ (Command.create c).query?, ρ r = r) :
    Ensures (s.statementOf c) fun st => st.rename ρ = st := by
  cases c with
  | select d table asName =>
    simp only [statementOf, Statement.select]
    split
    · exact ensures_ok rfl
    · refine (SourceEdit.table_fixed (ρ := ρ) table asName).bind fun source hsource => ensures_ok ?_
      rw [Statement.rename, Body.rename, Query.rename, List.map_singleton, hsource]
      rfl
  | selectFrom d query asName =>
    refine (ensures_any _).bind fun q _ => ?_
    refine (SourceEdit.query_fixed (h query rfl) asName).bind fun source hsource => ensures_ok ?_
    rw [Statement.rename, Body.rename, Query.rename, List.map_singleton, hsource]
    rfl
  | insert d table => exact (ensures_any _).bind fun t _ => ensures_ok rfl
  | update d table asName => exact (ensures_any _).bind fun t _ => ensures_ok rfl
  | delete d table asName => exact (ensures_any _).bind fun t _ => ensures_ok rfl

theorem Store.foldl_perform_fixed {s : Store} {cs : List Command}
    (hs : ∀ st ∈ s.statements, st.rename ρ = st) (h : ∀ c ∈ cs, ∀ r ∈ c.query?, ρ r = r) :
    ∀ st ∈ (cs.foldl perform s).statements, st.rename ρ = st := by
  induction cs generalizing s with
  | nil => exact hs
  | cons c cs ih =>
    obtain ⟨hc, hcs⟩ := List.forall_mem_cons.1 h
    refine ih (perform_forall hs ?_ ?_) hcs
    · rintro k rfl
      exact s.statementOf_fixed hc
    · rintro id e rfl st hst
      exact Statement.edit_fixed hst hc

end Fixed

namespace Store
variable {s : Store} {id : StatementId} {t : StatementTree} {cs : List Command}

theorem held_lt (n : Nat) (h : ∀ c ∈ cs, ∀ r ∈ c.query?, r < n) {j r : StatementId}
    (hr : (run cs).Holds j r) : r < n := by
  obtain ⟨st, hst, hr⟩ := hr
  -- Moving the statements from there on changes none that the program has made.
  let ρ (k : StatementId) := if k < n then k else k + 1
  have hfixed : st.rename ρ = st := by
    refine foldl_perform_fixed (s := empty) (fun _ hempty => absurd hempty List.not_mem_nil) ?_ st
      (List.mem_of_getElem? hst)
    exact fun c hc r hr => if_pos (h c hc r hr)
  by_contra hbeyond
  have hmoved : ρ r = r + 1 := if_neg hbeyond
  exact Nat.succ_ne_self r (hmoved.symm.trans (fixed_of_mem_queries hfixed r hr))

/-- The statement is read like the tree: text, values and their counts, by every read that goes at least
as deep as the tree. -/
structure ReadsAs (s : Store) (id : StatementId) (t : StatementTree) : Prop where
  read : ∀ depth, t.height ≤ depth → s.expandAt depth id = t.read
  count : ∀ depth, t.height ≤ depth → s.countAt depth id = t.readCount
  sql : s.sql id = t.read.map chunksSql
  parameters : s.parameters id = t.read.map chunksParameters
  countSql : s.countSql id = t.readCount.map chunksSql
  countParameters : s.countParameters id = t.readCount.map chunksParameters

theorem CopyOf.readsAs (h : s.CopyOf t id) (hsize : t.height ≤ s.size) : s.ReadsAs id t := by
  have hread : s.chunks id = t.read := h.expandAt_eq hsize
  have hcount : s.countChunks id = t.readCount := by
    rw [countChunks_eq_countAt, h.countAt_eq (hsize.trans (Nat.le_succ s.size))]
  refine ⟨fun _ => h.expandAt_eq, fun _ => h.countAt_eq, ?_, ?_, ?_, ?_⟩
  · rw [Store.sql, hread]
  · rw [Store.parameters, hread]
  · rw [Store.countSql, hcount]
  · rw [Store.countParameters, hcount]

theorem Acyclic.chunks_eq_error (h : s.Acyclic id) (hid : id < s.size) {f : Fault}
    (hf : s.chunks id = .error f) : ∃ o, f = .ofObstacle o := by
  rcases h.readUnless_chunks hid with ⟨_, hread, -⟩ | ⟨o, -, hread⟩
  · cases hf.symm.trans hread
  · exact ⟨_, Except.error.inj (hf.symm.trans hread)⟩

theorem Acyclic.countChunks_eq_error (h : s.Acyclic id) (hid : id < s.size) {f : Fault}
    (hf : s.countChunks id = .error f) :
    f = .noSuchClause ∨ ∃ o, f = .ofObstacle o := by
  obtain ⟨st, hst⟩ := Option.isSome_iff_exists.1 ((s.isSome_get? id).2 hid)
  cases hbody : st.body with
  | select q =>
    rcases h.readUnless_countChunks hst hbody with ⟨_, hread, -⟩ | ⟨o, -, hread⟩
    · cases hf.symm.trans hread
    · exact .inr ⟨_, Except.error.inj (hf.symm.trans hread)⟩
  | insert | update | delete =>
    have hnone : s.countChunks id = .error .noSuchClause := by
      rw [countChunks, find_eq_ok.2 hst]
      simp [bind, Except.bind, Statement.countParts, hbody]
    exact .inl (Except.error.inj (hf.symm.trans hnone))

/-- If no statement of a program holds itself, each of them is written out as one tree, no deeper than
there are statements. It is read like that tree, and every read comes to an end. -/
theorem run_reads_tree (cs : List Command) (hgiven : ∀ c ∈ cs, ∀ r ∈ c.query?, r < (run cs).size)
    (hacyclic : ∀ j, ¬ TransGen (run cs).Holds j j) (id : StatementId) (hid : id < (run cs).size) :
    ∃ t, (run cs).CopyOf t id ∧ (∀ t', (run cs).CopyOf t' id → t' = t) ∧
      t.height ≤ (run cs).size ∧ (run cs).ReadsAs id t ∧
      (∀ f, t.read = .error f → ∃ o, f = .ofObstacle o) ∧
      ∀ f, t.readCount = .error f → f = .noSuchClause ∨ ∃ o, f = .ofObstacle o := by
  have h : (run cs).Acyclic id :=
    ⟨fun _ _ _ hr => held_lt _ hgiven hr, fun j _ => hacyclic j⟩
  obtain ⟨t, hcopy, hlow⟩ := h.exists_copy hid
  have hread : (run cs).chunks id = t.read := hcopy.expandAt_eq hlow
  have hcount : (run cs).countChunks id = t.readCount := by
    rw [countChunks_eq_countAt, hcopy.countAt_eq (hlow.trans (Nat.le_succ _))]
  exact ⟨t, hcopy, fun t' h' => h'.unique hcopy, hlow, hcopy.readsAs hlow,
    fun f hf => h.chunks_eq_error hid (hread.trans hf),
    fun f hf => h.countChunks_eq_error hid (hcount.trans hf)⟩

theorem read_shared_statement :
    let cs : List Command := [
      .create (.select none (.text "a") .null),
      .create (.select none (.text "b") .null),
      .edit 0 (.column (.query (some 1) (.text "n"))),
      .edit 0 (.filter (.memberOf false (.text "m") (some 1) (.choice .and))),
      .create (.selectFrom none 0 (.text "x")),
      .create (.select none (.text "c") .null),
      .edit 1 (.filter (.hasRows false 3 (.choice .and))),
      .edit 3 (.filter (.compare .eq (.text "k") (.int 7) (.choice .and)))]
    ∃ t, (run cs).CopyOf t 2 ∧ (∀ t', (run cs).CopyOf t' 2 → t' = t) ∧ t.height ≤ 4 ∧
      (run cs).ReadsAs 2 t ∧
      (t.read.map chunksSql).toOption = some ("SELECT * FROM (" ++
        "SELECT (SELECT * FROM b WHERE EXISTS (SELECT * FROM c WHERE k = ?)) AS n FROM a " ++
        "WHERE m IN (SELECT * FROM b WHERE EXISTS (SELECT * FROM c WHERE k = ?))) AS x") := by
  intro cs
  have hacyclic (j : StatementId) : ¬ TransGen (run cs).Holds j j :=
    (acyclic_of_rank (fun | 2 => 3 | 0 => 2 | 1 => 1 | _ => 0) (by decide +kernel) j).noCircle j .refl
  have hsize : (run cs).size = 4 := by decide +kernel
  have htext : ((run cs).sql 2).toOption = some ("SELECT * FROM (" ++
      "SELECT (SELECT * FROM b WHERE EXISTS (SELECT * FROM c WHERE k = ?)) AS n FROM a " ++
      "WHERE m IN (SELECT * FROM b WHERE EXISTS (SELECT * FROM c WHERE k = ?))) AS x") := by
    decide +kernel
  obtain ⟨t, hcopy, hunique, hlow, hreads, -⟩ :=
    run_reads_tree cs (by decide +kernel) hacyclic 2 (by rw [hsize]; decide)
  rw [hsize] at hlow
  rw [hreads.sql] at htext
  exact ⟨t, hcopy, hunique, hlow, hreads, htext⟩

end Store
end SqlComposer
