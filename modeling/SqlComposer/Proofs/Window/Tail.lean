import SqlComposer.Proofs.Program
import SqlComposer.Proofs.Reference
import SqlComposer.Proofs.Refusal
import SqlComposer.Proofs.Union.Branches
import SqlComposer.Proofs.Unreadable

/-! The window at the end of a query. Its text stands behind everything else that is read of the query, and
nothing else depends on it: a query that can be read does not embed itself, so the statements that it
embeds are read alike whatever its window is. -/

namespace SqlComposer
open Relation

def Body.withWindow (w : Window) : Body → Body
  | select q => select { q with window := w }
  | b => b

def Query.frontParts (q : Query) : List Part :=
  q.projection.parts ++ q.rowParts ++ orderingClause q.ordering

theorem Statement.parts_of_select {st : Statement} {q : Query} (hq : st.body = .select q) :
    st.parts = .ok (CommonTable.clause st.commonTables ++ q.frontParts
      ++ q.window.clause st.dialect) := by
  rw [parts, hq, List.append_assoc, Query.frontParts, ← Query.parts_eq]
  rfl

theorem Window.exists_expandParts (expand : StatementId → Except Fault (List Chunk)) (d : Dialect)
    (w : Window) :
    ∃ cs, expandParts expand (w.clause d) = .ok cs ∧ chunksSql cs = Part.texts (w.clause d) := by
  have hread : ∃ cs, expandParts expand (w.clause d) = .ok cs :=
    expandParts_of_forall fun id hid => absurd hid (w.statement_not_mem_clause d id)
  obtain ⟨cs, hcs⟩ := hread
  exact ⟨cs, hcs, chunksSql_of_expandParts (w.statement_not_mem_clause d) hcs⟩

namespace Store

def withWindow (s : Store) (id : StatementId) (w : Window) : Store :=
  match s.get? id with
  | some st => ⟨s.statements.set id { st with body := st.body.withWindow w }⟩
  | none => s

variable {s : Store} {id : StatementId} {cs : List Chunk} {st : Statement} {q : Query}

theorem withWindow_eq (hst : s.get? id = some st) (hq : st.body = .select q) (w : Window) :
    s.withWindow id w = ⟨s.statements.set id { st with body := .select { q with window := w } }⟩ := by
  simp only [withWindow, hst, hq, Body.withWindow]

theorem get?_withWindow (hst : s.get? id = some st) (hq : st.body = .select q) (w : Window)
    (j : StatementId) :
    (s.withWindow id w).get? j =
      if id = j then some { st with body := .select { q with window := w } } else s.get? j := by
  rw [withWindow_eq hst hq, get?_set hst]

theorem withWindow_withWindow (hst : s.get? id = some st) (hq : st.body = .select q) (w v : Window) :
    (s.withWindow id w).withWindow id v = s.withWindow id v := by
  have hget := (get?_withWindow hst hq w id).trans (if_pos rfl)
  rw [withWindow_eq hget rfl, withWindow_eq hst hq, withWindow_eq hst hq, List.set_set]

theorem withWindow_self (hst : s.get? id = some st) (hq : st.body = .select q) :
    s.withWindow id q.window = s := by
  have hsame : { st with body := .select { q with window := q.window } } = st := by
    rw [← hq]
  rw [withWindow_eq hst hq, hsame, set_get hst]

theorem size_withWindow (hst : s.get? id = some st) (hq : st.body = .select q) (w : Window) :
    (s.withWindow id w).size = s.size := by
  rw [withWindow_eq hst hq, size, size, List.length_set]

theorem resolves_of_expandAt {depth : Nat} (h : s.expandAt depth id = .ok cs) : s.Resolves id := by
  induction depth generalizing id cs with
  | zero => cases h
  | succ depth ih =>
    obtain ⟨st, ps, hst, hps, hread, -⟩ := expandAt_succ_eq_ok.1 h
    refine .intro hst fun r hr => ?_
    obtain ⟨st', ps', hst', hps', hr⟩ := hr
    cases hst.symm.trans hst'
    cases hps.symm.trans hps'
    obtain ⟨inner, hinner⟩ := expandParts_eq_ok_mem hread hr
    exact ih hinner

theorem expandAt_withWindow (hst : s.get? id = some st) (hq : st.body = .select q) {depth : Nat}
    (h : s.expandAt depth id = .ok cs) (w : Window) :
    ∃ front cs', chunksSql cs = front ++ Part.texts (q.window.clause st.dialect) ∧
      chunksSql cs' = front ++ Part.texts (w.clause st.dialect) ∧
      (s.withWindow id w).expandAt depth id = if w.isWritable then .ok cs' else .error .longInteger := by
  cases depth with
  | zero => cases h
  | succ depth =>
    have hcircle := (resolves_of_expandAt h).acyclic
    obtain ⟨st', ps, hst', hps, hread, -⟩ := expandAt_succ_eq_ok.1 h
    cases hst.symm.trans hst'
    have hparts := Statement.parts_of_select hq
    cases hparts.symm.trans hps
    obtain ⟨front, tail, hfront, htail, rfl⟩ := expandParts_append_eq_ok.1 hread
    -- What stands in front of the window does not lead back to the query.
    have hother (r : StatementId) (hr : .statement r ∈ CommonTable.clause st.commonTables ++
        q.frontParts) : (s.withWindow id w).expandAt depth r = s.expandAt depth r := by
      have hstep : s.Embeds id r := ⟨st, _, hst, hparts, List.mem_append_left _ hr⟩
      refine expandAt_congr (fun j hj => ?_) depth
      have hne : id ≠ j := by
        rintro rfl
        exact hcircle (TransGen.head' hstep hj)
      rw [get?_withWindow hst hq, if_neg hne]
    obtain ⟨tail', htail', hsql'⟩ :=
      Window.exists_expandParts ((s.withWindow id w).expandAt depth) st.dialect w
    have hsql := chunksSql_of_expandParts (q.window.statement_not_mem_clause st.dialect) htail
    refine ⟨chunksSql front, front ++ tail', ?_, ?_, ?_⟩
    · rw [chunksSql_append, hsql]
    · rw [chunksSql_append, hsql']
    · have hget := (get?_withWindow hst hq w id).trans (if_pos rfl)
      have hfront' := (expandParts_congr hother).trans hfront
      exact expandAt_of_parts hget (Statement.parts_of_select rfl)
        (expandParts_append_eq_ok.2 ⟨front, tail', hfront', htail', rfl⟩)

theorem sql_of_front (hst : s.get? id = some st) (hq : st.body = .select q) {front : String}
    (h : (s.withWindow id .all).sql id = .ok front) :
    s.sql id = if q.window.isWritable
      then .ok (front ++ Part.texts (q.window.clause st.dialect)) else .error .longInteger := by
  have hnone : Part.texts (Window.all.clause st.dialect) = "" := by
    rw [(Window.clause_eq_nil_iff st.dialect .all).2 rfl]
    rfl
  have hget := (get?_withWindow hst hq .all id).trans (if_pos rfl)
  obtain ⟨cs, hcs, rfl⟩ := map_eq_ok.1 h
  obtain ⟨front, cs', hfront, hsql, hcs'⟩ := expandAt_withWindow hget rfl hcs q.window
  rw [withWindow_withWindow hst hq, withWindow_self hst hq, size_withWindow hst hq] at hcs'
  rw [hnone, String.append_empty] at hfront
  rw [sql, chunks, hcs', hfront, ← hsql]
  split <;> rfl

theorem sql_eq_ok_iff (hst : s.get? id = some st) (hq : st.body = .select q) {text : String} :
    s.sql id = .ok text ↔ q.window.isWritable ∧ ∃ front, (s.withWindow id .all).sql id = .ok front ∧
      text = front ++ Part.texts (q.window.clause st.dialect) := by
  constructor
  · intro h
    obtain ⟨cs, hcs, rfl⟩ := map_eq_ok.1 h
    obtain ⟨front, cs', -, -, hcs'⟩ := expandAt_withWindow hst hq hcs .all
    have hfront : (s.withWindow id .all).sql id = .ok (chunksSql cs') := by
      rw [sql, chunks, size_withWindow hst hq, hcs']
      rfl
    have hsql := (sql_of_front hst hq hfront).symm.trans h
    split at hsql
    · next hw => exact ⟨hw, _, hfront, (Except.ok.inj hsql).symm⟩
    · cases hsql
  · rintro ⟨hw, front, hfront, rfl⟩
    rw [sql_of_front hst hq hfront, if_pos hw]

end Store
end SqlComposer
