import SqlComposer.Proofs.Balance.Program
import SqlComposer.Proofs.ReadBack.Collecting
import SqlComposer.Proofs.ReadBack.Splitting
import SqlComposer.Proofs.Unreadable

/-! Reading conditions back. A clause of balanced conditions splits at its outermost connectives into the
conditions that were brought to its list, in their order, each later one with its own connective. Balance
has to be known of whole statements, since a condition may embed one. -/

namespace SqlComposer

def laterText (p : Logic × String) : String := " " ++ p.1.keyword ++ " (" ++ p.2 ++ ")"

namespace Store
open Relation
variable {s : Store} {id : StatementId}

def predicateSql (s : Store) : Predicate → Except Fault String
  | .text t _ => .ok t
  | .query before (some id) after => do return before ++ (← s.sql id) ++ after
  | .query before none _ => .ok before

def listed (s : Store) (cs : Conditions) : Except Fault (List (Logic × String)) :=
  cs.mapM fun c => do return (c.logic, ← s.predicateSql c.predicate)

def clauseSql (s : Store) (keyword : String) (cs : Conditions) : Except Fault String :=
  (s.expand (cs.clause keyword)).map chunksSql

theorem predicateSql_of_expand {p : Predicate} {chunks : List Chunk}
    (h : s.expand p.parts = .ok chunks) : s.predicateSql p = .ok (chunksSql chunks) := by
  cases p with
  | text t values =>
    cases h
    simp [predicateSql, chunksSql]
  | query before query after =>
    cases query with
    | none =>
      cases h
      simp [predicateSql, chunksSql]
    | some id =>
      obtain ⟨rest, hrest, h⟩ := bind_eq_ok.1 h
      cases h
      obtain ⟨inner, last, hinner, hlast, rfl⟩ := expandParts_statement_eq_ok.1 hrest
      cases hlast
      have hsql : s.sql id = .ok (chunksSql inner) := map_eq_ok.2 ⟨inner, hinner, rfl⟩
      simp [predicateSql, hsql, bind, Except.bind, pure, Except.pure, chunksSql, chunksSql_append,
        String.append_assoc]

theorem expand_laterParts {c : Condition} (hc : c.predicate.isClosed) {chunks : List Chunk}
    (h : s.expand (Conditions.laterParts c) = .ok chunks) :
    ∃ t, s.predicateSql c.predicate = .ok t ∧ chunksSql chunks = laterText (c.logic, t) := by
  rw [Conditions.laterParts, if_pos hc, expand, expandParts_append_eq_ok] at h
  obtain ⟨front, last, hfront, hlast, rfl⟩ := h
  obtain ⟨inner, hinner, h⟩ := bind_eq_ok.1 hfront
  cases h
  cases hlast
  refine ⟨_, predicateSql_of_expand hinner, ?_⟩
  simp [laterText, chunksSql, chunksSql_append, String.append_assoc]

theorem expand_later {cs : Conditions} (hcs : ∀ c ∈ cs, c.predicate.isClosed) {chunks : List Chunk}
    (h : s.expand (cs.flatMap Conditions.laterParts) = .ok chunks) :
    ∃ ts, s.listed cs = .ok ts ∧ chunksSql chunks = String.join (ts.map laterText) := by
  induction cs generalizing chunks with
  | nil =>
    cases h
    exact ⟨[], rfl, rfl⟩
  | cons c cs ih =>
    obtain ⟨hc, hcs⟩ := List.forall_mem_cons.1 hcs
    rw [List.flatMap_cons, expand, expandParts_append_eq_ok] at h
    obtain ⟨front, rest, hfront, hrest, rfl⟩ := h
    obtain ⟨t, ht, hfront⟩ := expand_laterParts hc hfront
    obtain ⟨ts, hts, hrest⟩ := ih hcs hrest
    refine ⟨(c.logic, t) :: ts, ?_, ?_⟩
    · have hlisted : cs.mapM (fun c => do return (c.logic, ← s.predicateSql c.predicate)) = .ok ts := hts
      rw [listed, List.mapM_cons, ht, hlisted]
      rfl
    · rw [chunksSql_append, hfront, hrest, List.map_cons, String.join_cons]

theorem clauseSql_cons {c : Condition} {cs : Conditions} (hcs : ∀ c ∈ cs, c.predicate.isClosed)
    {keyword text : String} (h : s.clauseSql keyword (c :: cs) = .ok text) :
    ∃ t ts, s.predicateSql c.predicate = .ok t ∧ s.listed cs = .ok ts ∧
      text = keyword ++ (t ++ String.join (ts.map laterText)) := by
  obtain ⟨chunks, hchunks, rfl⟩ := map_eq_ok.1 h
  rw [Conditions.clause, expand, expandParts_append_eq_ok] at hchunks
  obtain ⟨front, rest, hfront, hrest, rfl⟩ := hchunks
  obtain ⟨inner, hinner, h⟩ := bind_eq_ok.1 hfront
  cases h
  obtain ⟨ts, hts, hrest⟩ := expand_later hcs hrest
  refine ⟨_, ts, predicateSql_of_expand hinner, hts, ?_⟩
  rw [chunksSql_append, hrest, chunksSql, String.append_assoc]

theorem shape_predicateSql {p : Predicate} (hp : p.Balanced)
    (hsql : ∀ id, p.query? = some id → Ensures (s.sql id) fun text => shape text = 1) :
    Ensures (s.predicateSql p) fun t => shape t = 1 := by
  cases p with
  | text t values => exact ensures_ok hp
  | query before query after =>
    cases query with
    | none => exact hp.elim
    | some id =>
      refine (hsql id rfl).bind fun text htext => ensures_ok ?_
      rw [shape_append, shape_append, htext, mul_one]
      exact hp

/-- Conditions of a program whose own texts are balanced, and all texts that the statements they embed
were built from. -/
def BalancedThroughout (program : List Command) (cs : Conditions) : Prop :=
  cs.Balanced ∧ ∀ c ∈ cs, ∀ id, c.predicate.query? = some id →
    ∀ j, ReflTransGen (run program).Embeds id j → empty.BuiltBalanced j program

structure ReadsBack (s : Store) (cs : Conditions) : Prop where
  /-- The statements that the conditions embed are balanced. -/
  balanced : ∀ c ∈ cs, ∀ id, c.predicate.query? = some id →
    ∀ text, s.sql id = .ok text → Balanced text.toList
  /-- The clause can be read as soon as these statements can. -/
  readable : (∀ c ∈ cs, ∀ id, c.predicate.query? = some id → ∃ text, s.sql id = .ok text) →
    ∀ keyword, ∃ text, s.clauseSql keyword cs = .ok text
  /-- Behind its keyword, the clause splits into the first condition and the later ones with their
  connectives. -/
  splits : ∀ first later, cs = first :: later → ∀ keyword text, s.clauseSql keyword cs = .ok text →
    ∃ t ts body, s.predicateSql first.predicate = .ok t ∧ s.listed later = .ok ts ∧
      text = keyword ++ body ∧ (Undivided 0 t.toList →
        splitConditions body.toList = some (t.toList, ts.map fun p => (p.1, p.2.toList)))

theorem toList_join_laterText (ts : List (Logic × String)) :
    (String.join (ts.map laterText)).toList =
      (ts.map fun p => (p.1, p.2.toList)).flatMap laterPiece := by
  induction ts with
  | nil => rfl
  | cons p ts ih =>
    have hclosing : ")".toList = [')'] := by decide
    rw [List.map_cons, String.join_cons, String.toList_append, ih, List.map_cons, List.flatMap_cons, laterText,
      String.toList_append, String.toList_append, hclosing, laterPiece, Logic.opening]

theorem BalancedThroughout.readsBack {program : List Command} {cs : Conditions}
    (h : BalancedThroughout program cs) : (run program).ReadsBack cs := by
  have hsql : ∀ c ∈ cs, ∀ id, c.predicate.query? = some id →
      Ensures ((run program).sql id) fun text => Balanced text.toList :=
    fun c hc id hid text htext => balanced_sql (h.2 c hc id hid) htext
  have htexts : ∀ c ∈ cs, Ensures ((run program).predicateSql c.predicate) fun t => shape t = 1 :=
    fun c hc => shape_predicateSql (h.1 c hc) fun id hid =>
      (hsql c hc id hid).mono fun text => balanced_toList_iff.1
  refine ⟨hsql, fun hread keyword => ?_, ?_⟩
  · have hparts : ∃ chunks, (run program).expand (cs.clause keyword) = .ok chunks := by
      refine expandParts_of_forall fun id hid => ?_
      obtain ⟨c, hc, hquery⟩ := List.mem_filterMap.1 (Conditions.mem_clause.1 hid)
      obtain ⟨text, htext⟩ := hread c hc id hquery
      obtain ⟨inner, hinner, -⟩ := map_eq_ok.1 htext
      exact ⟨inner, hinner⟩
    obtain ⟨chunks, hchunks⟩ := hparts
    exact ⟨_, map_eq_ok.2 ⟨chunks, hchunks, rfl⟩⟩
  · rintro first later rfl keyword text htext
    obtain ⟨hfirst, hlater⟩ := List.forall_mem_cons.1 htexts
    have hclosed : ∀ c ∈ later, c.predicate.isClosed := fun c hc =>
      (h.1 c (List.mem_cons_of_mem _ hc)).isClosed
    obtain ⟨t, ts, ht, hts, rfl⟩ := clauseSql_cons hclosed htext
    have hlisted : ∀ p ∈ ts, shape p.2 = 1 :=
      ensures_mapM (fun c hc => (hlater c hc).bind fun t ht => ensures_ok ht) ts hts
    refine ⟨t, ts, _, ht, hts, rfl, fun hu => ?_⟩
    rw [String.toList_append, toList_join_laterText]
    refine splitConditions_append (balanced_toList_iff.2 (hfirst t ht)) hu ?_
    exact List.forall_mem_map.2 fun p hp => balanced_toList_iff.2 (hlisted p hp)

theorem body_clauses_in_parts {d : Dialect} {b : Body} {ps : List Part} (h : b.parts d = .ok ps) :
    Conditions.clause " WHERE " b.conditions <:+: ps ∧ Conditions.clause " HAVING " b.having <:+: ps := by
  cases b with
  | select q =>
    cases h
    constructor
    · refine ⟨q.projection.parts
        ++ (Part.clause " FROM " ", " (q.sources.map Source.parts) ++ q.joins.flatMap Join.parts),
        q.grouping.clause ++ Conditions.clause " HAVING " q.having ++ q.unions.flatMap UnionBranch.parts
          ++ orderingClause q.ordering ++ q.window.clause d, ?_⟩
      simp only [Body.conditions, Query.parts, List.append_assoc]
    · refine ⟨q.projection.parts
        ++ (Part.clause " FROM " ", " (q.sources.map Source.parts) ++ q.joins.flatMap Join.parts
          ++ Conditions.clause " WHERE " q.conditions ++ q.grouping.clause),
        q.unions.flatMap UnionBranch.parts ++ orderingClause q.ordering ++ q.window.clause d, ?_⟩
      simp only [Body.having, Query.parts, List.append_assoc]
  | insert i => exact ⟨List.nil_infix, List.nil_infix⟩
  | update u =>
    refine ⟨?_, List.nil_infix⟩
    simp only [Body.parts, Update.parts] at h
    split at h
    · cases h
      exact (List.suffix_append _ _).isInfix
    · split at h
      · cases h
      · cases h
        exact (List.suffix_append _ _).isInfix
  | delete x =>
    cases h
    exact ⟨(List.suffix_append _ _).isInfix, List.nil_infix⟩

theorem clauses_in_parts {st : Statement} {ps : List Part} (h : st.parts = .ok ps) :
    Conditions.clause " WHERE " st.body.conditions <:+: ps ∧
      Conditions.clause " HAVING " st.body.having <:+: ps := by
  obtain ⟨inner, hinner, h⟩ := bind_eq_ok.1 h
  cases h
  have hbehind : inner <:+: CommonTable.clause st.commonTables ++ inner :=
    (List.suffix_append _ _).isInfix
  obtain ⟨hwhere, hhaving⟩ := body_clauses_in_parts hinner
  exact ⟨hwhere.trans hbehind, hhaving.trans hbehind⟩

/-- The clause can be read, and its text stands in one piece in the other. -/
def StandsIn (s : Store) (keyword : String) (cs : Conditions) (text : String) : Prop :=
  ∃ clause front back, s.clauseSql keyword cs = .ok clause ∧ text = front ++ clause ++ back

theorem standsIn_of_infix {st : Statement} (hst : s.get? id = some st) {keyword : String}
    {cs : Conditions} (hclause : ∀ ps, st.parts = .ok ps → cs.clause keyword <:+: ps) {text : String}
    (htext : s.sql id = .ok text) : s.StandsIn keyword cs text := by
  obtain ⟨chunks, hchunks, rfl⟩ := map_eq_ok.1 htext
  obtain ⟨st', ps, hst', hps, hread, -⟩ := chunks_eq_ok_of_parts hchunks
  cases hst.symm.trans hst'
  obtain ⟨ahead, behind, rfl⟩ := hclause ps hps
  rw [expand, expandParts_append_eq_ok] at hread
  obtain ⟨front, back, hfront, -, rfl⟩ := hread
  obtain ⟨ahead', clause, -, hclause, rfl⟩ := expandParts_append_eq_ok.1 hfront
  refine ⟨chunksSql clause, chunksSql ahead', chunksSql back, map_eq_ok.2 ⟨clause, hclause, rfl⟩, ?_⟩
  rw [chunksSql_append, chunksSql_append]

/-- Lists of conditions are read back as they were put together. A list by itself holds what its accepted
calls have brought one after the other; the WHERE and HAVING lists of a statement hold what the accepted
calls of the statement have brought, and their clauses stand in its text. As long as the conditions and
all texts of the statements that they embed are balanced, these statements are balanced, and the clause
splits at its outermost connectives into the first condition as it is and the later ones, each with its
own connective. -/
theorem run_conditions_read_back (program : List Command) :
    (∀ es : List ConditionsEdit,
      es.foldl ConditionsEdit.perform [] = ConditionsEdit.brought true es ∧
      (BalancedThroughout program (ConditionsEdit.brought true es) →
        (run program).ReadsBack (ConditionsEdit.brought true es))) ∧
    ∀ id st, (run program).get? id = some st →
      (Collected (Edit.whereChange? st.dialect) (empty.calls id program) st.body.conditions ∧
        (BalancedThroughout program st.body.conditions → (run program).ReadsBack st.body.conditions)) ∧
      (Collected Edit.havingChange? (empty.calls id program) st.body.having ∧
        (BalancedThroughout program st.body.having → (run program).ReadsBack st.body.having)) ∧
      ∀ text, (run program).sql id = .ok text →
        (run program).StandsIn " WHERE " st.body.conditions text ∧
          (run program).StandsIn " HAVING " st.body.having text := by
  refine ⟨fun es => ⟨?_, BalancedThroughout.readsBack⟩, fun id st hst => ?_⟩
  · exact ConditionsEdit.foldl_perform [] es
  · obtain ⟨hwhere, hhaving⟩ := run_collected hst
    refine ⟨⟨hwhere, BalancedThroughout.readsBack⟩, ⟨hhaving, BalancedThroughout.readsBack⟩,
      fun text htext => ⟨?_, ?_⟩⟩
    · exact standsIn_of_infix hst (fun ps hps => (clauses_in_parts hps).1) htext
    · exact standsIn_of_infix hst (fun ps hps => (clauses_in_parts hps).2) htext

theorem exists_condition_read_back :
    let program : List Command := [
      .create (.select none (.text "t") .null),
      .create (.select none (.text "v") .null),
      .edit 1 (.filter (.memberOf false (.text "id") (some 0) (.choice .and))),
      .edit 0 (.filter (.compare .gt (.text "n") (.int 5) (.choice .or)))]
    let es : List ConditionsEdit := [
      .text (.name (.text "or")) (.text "f(a, ?) > 0") [.int 1],
      .query (.choice .or) (.text "EXISTS (") (some 1) (.text ")"),
      .text (.name (.text "nor")) (.text "y") [],
      .tautology (.choice .and),
      .text (.choice .and) (.text "b = ? AND (c)") [.int 2]]
    let query := "EXISTS (SELECT * FROM v WHERE id IN (SELECT * FROM t WHERE n > ?))"
    let body := "f(a, ?) > 0 OR (" ++ query ++ ") AND (b = ? AND (c))"
    (run program).clauseSql " WHERE " (es.foldl ConditionsEdit.perform []) = .ok (" WHERE " ++ body) ∧
      splitConditions body.toList =
        some ("f(a, ?) > 0".toList, [(.or, query.toList), (.and, "b = ? AND (c)".toList)]) := by
  intro program es query body
  obtain ⟨hes, hread⟩ := (run_conditions_read_back program).1 es
  have hbrought : ConditionsEdit.brought true es = [⟨.or, .text "f(a, ?) > 0" [.int 1]⟩,
      ⟨.or, .query "EXISTS (" (some 1) ")"⟩, ⟨.and, .text "b = ? AND (c)" [.int 2]⟩] := by rfl
  rw [hbrought] at hes hread
  have hbuilt : ∀ j ∈ [1, 0], empty.BuiltBalanced j program := by
    refine List.forall_mem_cons.2 ⟨?_, List.forall_mem_singleton.2 ?_⟩
    · refine ⟨.inl rfl, .inr ?_, .inr ?_, .inl rfl, trivial⟩
      · exact .inr ⟨by decide, by decide⟩
      · exact ⟨by decide, rfl⟩
    · refine ⟨.inr ?_, .inl rfl, .inl rfl, .inr ?_, trivial⟩
      · exact .inr ⟨by decide, by decide⟩
      · exact show (Value.text "n").Balanced by decide
  have hthroughout : BalancedThroughout program [⟨.or, .text "f(a, ?) > 0" [.int 1]⟩,
      ⟨.or, .query "EXISTS (" (some 1) ")"⟩, ⟨.and, .text "b = ? AND (c)" [.int 2]⟩] := by
    refine ⟨by decide, fun c hc id hid j hj => hbuilt j (mem_of_reaches ?_ ?_ hj)⟩
    · decide +kernel
    · simp only [List.mem_cons, List.not_mem_nil, or_false] at hc
      rcases hc with rfl | rfl | rfl <;> cases hid
      decide
  have hclause : (run program).clauseSql " WHERE " [⟨.or, .text "f(a, ?) > 0" [.int 1]⟩,
      ⟨.or, .query "EXISTS (" (some 1) ")"⟩, ⟨.and, .text "b = ? AND (c)" [.int 2]⟩] =
      .ok (" WHERE " ++ body) := eq_ok_of_toOption (by decide +kernel)
  obtain ⟨t, ts, rest, ht, hts, hrest, hsplit⟩ := (hread hthroughout).splits _ _ rfl " WHERE " _ hclause
  cases ht
  have hlater : (run program).listed [⟨.or, .query "EXISTS (" (some 1) ")"⟩,
      ⟨.and, .text "b = ? AND (c)" [.int 2]⟩] = .ok [(.or, query), (.and, "b = ? AND (c)")] :=
    eq_ok_of_toOption (by decide +kernel)
  cases hts.symm.trans hlater
  have hbody : body = rest := by
    have h := congrArg String.toList hrest
    rw [String.toList_append (t := body), String.toList_append (t := rest)] at h
    exact String.toList_inj.1 (List.append_cancel_left h)
  refine ⟨hes ▸ hclause, ?_⟩
  rw [hbody]
  exact hsplit (by decide)

end Store
end SqlComposer
