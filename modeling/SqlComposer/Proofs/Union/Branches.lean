import SqlComposer.Proofs.Ensures
import SqlComposer.Proofs.Expansion
import SqlComposer.Proofs.Program
import SqlComposer.Proofs.Union.Reading

/-! The branches of a union. A statement reads its unions as a chain without parentheses, so the rows
that its calls have built are read back from its text exactly if no branch has a WITH, unions, an
order or a window of its own. -/

namespace SqlComposer

def Part.texts : List Part → String
  | [] => ""
  | .chunk c :: ps => c.text ++ texts ps
  | .statement _ :: ps => texts ps

def SetToken.joined (ts : List SetToken) : String := String.join (ts.map text)

theorem SetToken.joined_append (ts us : List SetToken) : joined (ts ++ us) = joined ts ++ joined us := by
  simp [joined, String.join_append]

namespace RowSet

def chained (rows : RowSet) (branches : List (UnionKind × RowSet)) : RowSet :=
  branches.foldl (fun rows b => .combine b.1 rows b.2) rows

def ended (ordering window : List Part) (rows : RowSet) : RowSet :=
  let rows := if ordering.isEmpty then rows else .ordered (Part.texts ordering) rows
  if window.isEmpty then rows else .limited (Part.texts window) rows

end RowSet

namespace Query

def coreParts (q : Query) : List Part :=
  q.projection.parts
    ++ Part.clause " FROM " ", " (q.sources.map Source.parts)
    ++ q.joins.flatMap Join.parts
    ++ Conditions.clause " WHERE " q.conditions
    ++ q.grouping.clause
    ++ Conditions.clause " HAVING " q.having

structure IsCore (q : Query) : Prop where
  unions : q.unions = []
  ordering : q.ordering = []
  window : q.window = .all

end Query

def UnionBranch.rows (read : StatementId → Except Fault RowSet) (u : UnionBranch) :
    Except Fault (UnionKind × RowSet) :=
  match u.query with
  | some id => (read id).map (u.kind, ·)
  | none => .error .noSuchClause

namespace Store

/-- The rows that a statement stands for: those of its query up to HAVING, combined with the rows of
every branch in the order in which the branches were added, then ordered and cut, and all of that
under the tables of its WITH. -/
def rowSetAt (s : Store) : Nat → StatementId → Except Fault RowSet
  | 0, _ => .error .unresolvedStatement
  | depth + 1, id => do
    let st ← s.find id
    match st.body with
    | .select q =>
      let tables ← expandParts (s.expandAt depth) (CommonTable.clause st.commonTables)
      let core ← expandParts (s.expandAt depth) q.coreParts
      let branches ← q.unions.mapM (UnionBranch.rows (s.rowSetAt depth))
      return .within (if st.commonTables.isEmpty then none else some (chunksSql tables))
        (.ended (orderingClause q.ordering) (q.window.clause st.dialect)
          (.chained (.core (chunksSql core)) branches))
    | _ => .error .noSuchClause

def rowSet (s : Store) (id : StatementId) : Except Fault RowSet := s.rowSetAt s.size id

def IsCore (s : Store) (id : StatementId) : Prop :=
  ∃ st q, s.get? id = some st ∧ st.body = .select q ∧ st.commonTables = [] ∧ q.IsCore

inductive UnitesQueries (s : Store) : StatementId → Prop
  | select {id : StatementId} {st : Statement} {q : Query} (hst : s.get? id = some st)
      (hq : st.body = .select q) (hbranch : ∀ u ∈ q.unions, ∃ b, u.query = some b)
      (h : ∀ u ∈ q.unions, ∀ b, u.query = some b → UnitesQueries s b) : UnitesQueries s id

end Store

variable {expand : StatementId → Except Fault (List Chunk)}

theorem chunksSql_of_expandParts {ps : List Part} (hp : ∀ id, Part.statement id ∉ ps)
    {cs : List Chunk} (h : expandParts expand ps = .ok cs) : chunksSql cs = Part.texts ps := by
  induction ps generalizing cs with
  | nil =>
    cases h
    rfl
  | cons p ps ih =>
    have hps (id : StatementId) : Part.statement id ∉ ps := fun hmem =>
      hp id (List.mem_cons_of_mem _ hmem)
    cases p with
    | chunk c =>
      obtain ⟨as, has, h⟩ := bind_eq_ok.1 h
      cases h
      rw [chunksSql, ih hps has, Part.texts]
    | statement id => exact absurd List.mem_cons_self (hp id)

theorem statement_not_mem_orderingClause (items : List String) (id : StatementId) :
    Part.statement id ∉ orderingClause items := by
  have hseparated (items : List String) :
      Part.statement id ∉ Part.separated ", " (items.map fun i => [.text i]) := by
    induction items with
    | nil => exact List.not_mem_nil
    | cons i is ih =>
      cases is with
      | nil => simp [Part.separated, Part.text]
      | cons j js => simpa [Part.separated, Part.text] using ih
  cases items with
  | nil => exact List.not_mem_nil
  | cons i is =>
    refine List.not_mem_cons_of_ne_of_not_mem ?_ (hseparated (i :: is))
    exact nofun

theorem Window.statement_not_mem_clause (d : Dialect) (w : Window) (id : StatementId) :
    Part.statement id ∉ w.clause d := by
  unfold clause
  split <;> simp [Part.text]

theorem Query.parts_eq_coreParts (d : Dialect) (q : Query) :
    q.parts d = q.coreParts ++ q.unions.flatMap UnionBranch.parts ++ orderingClause q.ordering
      ++ q.window.clause d := by
  simp [parts, coreParts]

theorem orderingClause_eq_nil_iff (items : List String) : orderingClause items = [] ↔ items = [] := by
  cases items with
  | nil => exact ⟨fun _ => rfl, fun _ => rfl⟩
  | cons i is => exact ⟨nofun, nofun⟩

theorem Family.windowText_eq_empty_iff (f : Family) (limit : Option String) (offset : String)
    (skips : Bool) : f.windowText limit offset skips = "" ↔ limit = none ∧ skips = false := by
  cases f <;> cases limit <;> cases skips <;>
    simp [windowText, unboundedLimit?, String.append_eq_empty_iff]

theorem Window.clause_eq_nil_iff (d : Dialect) (w : Window) : w.clause d = [] ↔ w = .all := by
  have hwindow : w.clause d = [] ↔ d.family.window (w.limit.map Int.ofNat) w.offset = "" := by
    unfold clause
    split
    · next h => exact ⟨fun _ => h, fun _ => rfl⟩
    · next h => exact ⟨nofun, fun he => absurd he h⟩
  rw [hwindow, Family.window, Family.windowText_eq_empty_iff]
  obtain ⟨limit, offset⟩ := w
  simp [Window.all]

namespace RowSet
variable {rows : RowSet} {branches : List (UnionKind × RowSet)} {ordering window : List Part}
  {tables : Option String}

theorem flatChain_chained :
    (rows.chained branches).FlatChain ↔ rows.FlatChain ∧ ∀ b ∈ branches, b.2.isCore := by
  induction branches generalizing rows with
  | nil => simp [chained]
  | cons b bs ih =>
    have h : rows.chained (b :: bs) = (combine b.1 rows b.2).chained bs := rfl
    rw [h, ih, List.forall_mem_cons]
    exact and_assoc

theorem isChain_chained (h : rows.isChain) : (rows.chained branches).isChain := by
  induction branches generalizing rows with
  | nil => exact h
  | cons b bs ih =>
    have hb : (combine b.1 rows b.2).isChain := rfl
    exact ih hb

theorem isCore_chained (sql : String) : ((core sql).chained branches).isCore ↔ branches = [] := by
  have hcombined (rows : RowSet) (hrows : rows.isCore = false) (bs : List (UnionKind × RowSet)) :
      (rows.chained bs).isCore = false := by
    induction bs generalizing rows with
    | nil => exact hrows
    | cons b bs ih => exact ih _ rfl
  cases branches with
  | nil => exact ⟨fun _ => rfl, fun _ => rfl⟩
  | cons b bs =>
    have h := hcombined (combine b.1 (core sql) b.2) rfl bs
    constructor
    · intro hcore
      exact absurd (h.symm.trans hcore) nofun
    · exact nofun

theorem flatBody_of_isChain (h : rows.isChain) : rows.FlatBody ↔ rows.FlatChain := by
  cases rows with
  | core | combine => exact Iff.rfl
  | ordered | limited | withTables => cases h

theorem flatBody_ended (h : rows.isChain) :
    (rows.ended ordering window).FlatBody ↔ rows.FlatChain := by
  unfold ended
  cases ordering with
  | nil =>
    cases window with
    | nil => exact flatBody_of_isChain h
    | cons p ps =>
      cases rows with
      | core | combine => exact Iff.rfl
      | ordered | limited | withTables => cases h
  | cons p ps =>
    cases window with
    | nil => exact Iff.rfl
    | cons p ps => exact Iff.rfl

theorem hasTables_ended (h : rows.isChain) : (rows.ended ordering window).hasTables = false := by
  unfold ended
  cases ordering with
  | nil =>
    cases window with
    | nil => exact not_hasTables_of_isChain h
    | cons p ps => rfl
  | cons p ps => cases window <;> rfl

theorem flat_within (h : rows.hasTables = false) : (within tables rows).Flat ↔ rows.FlatBody := by
  cases tables with
  | none =>
    cases rows with
    | core | combine | ordered | limited => exact Iff.rfl
    | withTables => cases h
  | some sql => exact Iff.rfl

theorem isCore_within : (within tables rows).isCore ↔ tables = none ∧ rows.isCore := by
  cases tables with
  | none => exact ⟨fun h => ⟨rfl, h⟩, And.right⟩
  | some sql => exact ⟨nofun, fun h => nomatch h.1⟩

theorem joined_write_within :
    SetToken.joined (within tables rows).write = tables.getD "" ++ SetToken.joined rows.write := by
  cases tables with
  | none => exact String.empty_append.symm
  | some sql => rw [within, write, SetToken.joined, List.map_cons, String.join_cons]; rfl

theorem isCore_ended :
    (rows.ended ordering window).isCore ↔ rows.isCore ∧ ordering = [] ∧ window = [] := by
  unfold ended
  cases ordering <;> cases window <;> simp [isCore]

theorem joined_write_ended :
    SetToken.joined (rows.ended ordering window).write =
      SetToken.joined rows.write ++ Part.texts ordering ++ Part.texts window := by
  have hordered (sql : String) (rows : RowSet) :
      SetToken.joined (ordered sql rows).write = SetToken.joined rows.write ++ sql := by
    rw [write, SetToken.joined_append]
    simp [SetToken.joined, SetToken.text]
  have hlimited (sql : String) (rows : RowSet) :
      SetToken.joined (limited sql rows).write = SetToken.joined rows.write ++ sql := by
    rw [write, SetToken.joined_append]
    simp [SetToken.joined, SetToken.text]
  unfold ended
  cases ordering <;> cases window <;> simp [Part.texts, hordered, hlimited]

theorem joined_write_combine (kind : UnionKind) (rows branch : RowSet) :
    SetToken.joined (combine kind rows branch).write =
      SetToken.joined rows.write ++ (SetToken.union kind).text ++ SetToken.joined branch.write := by
  have h : SetToken.joined (.union kind :: branch.write) =
      (SetToken.union kind).text ++ SetToken.joined branch.write := by
    rw [SetToken.joined, SetToken.joined, List.map_cons, String.join_cons]
  rw [write, SetToken.joined_append, h, String.append_assoc]

end RowSet

namespace Store
variable {s : Store} {depth : Nat} {id : StatementId} {rows : RowSet}

theorem rowSetAt_eq_ok (h : s.rowSetAt (depth + 1) id = .ok rows) :
    ∃ st q tables core branches, s.get? id = some st ∧ st.body = .select q ∧
      (tables = none ↔ st.commonTables = []) ∧
      q.unions.mapM (UnionBranch.rows (s.rowSetAt depth)) = .ok branches ∧
      rows = .within tables (.ended (orderingClause q.ordering) (q.window.clause st.dialect)
        (.chained (.core core) branches)) := by
  obtain ⟨st, hst, h⟩ := bind_eq_ok.1 h
  cases hbody : st.body with
  | select q =>
    rw [hbody] at h
    obtain ⟨tables, -, h⟩ := bind_eq_ok.1 h
    obtain ⟨core, -, h⟩ := bind_eq_ok.1 h
    obtain ⟨branches, hbranches, h⟩ := bind_eq_ok.1 h
    cases h
    refine ⟨st, q, _, _, branches, find_eq_ok.1 hst, hbody, ?_, hbranches, rfl⟩
    cases st.commonTables with
    | nil => exact ⟨fun _ => rfl, fun _ => rfl⟩
    | cons t ts => exact ⟨nofun, nofun⟩
  | insert | update | delete =>
    rw [hbody] at h
    cases h

theorem rowSetAt_isCore_iff (h : s.rowSetAt depth id = .ok rows) : rows.isCore ↔ s.IsCore id := by
  cases depth with
  | zero => cases h
  | succ depth =>
    obtain ⟨st, q, tables, core, branches, hst, hq, htables, hbranches, rfl⟩ := rowSetAt_eq_ok h
    have hunions : branches = [] ↔ q.unions = [] := by
      rw [← List.length_eq_zero_iff, ← List.length_eq_zero_iff, length_of_mapM_eq_ok hbranches]
    rw [RowSet.isCore_within, RowSet.isCore_ended, RowSet.isCore_chained, htables, hunions,
      orderingClause_eq_nil_iff, Window.clause_eq_nil_iff]
    constructor
    · rintro ⟨ht, hu, ho, hw⟩
      exact ⟨st, q, hst, hq, ht, hu, ho, hw⟩
    · rintro ⟨st', q', hst', hq', ht, hcore⟩
      obtain rfl : st = st' := Option.some.inj (hst.symm.trans hst')
      obtain rfl : q = q' := Body.select.inj (hq.symm.trans hq')
      exact ⟨ht, hcore.unions, hcore.ordering, hcore.window⟩

theorem rowSetAt_flat_iff {st : Statement} {q : Query} (hst : s.get? id = some st)
    (hq : st.body = .select q) (h : s.rowSetAt depth id = .ok rows) :
    rows.Flat ↔ ∀ u ∈ q.unions, ∀ b, u.query = some b → s.IsCore b := by
  cases depth with
  | zero => cases h
  | succ depth =>
    obtain ⟨st', q', tables, core, branches, hst', hq', -, hbranches, rfl⟩ := rowSetAt_eq_ok h
    obtain rfl : st = st' := Option.some.inj (hst.symm.trans hst')
    obtain rfl : q = q' := Body.select.inj (hq.symm.trans hq')
    obtain ⟨hto, hfrom⟩ := mem_of_mapM_eq_ok hbranches
    have hchain : ((RowSet.core core).chained branches).isChain := RowSet.isChain_chained rfl
    rw [RowSet.flat_within (RowSet.hasTables_ended hchain), RowSet.flatBody_ended hchain,
      RowSet.flatChain_chained]
    constructor
    · rintro ⟨-, hcore⟩ u hu b hb
      obtain ⟨branch, hmem, hrows⟩ := hto u hu
      rw [UnionBranch.rows, hb] at hrows
      obtain ⟨rows, hread, rfl⟩ := map_eq_ok.1 hrows
      exact (rowSetAt_isCore_iff hread).1 (hcore _ hmem)
    · refine fun hcore => ⟨trivial, fun branch hmem => ?_⟩
      obtain ⟨u, hu, hrows⟩ := hfrom branch hmem
      unfold UnionBranch.rows at hrows
      split at hrows
      · next b hb =>
        obtain ⟨rows, hread, rfl⟩ := map_eq_ok.1 hrows
        exact (rowSetAt_isCore_iff hread).2 (hcore u hu b hb)
      · cases hrows

theorem branches_read {us : List UnionBranch} (hbranch : ∀ u ∈ us, ∃ b, u.query = some b)
    (ih : ∀ u ∈ us, ∀ b, u.query = some b → ∀ cs, s.expandAt depth b = .ok cs →
      ∃ rows, s.rowSetAt depth b = .ok rows ∧ SetToken.joined rows.write = chunksSql cs)
    {cs : List Chunk}
    (h : expandParts (s.expandAt depth) (us.flatMap UnionBranch.parts) = .ok cs) :
    ∃ branches, us.mapM (UnionBranch.rows (s.rowSetAt depth)) = .ok branches ∧
      ∀ rows : RowSet, SetToken.joined (rows.chained branches).write =
        SetToken.joined rows.write ++ chunksSql cs := by
  -- For all rows in front, since every branch makes the rows in front of the next one longer.
  induction us generalizing cs with
  | nil =>
    cases h
    exact ⟨[], rfl, fun rows => (String.append_empty).symm⟩
  | cons u us ihus =>
    rw [List.flatMap_cons, expandParts_append_eq_ok] at h
    obtain ⟨own, later, hown, hlater, rfl⟩ := h
    obtain ⟨branches, hbranches, hjoined⟩ := ihus
      (fun v hv => hbranch v (List.mem_cons_of_mem _ hv))
      (fun v hv => ih v (List.mem_cons_of_mem _ hv)) hlater
    obtain ⟨b, hb⟩ := hbranch u List.mem_cons_self
    rw [UnionBranch.parts, hb] at hown
    obtain ⟨rest, hrest, hown⟩ := bind_eq_ok.1 hown
    obtain ⟨inner, hinner, hrest⟩ := bind_eq_ok.1 hrest
    cases hrest
    cases hown
    obtain ⟨rows, hread, htext⟩ := ih u List.mem_cons_self b hb inner hinner
    have hrows : u.rows (s.rowSetAt depth) = .ok (u.kind, rows) := by
      simp only [UnionBranch.rows, hb, hread]
      rfl
    refine ⟨(u.kind, rows) :: branches, ?_, fun base => ?_⟩
    · rw [List.mapM_cons, hrows, hbranches]
      rfl
    · have hown : chunksSql (⟨"\n" ++ u.kind.keyword ++ "\n", []⟩ :: (inner ++ [⟨"", []⟩])) =
          (SetToken.union u.kind).text ++ chunksSql inner := by
        rw [chunksSql, chunksSql_append]
        simp [chunksSql, SetToken.text]
      have h := hjoined (.combine u.kind base rows)
      rw [RowSet.joined_write_combine, htext] at h
      rw [chunksSql_append, show RowSet.chained base ((u.kind, rows) :: branches) =
        RowSet.chained (.combine u.kind base rows) branches from rfl, h]
      simp only [String.append_assoc]
      exact congrArg _ (by rw [← String.append_assoc, ← hown]; rfl)

theorem expandAt_read (hu : s.UnitesQueries id) {cs : List Chunk} (h : s.expandAt depth id = .ok cs) :
    ∃ rows, s.rowSetAt depth id = .ok rows ∧ SetToken.joined rows.write = chunksSql cs := by
  -- The text and the rows follow the references to the same depth.
  induction depth generalizing id cs with
  | zero => cases h
  | succ depth ih =>
    obtain ⟨hst, hq, hbranch, hqueries⟩ := hu
    next st q =>
    obtain ⟨st', ps, hst', hps, hread, -⟩ := expandAt_succ_eq_ok.1 h
    obtain rfl : st = st' := Option.some.inj (hst.symm.trans hst')
    have hparts : ps = CommonTable.clause st.commonTables ++ q.coreParts
        ++ q.unions.flatMap UnionBranch.parts ++ orderingClause q.ordering
        ++ q.window.clause st.dialect := by
      obtain ⟨body, hbody, hps⟩ := bind_eq_ok.1 hps
      rw [hq] at hbody
      cases hbody
      cases hps
      simp only [Query.parts_eq_coreParts, List.append_assoc]
    rw [hparts, expandParts_append_eq_ok] at hread
    obtain ⟨ahead, window, hahead, hwindow, hcs⟩ := hread
    obtain ⟨chain, ordering, hchain, hordering, hahead⟩ := expandParts_append_eq_ok.1 hahead
    obtain ⟨front, unions, hfront, hunions, hchain⟩ := expandParts_append_eq_ok.1 hchain
    obtain ⟨tables, core, htables, hcore, hfront⟩ := expandParts_append_eq_ok.1 hfront
    obtain ⟨branches, hbranches, hjoined⟩ := branches_read hbranch
      (fun u hu b hb cs hcs => ih (hqueries u hu b hb) hcs) hunions
    have hrows : s.rowSetAt (depth + 1) id =
        .ok (.within (if st.commonTables.isEmpty then none else some (chunksSql tables))
          (.ended (orderingClause q.ordering) (q.window.clause st.dialect)
            (.chained (.core (chunksSql core)) branches))) := by
      rw [rowSetAt, find_eq_ok.2 hst]
      simp only [bind, Except.bind, hq, htables, hcore, hbranches]
      rfl
    have htablesText : (if st.commonTables.isEmpty then none else some (chunksSql tables)).getD "" =
        chunksSql tables := by
      cases hnil : st.commonTables with
      | nil =>
        rw [hnil] at htables
        cases htables
        rfl
      | cons t ts => rfl
    have hcoreText : SetToken.joined (RowSet.core (chunksSql core)).write = chunksSql core := by
      simp [RowSet.write, SetToken.joined, SetToken.text]
    refine ⟨_, hrows, ?_⟩
    rw [RowSet.joined_write_within, RowSet.joined_write_ended, hjoined, htablesText, hcoreText, hcs,
      hahead, hchain, hfront, chunksSql_append, chunksSql_append, chunksSql_append, chunksSql_append,
      chunksSql_of_expandParts (statement_not_mem_orderingClause q.ordering) hordering,
      chunksSql_of_expandParts (q.window.statement_not_mem_clause st.dialect) hwindow]
    simp only [String.append_assoc]

/-- For every query that unites queries: its text is its rows written one behind the other, and by
the rules of reading that text stands for those rows exactly if no branch has a WITH, unions, an order
or a window of its own. -/
theorem read_union_iff {st : Statement} {q : Query} (hst : s.get? id = some st)
    (hq : st.body = .select q) (hu : s.UnitesQueries id) {text : String} (ht : s.sql id = .ok text) :
    ∃ rows, s.rowSet id = .ok rows ∧ SetToken.joined rows.write = text ∧
      (RowSet.read rows.write = some rows ↔ ∀ u ∈ q.unions, ∀ b, u.query = some b → s.IsCore b) := by
  obtain ⟨cs, hcs, rfl⟩ := map_eq_ok.1 ht
  obtain ⟨rows, hrows, hjoined⟩ := expandAt_read hu hcs
  exact ⟨rows, hrows, hjoined, rows.read_write_iff.trans (rowSetAt_flat_iff hst hq hrows)⟩

theorem flat_union_read_back :
    let query (table : String) (unions : List UnionBranch) (ordering : List String) : Statement :=
      ⟨.standard, [], .select { Query.empty with
        sources := [.table table none], unions := unions, ordering := ordering }⟩
    let s : Store := ⟨[query "a" [⟨.all, some 1⟩] ["x"], query "b" [] []]⟩
    ∃ rows, s.rowSet 0 = .ok rows ∧
      SetToken.joined rows.write = "SELECT * FROM a\nUNION ALL\nSELECT * FROM b ORDER BY x" ∧
      RowSet.read rows.write = some rows := by
  intro query s
  have hb : s.UnitesQueries 1 :=
    .select rfl rfl (fun u hu => absurd hu List.not_mem_nil) fun u hu => absurd hu List.not_mem_nil
  have ha : s.UnitesQueries 0 := by
    refine .select rfl rfl (fun u hu => ?_) fun u hu b hub => ?_
    · obtain rfl := List.mem_singleton.1 hu
      exact ⟨1, rfl⟩
    · obtain rfl := List.mem_singleton.1 hu
      cases hub
      exact hb
  have hsql : s.sql 0 = .ok "SELECT * FROM a\nUNION ALL\nSELECT * FROM b ORDER BY x" := by rfl
  obtain ⟨rows, hrows, htext, hread⟩ := read_union_iff rfl rfl ha hsql
  refine ⟨rows, hrows, htext, hread.2 fun u hu b hub => ?_⟩
  obtain rfl := List.mem_singleton.1 hu
  cases hub
  exact ⟨_, _, rfl, rfl, rfl, rfl, rfl, rfl⟩

/-- In `a UNION ALL (b UNION c)` no parentheses are written, and `(a UNION ALL b) UNION c` is read. -/
theorem nested_union_read_apart :
    let s := run [.create (.select none (.text "a") .null), .create (.select none (.text "b") .null),
      .create (.select none (.text "c") .null), .edit 1 (.union ⟨.distinct, some 2⟩),
      .edit 0 (.union ⟨.all, some 1⟩)]
    let core (table : String) := RowSet.core ("SELECT * FROM " ++ table)
    let rows := RowSet.combine .all (core "a") (.combine .distinct (core "b") (core "c"))
    (s.sql 0).toOption = some "SELECT * FROM a\nUNION ALL\nSELECT * FROM b\nUNION\nSELECT * FROM c" ∧
      SetToken.joined rows.write =
        "SELECT * FROM a\nUNION ALL\nSELECT * FROM b\nUNION\nSELECT * FROM c" ∧
      (s.rowSet 0).toOption = some rows ∧
      RowSet.read rows.write =
        some (.combine .distinct (.combine .all (core "a") (core "b")) (core "c")) ∧
      RowSet.read rows.write ≠ some rows := by
  refine ⟨?_, ?_, ?_, ?_, ?_⟩ <;> decide +kernel

end Store
end SqlComposer
