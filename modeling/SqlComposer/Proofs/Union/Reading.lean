import SqlComposer.Clause.Union

/-! Reading unions. The two kinds bind equally and to the left, an order or a window at the end
belongs to everything before it, the tables of a WITH stand at the beginning and belong to everything
behind it, and only parentheses change that; a query up to its HAVING clause is not looked into. Rows
written with parentheses are always read back as they were, and rows written without any only if no
branch is more than such a query. -/

namespace SqlComposer

inductive RowSet where
  | core (sql : String)
  | combine (kind : UnionKind) (rows branch : RowSet)
  | ordered (sql : String) (rows : RowSet)
  | limited (sql : String) (rows : RowSet)
  /-- Rows of a query that the tables of a WITH belong to. -/
  | withTables (tables : String) (rows : RowSet)
  deriving DecidableEq, Repr

inductive SetToken where
  | tables (sql : String)
  | core (sql : String)
  | union (kind : UnionKind)
  | ordering (sql : String)
  | window (sql : String)
  | opening
  | closing
  deriving DecidableEq, Repr

def SetToken.text : SetToken → String
  | tables sql | core sql | ordering sql | window sql => sql
  | union kind => "\n" ++ kind.keyword ++ "\n"
  | opening => "("
  | closing => ")"

namespace RowSet

def attach : Option (RowSet × UnionKind) → RowSet → RowSet
  | none, branch => branch
  | some (rows, kind), branch => .combine kind rows branch

def within : Option String → RowSet → RowSet
  | none, rows => rows
  | some tables, rows => .withTables tables rows

end RowSet

/-- Where a reader stands: in front of an operand, or behind rows that may go on as a union, that
have their order, or that have their window. -/
inductive SetPosition where
  | operand (before : Option (RowSet × UnionKind))
  | chain (rows : RowSet)
  | ordered (rows : RowSet)
  | limited (rows : RowSet)
  deriving DecidableEq

def SetPosition.rows? : SetPosition → Option RowSet
  | operand _ => none
  | chain rows | ordered rows | limited rows => some rows

structure SetReader where
  /-- For every open parenthesis the tables and the rows that were read in front of it. -/
  outer : List (Option String × Option (RowSet × UnionKind))
  /-- The tables that were read behind the last open parenthesis. -/
  tables : Option String
  position : SetPosition
  deriving DecidableEq

namespace SetReader

def start : SetReader := ⟨[], none, .operand none⟩

def rows? (r : SetReader) : Option RowSet := r.position.rows?.map (.within r.tables)

def step (r : SetReader) (t : SetToken) : Option SetReader :=
  match t, r.position with
  | .tables sql, .operand none =>
    if r.tables = none then some { r with tables := some sql } else none
  | .core sql, .operand before => some { r with position := .chain (.attach before (.core sql)) }
  | .opening, .operand before => some ⟨(r.tables, before) :: r.outer, none, .operand none⟩
  | .union kind, .chain rows => some { r with position := .operand (some (rows, kind)) }
  | .ordering sql, .chain rows => some { r with position := .ordered (.ordered sql rows) }
  | .window sql, .chain rows | .window sql, .ordered rows =>
    some { r with position := .limited (.limited sql rows) }
  | .closing, _ =>
    match r.outer, r.rows? with
    | (tables, before) :: outer, some rows => some ⟨outer, tables, .chain (.attach before rows)⟩
    | _, _ => none
  | _, _ => none

def answer (r : SetReader) : Option RowSet :=
  match r.outer with
  | [] => r.rows?
  | _ :: _ => none

end SetReader

namespace RowSet

def read (ts : List SetToken) : Option RowSet :=
  (ts.foldlM SetReader.step .start).bind SetReader.answer

/-- Rows written one behind the other, as a chain of unions has them. -/
def write : RowSet → List SetToken
  | core sql => [.core sql]
  | combine kind rows branch => rows.write ++ .union kind :: branch.write
  | ordered sql rows => rows.write ++ [.ordering sql]
  | limited sql rows => rows.write ++ [.window sql]
  | withTables tables rows => .tables tables :: rows.write

def isCore : RowSet → Bool
  | core _ => true
  | _ => false

def isChain : RowSet → Bool
  | core _ | combine .. => true
  | _ => false

def isOrdered : RowSet → Bool
  | ordered .. => true
  | _ => false

def hasTables : RowSet → Bool
  | withTables .. => true
  | _ => false

def enclosed (bare : Bool) (ts : List SetToken) : List SetToken :=
  if bare then ts else .opening :: ts ++ [.closing]

def bracketed : RowSet → List SetToken
  | core sql => [.core sql]
  | combine kind rows branch =>
    enclosed rows.isChain rows.bracketed ++ .union kind :: enclosed branch.isCore branch.bracketed
  | ordered sql rows => enclosed rows.isChain rows.bracketed ++ [.ordering sql]
  | limited sql rows =>
    enclosed (rows.isChain || rows.isOrdered) rows.bracketed ++ [.window sql]
  | withTables tables rows => .tables tables :: enclosed (!rows.hasTables) rows.bracketed

def FlatChain : RowSet → Prop
  | core _ => True
  | combine _ rows branch => rows.FlatChain ∧ branch.isCore
  | _ => False

def FlatBody : RowSet → Prop
  | limited _ (ordered _ rows) | ordered _ rows | limited _ rows => rows.FlatChain
  | rows => rows.FlatChain

/-- Such a chain, with at most one WITH in front of it. -/
def Flat : RowSet → Prop
  | withTables _ rows => rows.FlatBody
  | rows => rows.FlatBody

def position (rows : RowSet) : SetPosition :=
  match rows with
  | core _ | combine .. | withTables .. => .chain rows
  | ordered .. => .ordered rows
  | limited .. => .limited rows

def behind (outer : List (Option String × Option (RowSet × UnionKind))) (tables : Option String) :
    RowSet → SetReader
  | withTables sql rows => ⟨outer, some sql, rows.position⟩
  | rows => ⟨outer, tables, rows.position⟩

variable {rows : RowSet} {outer : List (Option String × Option (RowSet × UnionKind))}
  {tables : Option String} {before : Option (RowSet × UnionKind)}

@[simp] theorem position_rows? (rows : RowSet) : rows.position.rows? = some rows := by
  cases rows <;> rfl

@[simp] theorem behind_rows? : (rows.behind outer none).rows? = some rows := by
  cases rows <;> simp [behind, SetReader.rows?, within]

@[simp] theorem behind_outer : (rows.behind outer tables).outer = outer := by
  cases rows <;> rfl

theorem behind_of_not_hasTables (h : rows.hasTables = false) :
    rows.behind outer tables = ⟨outer, tables, rows.position⟩ := by
  cases rows with
  | core | combine | ordered | limited => rfl
  | withTables => cases h

theorem behind_of_isChain (h : rows.isChain) :
    rows.behind outer tables = ⟨outer, tables, .chain rows⟩ := by
  cases rows with
  | core | combine => rfl
  | ordered | limited | withTables => cases h

theorem not_hasTables_of_isChain (h : rows.isChain) : rows.hasTables = false := by
  cases rows with
  | core | combine => rfl
  | ordered | limited | withTables => cases h

/-- Between parentheses rows are one operand, whatever was read in front of them. -/
theorem foldlM_parenthesised
    (h : rows.bracketed.foldlM SetReader.step ⟨(tables, before) :: outer, none, .operand none⟩ =
      some (rows.behind ((tables, before) :: outer) none)) :
    (SetToken.opening :: rows.bracketed ++ [SetToken.closing]).foldlM SetReader.step
      ⟨outer, tables, .operand before⟩ = some ⟨outer, tables, .chain (attach before rows)⟩ := by
  have hopening : SetReader.step ⟨outer, tables, .operand before⟩ .opening =
      some ⟨(tables, before) :: outer, none, .operand none⟩ := rfl
  have hclosing : (rows.behind ((tables, before) :: outer) none).step .closing =
      some ⟨outer, tables, .chain (attach before rows)⟩ := by
    simp [SetReader.step]
  rw [List.cons_append, List.foldlM_cons, hopening, Option.bind_eq_bind, Option.bind_some,
    List.foldlM_append, h, Option.bind_eq_bind, Option.bind_some, List.foldlM_cons, hclosing]
  rfl

theorem foldlM_bracketed (rows : RowSet)
    (outer : List (Option String × Option (RowSet × UnionKind))) (tables : Option String)
    (htables : tables = none ∨ rows.hasTables = false) :
    rows.bracketed.foldlM SetReader.step ⟨outer, tables, .operand none⟩ =
      some (rows.behind outer tables) := by
  have hchain {rows : RowSet}
      (h : ∀ outer tables, tables = none ∨ rows.hasTables = false →
        rows.bracketed.foldlM SetReader.step ⟨outer, tables, .operand none⟩ =
          some (rows.behind outer tables))
      (outer : List (Option String × Option (RowSet × UnionKind))) (tables : Option String) :
      (enclosed rows.isChain rows.bracketed).foldlM SetReader.step ⟨outer, tables, .operand none⟩ =
        some ⟨outer, tables, .chain rows⟩ := by
    unfold enclosed
    split
    · next hc => rw [h _ _ (.inr (not_hasTables_of_isChain hc)), behind_of_isChain hc]
    · exact foldlM_parenthesised (h _ _ (.inl rfl))
  -- Only a branch is read behind something, and a branch is a core or stands in parentheses.
  induction rows generalizing outer tables with
  | core sql => rfl
  | combine kind rows branch ihr ihb =>
    have hbranch : (enclosed branch.isCore branch.bracketed).foldlM SetReader.step
        ⟨outer, tables, .operand (some (rows, kind))⟩ =
          some ⟨outer, tables, .chain (combine kind rows branch)⟩ := by
      unfold enclosed
      split
      · next hc =>
        cases branch with
        | core sql => rfl
        | _ => cases hc
      · exact foldlM_parenthesised (ihb _ _ (.inl rfl))
    rw [bracketed, List.foldlM_append, hchain ihr]
    simp only [Option.bind_eq_bind, Option.bind_some, List.foldlM_cons, SetReader.step]
    exact hbranch
  | ordered sql rows ih =>
    rw [bracketed, List.foldlM_append, hchain ih]
    rfl
  | limited sql rows ih =>
    rw [bracketed, List.foldlM_append]
    by_cases hordered : rows.isOrdered
    · cases rows with
      | ordered by' rows =>
        rw [hordered, Bool.or_true, enclosed, if_pos rfl, ih _ _ (.inr rfl)]
        rfl
      | core | combine | limited | withTables => cases hordered
    · rw [Bool.eq_false_iff.2 hordered, Bool.or_false, hchain ih]
      rfl
  | withTables sql rows ih =>
    obtain rfl : tables = none := htables.resolve_right nofun
    have hstep : SetReader.step ⟨outer, none, .operand none⟩ (.tables sql) =
        some ⟨outer, some sql, .operand none⟩ := rfl
    rw [bracketed, List.foldlM_cons, hstep, Option.bind_eq_bind, Option.bind_some, behind]
    cases hrows : rows.hasTables with
    | false =>
      rw [Bool.not_false, enclosed, if_pos rfl, ih _ _ (.inr hrows), behind_of_not_hasTables hrows]
    | true =>
      cases rows with
      | withTables => exact foldlM_parenthesised (ih _ _ (.inl rfl))
      | core | combine | ordered | limited => cases hrows

theorem read_bracketed (rows : RowSet) : read rows.bracketed = some rows := by
  rw [read, SetReader.start, foldlM_bracketed rows [] none (.inl rfl), Option.bind_some,
    SetReader.answer, behind_outer]
  exact behind_rows?

theorem FlatChain.isChain (h : rows.FlatChain) : rows.isChain := by
  cases rows with
  | core | combine => rfl
  | ordered | limited | withTables => exact h.elim

theorem FlatBody.not_hasTables (h : rows.FlatBody) : rows.hasTables = false := by
  cases rows with
  | core | combine | ordered | limited => rfl
  | withTables => exact h.elim

theorem FlatChain.flatBody (h : rows.FlatChain) : rows.FlatBody := by
  cases rows with
  | core | combine => exact h
  | ordered | limited | withTables => exact h.elim

theorem FlatBody.flat (h : rows.FlatBody) : rows.Flat := by
  cases rows with
  | core | combine | ordered | limited => exact h
  | withTables => exact h.elim

theorem FlatChain.write_eq_bracketed (h : rows.FlatChain) : rows.write = rows.bracketed := by
  induction rows with
  | core sql => rfl
  | combine kind rows branch ihr ihb =>
    obtain ⟨hrows, hbranch⟩ := h
    cases branch with
    | core sql =>
      rw [write, bracketed, ihr hrows, hrows.isChain]
      rfl
    | combine | ordered | limited | withTables => cases hbranch
  | ordered | limited | withTables => exact h.elim

theorem FlatBody.write_eq_bracketed (h : rows.FlatBody) : rows.write = rows.bracketed := by
  cases rows with
  | core | combine => exact FlatChain.write_eq_bracketed h
  | ordered sql rows =>
    have hrows : rows.FlatChain := h
    rw [write, bracketed, hrows.write_eq_bracketed, hrows.isChain]
    rfl
  | limited sql rows =>
    cases rows with
    | ordered by' rows =>
      have hrows : rows.FlatChain := h
      rw [write, write, bracketed, bracketed, hrows.write_eq_bracketed, hrows.isChain]
      rfl
    | core | combine =>
      have hrows := FlatChain.write_eq_bracketed h
      rw [write, bracketed, hrows]
      rfl
    | limited | withTables => exact h.elim
  | withTables => exact h.elim

theorem Flat.write_eq_bracketed (h : rows.Flat) : rows.write = rows.bracketed := by
  cases rows with
  | core | combine | ordered | limited => exact FlatBody.write_eq_bracketed h
  | withTables tables rows =>
    have hrows : rows.FlatBody := h
    rw [write, bracketed, hrows.write_eq_bracketed, hrows.not_hasTables]
    rfl

def FlatPosition : SetPosition → Prop
  | .operand none => True
  | .operand (some (rows, _)) | .chain rows => rows.FlatChain
  | .ordered rows => ∃ sql chain, rows = ordered sql chain ∧ chain.FlatChain
  | .limited rows => rows.FlatBody

theorem FlatPosition.step {r r' : SetReader} {t : SetToken} (ht : t ≠ .opening)
    (ho : r.outer = []) (hp : FlatPosition r.position) (h : r.step t = some r') :
    r'.outer = [] ∧ FlatPosition r'.position := by
  obtain ⟨outer, tables, position⟩ := r
  obtain rfl : outer = [] := ho
  unfold SetReader.step at h
  split at h
  · split at h
    · cases h
      exact ⟨rfl, hp⟩
    · cases h
  · next before heq =>
    cases h
    obtain rfl : position = .operand before := heq
    cases before with
    | none => exact ⟨rfl, trivial⟩
    | some pair => exact ⟨rfl, hp, rfl⟩
  · exact absurd rfl ht
  · next heq =>
    cases h
    obtain rfl : position = _ := heq
    exact ⟨rfl, hp⟩
  · next heq =>
    cases h
    obtain rfl : position = _ := heq
    exact ⟨rfl, _, _, rfl, hp⟩
  · next rows heq =>
    cases h
    obtain rfl : position = _ := heq
    have hrows : rows.FlatChain := hp
    cases rows with
    | core | combine => exact ⟨rfl, hrows⟩
    | ordered | limited | withTables => exact hrows.elim
  · next heq =>
    cases h
    obtain rfl : position = _ := heq
    obtain ⟨sql, chain, rfl, hchain⟩ := hp
    exact ⟨rfl, hchain⟩
  · cases h
  · cases h

theorem FlatPosition.flatBody {p : SetPosition} (h : FlatPosition p) (hr : p.rows? = some rows) :
    rows.FlatBody := by
  cases p with
  | operand before => cases hr
  | chain chain =>
    cases hr
    exact FlatChain.flatBody h
  | ordered chain =>
    cases hr
    obtain ⟨sql, chain, rfl, hchain⟩ := h
    exact hchain
  | limited chain =>
    cases hr
    exact h

/-- Without parentheses only flat rows are read. -/
theorem flat_of_read {ts : List SetToken} (ht : SetToken.opening ∉ ts) (h : read ts = some rows) :
    rows.Flat := by
  have hrun (ts : List SetToken) (ht : SetToken.opening ∉ ts) (r r' : SetReader) (ho : r.outer = [])
      (hp : FlatPosition r.position) (h : ts.foldlM SetReader.step r = some r') :
      r'.outer = [] ∧ FlatPosition r'.position := by
    -- No parenthesis is ever open, so nothing but a core can follow a keyword.
    induction ts generalizing r with
    | nil =>
      cases h
      exact ⟨ho, hp⟩
    | cons t ts ih =>
      obtain ⟨hhead, htail⟩ := List.ne_and_not_mem_of_not_mem_cons ht
      rw [List.foldlM_cons, Option.bind_eq_bind, Option.bind_eq_some_iff] at h
      obtain ⟨next, hnext, h⟩ := h
      obtain ⟨ho', hp'⟩ := FlatPosition.step (Ne.symm hhead) ho hp hnext
      exact ih htail next ho' hp' h
  obtain ⟨r, hr, hanswer⟩ := Option.bind_eq_some_iff.1 h
  obtain ⟨ho, hp⟩ := hrun ts ht .start r rfl trivial hr
  rw [SetReader.answer, ho] at hanswer
  obtain ⟨body, hbody, rfl⟩ := Option.map_eq_some_iff.1 hanswer
  have hflat : body.FlatBody := hp.flatBody hbody
  cases r.tables with
  | none => exact hflat.flat
  | some tables => exact hflat

theorem opening_not_mem_write (rows : RowSet) : SetToken.opening ∉ rows.write := by
  induction rows with
  | core sql => simp [write]
  | combine kind rows branch ihr ihb => simp [write, ihr, ihb]
  | ordered sql rows ih => simp [write, ih]
  | limited sql rows ih => simp [write, ih]
  | withTables tables rows ih => simp [write, ih]

/-- Rows written one behind the other are read back as they were exactly if they are flat. -/
theorem read_write_iff (rows : RowSet) : read rows.write = some rows ↔ rows.Flat := by
  constructor
  · exact flat_of_read rows.opening_not_mem_write
  · intro h
    rw [h.write_eq_bracketed]
    exact rows.read_bracketed

end RowSet
end SqlComposer
