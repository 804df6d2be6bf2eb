import SqlComposer.Proofs.Tree.Written

/-! Statements written out as trees. Statements refer to each other, and many may refer to the same one.
Where none holds itself, each of them is a finite tree in which every reference has given way to a copy of
the statement that it leads to. Such a tree is read by a recursion over the tree alone, and a read that
follows the references gives the same as soon as it goes as deep as the tree does. -/

namespace SqlComposer
open Relation

/-- Reads parts, given what is read in the place of each of their references, one after the other. -/
def fillParts : List Part → List (Except Fault (List Chunk)) → Except Fault (List Chunk)
  | [], _ => .ok []
  | .chunk c :: ps, reads => do
    let cs ← fillParts ps reads
    return c :: cs
  | .statement _ :: _, [] => .error .unresolvedStatement
  | .statement _ :: ps, read :: reads => do
    let inner ← read
    let cs ← fillParts ps reads
    return inner ++ cs

theorem fillParts_references (expand : StatementId → Except Fault (List Chunk)) (ps : List Part) :
    fillParts ps ((referencesOf ps).map expand) = expandParts expand ps := by
  induction ps with
  | nil => rfl
  | cons p ps ih =>
    cases p with
    | chunk c => rw [referencesOf_chunk, fillParts, expandParts, ih]
    | statement id => rw [referencesOf_statement, List.map_cons, fillParts, expandParts, ih]

theorem bind_eq_bind {α β : Type} {x : Except Fault α} {f g : α → Except Fault β}
    (h : ∀ a, x = .ok a → f a = g a) : x >>= f = x >>= g := by
  cases x with
  | error e => rfl
  | ok a => exact h a rfl

/-- A statement with a tree in the place of each reference: those of its common tables, those of its
columns, and those of its other clauses in the order in which they are written. -/
inductive StatementTree where
  | node (st : Statement) (tables columns others : List StatementTree)

namespace StatementTree

mutual

def height : StatementTree → Nat
  | node _ tables columns others => max (heights tables) (max (heights columns) (heights others)) + 1

def heights : List StatementTree → Nat
  | [] => 0
  | t :: ts => max t.height (heights ts)

end

mutual

def read : StatementTree → Except Fault (List Chunk)
  | node st tables columns others => do
    let ps ← st.parts
    let cs ← fillParts ps (readAll tables ++ readAll columns ++ readAll others)
    st.whenWritable cs

def readAll : List StatementTree → List (Except Fault (List Chunk))
  | [] => []
  | t :: ts => t.read :: readAll ts

end

def readCount : StatementTree → Except Fault (List Chunk)
  | node st tables _ others => do
    let ps ← st.countParts
    fillParts ps (readAll tables ++ readAll others)

theorem height_pos (t : StatementTree) : 0 < t.height := by
  cases t
  exact Nat.succ_pos _

theorem heights_le {ts : List StatementTree} {n : Nat} : heights ts ≤ n ↔ ∀ t ∈ ts, t.height ≤ n := by
  induction ts with
  | nil => simp [heights]
  | cons t ts ih => rw [heights, Nat.max_le, ih, List.forall_mem_cons]

theorem height_node_le {st : Statement} {tables columns others : List StatementTree} {n : Nat} :
    (node st tables columns others).height ≤ n + 1 ↔
      (∀ t ∈ tables, t.height ≤ n) ∧ (∀ t ∈ columns, t.height ≤ n) ∧ ∀ t ∈ others, t.height ≤ n := by
  rw [height, Nat.add_le_add_iff_right, Nat.max_le, Nat.max_le, heights_le, heights_le, heights_le]

end StatementTree

namespace Store
open StatementTree
variable {s : Store} {id : StatementId} {t : StatementTree} {st : Statement}

/-- The tree is the statement as the store has it, with copies of what it refers to in the places of the
references. -/
inductive CopyOf (s : Store) : StatementTree → StatementId → Prop
  | node {id : StatementId} {st : Statement} {tables columns others : List StatementTree}
    (hst : s.get? id = some st)
    (htables : List.Forall₂ (CopyOf s) tables st.tableQueries)
    (hcolumns : List.Forall₂ (CopyOf s) columns st.columnQueries)
    (hothers : List.Forall₂ (CopyOf s) others st.otherQueries) :
    CopyOf s (.node st tables columns others) id

def countAt (s : Store) : Nat → StatementId → Except Fault (List Chunk)
  | 0, _ => .error .unresolvedStatement
  | depth + 1, id => do
    let st ← s.find id
    let ps ← st.countParts
    expandParts (s.expandAt depth) ps

theorem countChunks_eq_countAt (s : Store) (id : StatementId) :
    s.countChunks id = s.countAt (s.size + 1) id := rfl

theorem readAll_of_copies {ts : List StatementTree} {ids : List StatementId} {depth : Nat}
    (hcopies : List.Forall₂ s.CopyOf ts ids)
    (h : ∀ t ∈ ts, ∀ r, s.CopyOf t r → s.expandAt depth r = t.read) :
    readAll ts = ids.map (s.expandAt depth) := by
  induction hcopies with
  | nil => rfl
  | @cons t r ts ids hcopy _ ih =>
    obtain ⟨ht, hts⟩ := List.forall_mem_cons.1 h
    rw [readAll, List.map_cons, ht r hcopy, ih hts]

/-- A read that follows the references is a read of the copy, if it goes deep enough. -/
theorem CopyOf.expandAt_eq (h : s.CopyOf t id) {depth : Nat} (hdepth : t.height ≤ depth) :
    s.expandAt depth id = t.read := by
  induction depth generalizing t id with
  | zero => exact absurd hdepth (Nat.not_le.2 t.height_pos)
  | succ depth ih =>
    obtain @⟨_, st, tables, columns, others, hst, htables, hcolumns, hothers⟩ := h
    obtain ⟨hlowTables, hlowColumns, hlowOthers⟩ := height_node_le.1 hdepth
    rw [expandAt, find_eq_ok.2 hst, StatementTree.read,
      readAll_of_copies htables fun t ht r hr => ih hr (hlowTables t ht),
      readAll_of_copies hcolumns fun t ht r hr => ih hr (hlowColumns t ht),
      readAll_of_copies hothers fun t ht r hr => ih hr (hlowOthers t ht)]
    refine bind_eq_bind (x := st.parts) fun ps hps => ?_
    rw [← List.map_append, ← List.map_append, ← Statement.references_parts hps, fillParts_references]

theorem CopyOf.countAt_eq (h : s.CopyOf t id) {depth : Nat} (hdepth : t.height ≤ depth) :
    s.countAt depth id = t.readCount := by
  cases depth with
  | zero => exact absurd hdepth (Nat.not_le.2 t.height_pos)
  | succ depth =>
    obtain @⟨_, st, tables, columns, others, hst, htables, -, hothers⟩ := h
    obtain ⟨hlowTables, -, hlowOthers⟩ := height_node_le.1 hdepth
    rw [countAt, find_eq_ok.2 hst, readCount,
      readAll_of_copies htables fun t ht r hr => hr.expandAt_eq (hlowTables t ht),
      readAll_of_copies hothers fun t ht r hr => hr.expandAt_eq (hlowOthers t ht)]
    refine bind_eq_bind (x := st.countParts) fun ps hps => ?_
    rw [← List.map_append, ← Statement.references_countParts hps, fillParts_references]

theorem copies_unique {ts ts' : List StatementTree} {ids : List StatementId}
    (hcopies : List.Forall₂ s.CopyOf ts ids) (hcopies' : List.Forall₂ s.CopyOf ts' ids)
    (h : ∀ t ∈ ts, ∀ t' r, s.CopyOf t r → s.CopyOf t' r → t = t') : ts = ts' := by
  induction hcopies generalizing ts' with
  | nil =>
    cases hcopies'
    rfl
  | @cons t r ts ids hcopy _ ih =>
    obtain ⟨ht, hts⟩ := List.forall_mem_cons.1 h
    cases hcopies' with
    | @cons t' _ ts' _ hcopy' hcopies' => rw [ht t' r hcopy hcopy', ih hcopies' hts]

theorem CopyOf.unique (h : s.CopyOf t id) {t' : StatementTree} (h' : s.CopyOf t' id) : t = t' := by
  obtain ⟨n, hn⟩ : ∃ n, t.height ≤ n := ⟨_, Nat.le_refl _⟩
  induction n generalizing t t' id with
  | zero => exact absurd hn (Nat.not_le.2 t.height_pos)
  | succ n ih =>
    obtain ⟨hst, htables, hcolumns, hothers⟩ := h
    obtain ⟨hst', htables', hcolumns', hothers'⟩ := h'
    obtain ⟨hlowTables, hlowColumns, hlowOthers⟩ := height_node_le.1 hn
    cases hst.symm.trans hst'
    rw [copies_unique htables htables' fun t ht t' r hr hr' => ih hr hr' (hlowTables t ht),
      copies_unique hcolumns hcolumns' fun t ht t' r hr hr' => ih hr hr' (hlowColumns t ht),
      copies_unique hothers hothers' fun t ht t' r hr hr' => ih hr hr' (hlowOthers t ht)]

theorem exists_copies {ids : List StatementId} {n : Nat}
    (h : ∀ r ∈ ids, ∃ t, s.CopyOf t r ∧ t.height ≤ n) :
    ∃ ts, List.Forall₂ s.CopyOf ts ids ∧ ∀ t ∈ ts, t.height ≤ n := by
  induction ids with
  | nil => exact ⟨[], .nil, by simp⟩
  | cons r ids ih =>
    obtain ⟨hr, hids⟩ := List.forall_mem_cons.1 h
    obtain ⟨t, ht, hlow⟩ := hr
    obtain ⟨ts, hts, hlows⟩ := ih hids
    exact ⟨t :: ts, .cons ht hts, List.forall_mem_cons.2 ⟨hlow, hlows⟩⟩

/-- A statement that holds no circle can be written out, as a tree that is not deeper than there are
statements. -/
theorem Acyclic.exists_copy (h : s.Acyclic id) (hid : id < s.size) :
    ∃ t, s.CopyOf t id ∧ t.height ≤ s.size := by
  refine h.induction_size (P := fun r n => ∃ t, s.CopyOf t r ∧ t.height ≤ n) ?_ hid
  intro id n _ hid hinner
  obtain ⟨st, hst⟩ := Option.isSome_iff_exists.1 ((s.isSome_get? id).2 hid)
  have hheld (r : StatementId) (hr : r ∈ st.queries) : ∃ t, s.CopyOf t r ∧ t.height ≤ n :=
    hinner r ⟨st, hst, hr⟩
  obtain ⟨tables, htables, hlowTables⟩ :=
    exists_copies fun r hr => hheld r (Statement.mem_written.2 (.inl hr))
  obtain ⟨columns, hcolumns, hlowColumns⟩ :=
    exists_copies fun r hr => hheld r (Statement.mem_written.2 (.inr (.inl hr)))
  obtain ⟨others, hothers, hlowOthers⟩ :=
    exists_copies fun r hr => hheld r (Statement.mem_written.2 (.inr (.inr hr)))
  exact ⟨.node st tables columns others, .node hst htables hcolumns hothers,
    height_node_le.2 ⟨hlowTables, hlowColumns, hlowOthers⟩⟩

end Store
end SqlComposer
