import SqlComposer.Store

/-! Reading parts: what is read of parts one behind the other is read of each, and a statement that can
be read at some depth reads the same at every greater one. -/

namespace SqlComposer

theorem chunksSql_append (cs ds : List Chunk) : chunksSql (cs ++ ds) = chunksSql cs ++ chunksSql ds := by
  induction cs with
  | nil => simp [chunksSql]
  | cons c cs ih => rw [List.cons_append, chunksSql, chunksSql, ih, String.append_assoc]

theorem chunksParameters_values (cs : List Chunk) :
    (chunksParameters cs).values = cs.flatMap Chunk.values := by
  have h (p : Parameters) (cs : List Chunk) :
      (cs.foldl (fun p c => p.append c.values) p).values = p.values ++ cs.flatMap Chunk.values := by
    -- The values are collected from the left, so those there are already stay in front.
    induction cs generalizing p with
    | nil => simp
    | cons c cs ih => rw [List.foldl_cons, ih, List.flatMap_cons, Parameters.append, List.append_assoc]
  rw [chunksParameters, h]
  simp [Parameters.empty]

theorem chunksParameters_cons (c : Chunk) (cs : List Chunk) :
    (chunksParameters (c :: cs)).values = c.values ++ (chunksParameters cs).values := by
  rw [chunksParameters_values, chunksParameters_values, List.flatMap_cons]

theorem chunksParameters_append (cs ds : List Chunk) :
    chunksParameters (cs ++ ds) =
      ⟨(chunksParameters cs).values ++ (chunksParameters ds).values⟩ := by
  have h : (chunksParameters (cs ++ ds)).values =
      (chunksParameters cs).values ++ (chunksParameters ds).values := by
    simp only [chunksParameters_values, List.flatMap_append]
  exact congrArg Parameters.mk h

variable {expand : StatementId → Except Fault (List Chunk)}

theorem expandParts_append (ps qs : List Part) :
    expandParts expand (ps ++ qs) = do
      let as ← expandParts expand ps
      let bs ← expandParts expand qs
      return as ++ bs := by
  induction ps with
  | nil =>
    rw [List.nil_append, expandParts]
    cases expandParts expand qs <;> rfl
  | cons p ps ih =>
    cases p with
    | chunk c =>
      rw [List.cons_append, expandParts, expandParts, ih]
      cases expandParts expand ps with
      | error f => rfl
      | ok as => cases expandParts expand qs <;> rfl
    | statement id =>
      rw [List.cons_append, expandParts, expandParts, ih]
      cases expand id with
      | error f => rfl
      | ok inner =>
        cases expandParts expand ps with
        | error f => rfl
        | ok as =>
          cases expandParts expand qs with
          | error f => rfl
          | ok bs => exact congrArg Except.ok (List.append_assoc inner as bs).symm

theorem expandParts_append_eq_ok {ps qs : List Part} {cs : List Chunk} :
    expandParts expand (ps ++ qs) = .ok cs ↔
      ∃ as bs, expandParts expand ps = .ok as ∧ expandParts expand qs = .ok bs ∧ cs = as ++ bs := by
  rw [expandParts_append, bind_eq_ok]
  constructor
  · rintro ⟨as, has, h⟩
    obtain ⟨bs, hbs, ⟨⟩⟩ := bind_eq_ok.1 h
    exact ⟨as, bs, has, hbs, rfl⟩
  · rintro ⟨as, bs, has, hbs, rfl⟩
    exact ⟨as, has, bind_eq_ok.2 ⟨bs, hbs, rfl⟩⟩

theorem expandParts_statement_eq_ok {id : StatementId} {ps : List Part} {cs : List Chunk} :
    expandParts expand (.statement id :: ps) = .ok cs ↔
      ∃ inner rest, expand id = .ok inner ∧ expandParts expand ps = .ok rest ∧ cs = inner ++ rest := by
  simp only [expandParts, bind_eq_ok]
  constructor
  · rintro ⟨inner, hinner, rest, hrest, ⟨⟩⟩
    exact ⟨inner, rest, hinner, hrest, rfl⟩
  · rintro ⟨inner, rest, hinner, hrest, rfl⟩
    exact ⟨inner, hinner, rest, hrest, rfl⟩

theorem expandParts_eq_ok_mem {ps : List Part} {cs : List Chunk} (h : expandParts expand ps = .ok cs) {id : StatementId}
    (hid : .statement id ∈ ps) : ∃ inner, expand id = .ok inner := by
  obtain ⟨before, behind, rfl⟩ := List.append_of_mem hid
  obtain ⟨-, bs, -, hbs, -⟩ := expandParts_append_eq_ok.1 h
  obtain ⟨inner, -, hinner, -⟩ := expandParts_statement_eq_ok.1 hbs
  exact ⟨inner, hinner⟩

theorem expandParts_of_forall {ps : List Part}
    (h : ∀ id, Part.statement id ∈ ps → ∃ inner, expand id = .ok inner) :
    ∃ cs, expandParts expand ps = .ok cs := by
  induction ps with
  | nil => exact ⟨[], rfl⟩
  | cons p ps ih =>
    obtain ⟨rest, hrest⟩ := ih fun id hid => h id (List.mem_cons_of_mem _ hid)
    cases p with
    | chunk c => exact ⟨c :: rest, bind_eq_ok.2 ⟨rest, hrest, rfl⟩⟩
    | statement id =>
      obtain ⟨inner, hinner⟩ := h id List.mem_cons_self
      exact ⟨inner ++ rest, expandParts_statement_eq_ok.2 ⟨inner, rest, hinner, hrest, rfl⟩⟩

theorem expandParts_congr {expand' : StatementId → Except Fault (List Chunk)} {ps : List Part}
    (h : ∀ id, Part.statement id ∈ ps → expand' id = expand id) :
    expandParts expand' ps = expandParts expand ps := by
  induction ps with
  | nil => rfl
  | cons p ps ih =>
    have hrest := ih fun id hid => h id (List.mem_cons_of_mem _ hid)
    cases p with
    | chunk c => rw [expandParts, expandParts, hrest]
    | statement id => rw [expandParts, expandParts, hrest, h id List.mem_cons_self]

theorem expandParts_mono {expand' : StatementId → Except Fault (List Chunk)}
    (h : ∀ id cs, expand id = .ok cs → expand' id = .ok cs) {ps : List Part} {cs : List Chunk}
    (hps : expandParts expand ps = .ok cs) : expandParts expand' ps = .ok cs := by
  induction ps generalizing cs with
  | nil => exact hps
  | cons p ps ih =>
    cases p with
    | chunk c =>
      obtain ⟨rest, hrest, hcs⟩ := bind_eq_ok.1 hps
      exact bind_eq_ok.2 ⟨rest, ih hrest, hcs⟩
    | statement id =>
      obtain ⟨inner, rest, hinner, hrest, hcs⟩ := expandParts_statement_eq_ok.1 hps
      exact expandParts_statement_eq_ok.2 ⟨inner, rest, h id inner hinner, ih hrest, hcs⟩

namespace Store
variable {s : Store} {id : StatementId} {cs : List Chunk}

theorem find_eq_ok {st : Statement} : s.find id = .ok st ↔ s.get? id = some st := by
  unfold find
  cases s.get? id <;> simp

theorem isSome_get? (s : Store) (id : StatementId) : (s.get? id).isSome ↔ id < s.size := by
  simp [get?, size]

theorem expandAt_succ_eq_ok {depth : Nat} :
    s.expandAt (depth + 1) id = .ok cs ↔
      ∃ st ps, s.get? id = some st ∧ st.parts = .ok ps ∧
        expandParts (s.expandAt depth) ps = .ok cs ∧ st.isWritable := by
  simp only [expandAt, bind_eq_ok, find_eq_ok]
  constructor
  · rintro ⟨st, hst, ps, hps, read, hread, h⟩
    obtain ⟨hw, rfl⟩ := Statement.whenWritable_eq_ok.1 h
    exact ⟨st, ps, hst, hps, hread, hw⟩
  · rintro ⟨st, ps, hst, hps, hread, hw⟩
    exact ⟨st, hst, ps, hps, cs, hread, Statement.whenWritable_eq_ok.2 ⟨hw, rfl⟩⟩

theorem expandAt_of_parts {st : Statement} (hst : s.get? id = some st) {ps : List Part}
    (hps : st.parts = .ok ps) {depth : Nat} (h : expandParts (s.expandAt depth) ps = .ok cs) :
    s.expandAt (depth + 1) id = st.whenWritable cs := by
  rw [expandAt, find_eq_ok.2 hst]
  simp only [bind, Except.bind, hps, h]

theorem expandAt_succ {depth : Nat} (h : s.expandAt depth id = .ok cs) :
    s.expandAt (depth + 1) id = .ok cs := by
  induction depth generalizing id cs with
  | zero => cases h
  | succ depth ih =>
    obtain ⟨st, ps, hst, hps, hread, hw⟩ := expandAt_succ_eq_ok.1 h
    exact expandAt_succ_eq_ok.2 ⟨st, ps, hst, hps, expandParts_mono (fun _ _ => ih) hread, hw⟩

theorem chunks_eq_ok_of_parts (h : s.chunks id = .ok cs) :
    ∃ st ps, s.get? id = some st ∧ st.parts = .ok ps ∧ s.expand ps = .ok cs ∧ st.isWritable :=
  expandAt_succ_eq_ok.1 (expandAt_succ h)

end Store
end SqlComposer
