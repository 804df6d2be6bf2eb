import SqlComposer.Proofs.Placeholder.Program

/-! Statements inside others. An address leads from a statement to one that it embeds, at any depth:
it gives the position of a reference among the parts of each statement on the way. What is read at an
address stands in one piece between what is read in front of it and behind it, the text as well as the
values; and in aligned programs as many values lie in front of the piece as placeholders. -/

namespace SqlComposer
namespace Store
variable {s : Store} {id r : StatementId} {path : List Nat}

def partsOf (s : Store) (id : StatementId) : Except Fault (List Part) := do
  let st ← s.find id
  st.parts

def statementAt? (s : Store) (id : StatementId) : List Nat → Option StatementId
  | [] => some id
  | n :: path =>
    match (s.partsOf id).toOption.bind (·[n]?) with
    | some (.statement next) => s.statementAt? next path
    | _ => none

/-- What is read in front of the statement at an address, and what is read behind it. -/
def around (s : Store) (id : StatementId) : List Nat → Except Fault (List Chunk × List Chunk)
  | [] => .ok ([], [])
  | n :: path => do
    let ps ← s.partsOf id
    match ps[n]? with
    | some (.statement next) =>
      let ahead ← s.expand (ps.take n)
      let behind ← s.expand (ps.drop (n + 1))
      let (ahead', behind') ← s.around next path
      return (ahead ++ ahead', behind' ++ behind)
    | _ => .error .unresolvedStatement

theorem statementAt?_cons {n : Nat} (h : s.statementAt? id (n :: path) = some r) :
    ∃ ps next, s.partsOf id = .ok ps ∧ ps[n]? = some (.statement next) ∧
      s.statementAt? next path = some r := by
  rw [statementAt?] at h
  split at h
  · next next hnext =>
    obtain ⟨ps, hps, hn⟩ := Option.bind_eq_some_iff.1 hnext
    exact ⟨ps, next, eq_ok_of_toOption hps, hn, h⟩
  · cases h

theorem partsOf_eq_ok {ps : List Part} :
    s.partsOf id = .ok ps ↔ ∃ st, s.find id = .ok st ∧ st.parts = .ok ps := bind_eq_ok

theorem expand_of_chunks {ps : List Part} {cs : List Chunk} (hps : s.partsOf id = .ok ps)
    (h : s.chunks id = .ok cs) : s.expand ps = .ok cs := by
  obtain ⟨st, qs, hst, hqs, hread, -⟩ := chunks_eq_ok_of_parts h
  have hparts : s.partsOf id = .ok qs := partsOf_eq_ok.2 ⟨st, find_eq_ok.2 hst, hqs⟩
  rw [hps] at hparts
  cases hparts
  exact hread

theorem chunks_around {cs : List Chunk} (h : s.chunks id = .ok cs)
    (hr : s.statementAt? id path = some r) :
    ∃ ahead inner behind, s.around id path = .ok (ahead, behind) ∧ s.chunks r = .ok inner ∧
      cs = ahead ++ inner ++ behind := by
  -- Along the address: each step adds what stands around one reference.
  induction path generalizing id cs with
  | nil =>
    cases hr
    exact ⟨[], cs, [], rfl, h, by simp⟩
  | cons n path ih =>
    obtain ⟨ps, next, hps, hn, hr⟩ := statementAt?_cons hr
    have hsplit : ps = ps.take n ++ .statement next :: ps.drop (n + 1) := by
      obtain ⟨hlt, hget⟩ := List.getElem?_eq_some_iff.1 hn
      rw [← hget, List.getElem_cons_drop, List.take_append_drop]
    have hread := expand_of_chunks hps h
    rw [expand, hsplit, expandParts_append_eq_ok] at hread
    obtain ⟨ahead, rest, hahead, hrest, rfl⟩ := hread
    obtain ⟨own, behind, hown, hbehind, rfl⟩ := expandParts_statement_eq_ok.1 hrest
    obtain ⟨ahead', inner, behind', haround, hinner, rfl⟩ := ih hown hr
    refine ⟨ahead ++ ahead', inner, behind' ++ behind, ?_, hinner, by simp only [List.append_assoc]⟩
    have hahead : s.expand (ps.take n) = .ok ahead := hahead
    have hbehind : s.expand (ps.drop (n + 1)) = .ok behind := hbehind
    simp only [around, hps, hn, hahead, hbehind, haround, bind, Except.bind]
    rfl

/-- In every statement that a program of aligned calls leaves and that can be read, a statement at any
address is read as it is read by itself: its text in one piece, and its values in one piece, with as
many values in front of them as there are placeholders in front of its text. -/
theorem run_embedded_in_one_piece (cs : List Command) (hcs : ∀ c ∈ cs, c.Aligned) {text : String}
    (ht : (run cs).sql id = .ok text) (hr : (run cs).statementAt? id path = some r) :
    ∃ ahead behind inner ps, (run cs).around id path = .ok (ahead, behind) ∧
      (run cs).sql r = .ok inner ∧ (run cs).parameters r = .ok ps ∧
      text = chunksSql ahead ++ inner ++ chunksSql behind ∧
      (run cs).parameters id =
        .ok ⟨(chunksParameters ahead).values ++ ps.values ++ (chunksParameters behind).values⟩ ∧
      marks (chunksSql ahead) = (chunksParameters ahead).length ∧ marks inner = ps.length := by
  obtain ⟨chunks, hchunks, rfl⟩ := map_eq_ok.1 ht
  obtain ⟨ahead, inner, behind, haround, hinner, rfl⟩ := chunks_around hchunks hr
  have haligned : ∀ c ∈ ahead ++ inner ++ behind, c.Aligned :=
    (run_aligned hcs).expandAt _ id _ hchunks
  simp only [List.forall_mem_append] at haligned
  obtain ⟨⟨hahead, hinside⟩, -⟩ := haligned
  have hsql : (run cs).sql r = .ok (chunksSql inner) := map_eq_ok.2 ⟨inner, hinner, rfl⟩
  have hparameters : (run cs).parameters r = .ok (chunksParameters inner) :=
    map_eq_ok.2 ⟨inner, hinner, rfl⟩
  refine ⟨ahead, behind, _, _, haround, hsql, hparameters, ?_, ?_, ?_, ?_⟩
  · rw [chunksSql_append, chunksSql_append]
  · refine map_eq_ok.2 ⟨_, hchunks, ?_⟩
    rw [chunksParameters_append, chunksParameters_append]
  · exact (chunks_align Value.shown hahead).1
  · exact (chunks_align Value.shown hinside).1

theorem query_in_joined_query :
    let program : List Command := [
      .create (.select none (.text "t") .null),
      .create (.select none (.text "v") .null),
      .create (.update (some ⟨.mysql, "mysql", 8, .snake⟩) (.text "u") .null),
      .edit 2 (.commonTable ⟨.text "w", some 0, .text "", false⟩),
      .edit 2 (.join (.query (.choice .left) (some 1) (.text "j") (.text "j.x = ?") [.int 7])),
      .edit 1 (.filter (.memberOf false (.text "id") (some 0) (.choice .and))),
      .edit 0 (.filter (.compare .gt (.text "n") (.int 5) (.choice .and)))]
    let text := "WITH w AS (\nSELECT * FROM t WHERE n > ?\n)\nUPDATE u LEFT JOIN " ++
      "(SELECT * FROM v WHERE id IN (SELECT * FROM t WHERE n > ?)) AS j ON j.x = ?"
    ∃ ahead behind inner ps, (run program).around 2 [9, 6] = .ok (ahead, behind) ∧
      (run program).sql 0 = .ok inner ∧ (run program).parameters 0 = .ok ps ∧
      text = chunksSql ahead ++ inner ++ chunksSql behind ∧
      (run program).parameters 2 =
        .ok ⟨(chunksParameters ahead).values ++ ps.values ++ (chunksParameters behind).values⟩ ∧
      marks (chunksSql ahead) = (chunksParameters ahead).length ∧ marks inner = ps.length := by
  intro program text
  have haligned : ∀ c ∈ program, c.Aligned := by
    simp only [program, List.forall_mem_cons]
    refine ⟨⟨Value.unmarked_text (by decide), by decide⟩, ⟨Value.unmarked_text (by decide), by decide⟩,
      ⟨Value.unmarked_text (by decide), by decide⟩, Value.unmarked_text (by decide),
      ⟨Value.unmarked_text (by decide), by decide, nofun⟩, Value.unmarked_text (by decide),
      Value.unmarked_text (by decide), fun c hc => absurd hc List.not_mem_nil⟩
  have htext : (run program).sql 2 = .ok text := eq_ok_of_toOption (by decide +kernel)
  have hplace : (run program).statementAt? 2 [9, 6] = some 0 := by decide +kernel
  exact run_embedded_in_one_piece program haligned htext hplace

end Store
end SqlComposer
