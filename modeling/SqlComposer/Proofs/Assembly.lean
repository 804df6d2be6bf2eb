import SqlComposer.Proofs.Expansion

/-! Assembling a statement in two passes. The texts of the parts are put together first and their values are
collected afterwards; in either pass a part asks the statement that it refers to. Both passes go over the same
parts, so they give what one read of chunks gives, in which every text still has its values beside it. -/

namespace SqlComposer

def Part.render (sql : StatementId → Except Fault String) : Part → Except Fault String
  | chunk c => .ok c.text
  | statement id => sql id

def Part.values (parameters : StatementId → Except Fault Parameters) : Part → Except Fault (List Value)
  | chunk c => .ok c.values
  | statement id => (parameters id).map Parameters.values

def renderParts (sql : StatementId → Except Fault String) (ps : List Part) : Except Fault String :=
  (ps.mapM (Part.render sql)).map String.join

def collectParts (parameters : StatementId → Except Fault Parameters) (sink : Parameters) (ps : List Part) :
    Except Fault Parameters :=
  ps.foldlM (fun sink p => (p.values parameters).map sink.append) sink

namespace Store

/-- The two passes over a statement, whose references are followed down to a depth. The numbers of the window
are written at the end of the first. -/
def assembleAt (s : Store) : Nat → StatementId → Except Fault (String × Parameters)
  | 0, _ => .error .unresolvedStatement
  | depth + 1, id => do
    let st ← s.find id
    let ps ← st.parts
    let text ← renderParts (fun id => (s.assembleAt depth id).map Prod.fst) ps
    let sql ← st.whenWritable text
    let parameters ← collectParts (fun id => (s.assembleAt depth id).map Prod.snd) .empty ps
    return (sql, parameters)

def assemble (s : Store) (id : StatementId) : Except Fault (String × Parameters) :=
  s.assembleAt s.size id

def assembleCount (s : Store) (id : StatementId) : Except Fault (String × Parameters) := do
  let st ← s.find id
  let ps ← st.countParts
  let sql ← renderParts (fun id => (s.assemble id).map Prod.fst) ps
  let parameters ← collectParts (fun id => (s.assemble id).map Prod.snd) .empty ps
  return (sql, parameters)

end Store

section Parts
variable {expand : StatementId → Except Fault (List Chunk)}

theorem renderParts_eq_expandParts {sql : StatementId → Except Fault String}
    (h : ∀ id, sql id = (expand id).map chunksSql) (ps : List Part) :
    renderParts sql ps = (expandParts expand ps).map chunksSql := by
  induction ps with
  | nil => rfl
  | cons p ps ih =>
    have hcons : renderParts sql (p :: ps) = do
        let t ← p.render sql
        let rest ← renderParts sql ps
        return t ++ rest := by
      rw [renderParts, renderParts, List.mapM_cons]
      cases p.render sql with
      | error f => rfl
      | ok t =>
        cases ps.mapM (Part.render sql) with
        | error f => rfl
        | ok ts => exact congrArg Except.ok String.join_cons
    rw [hcons, ih]
    cases p with
    | chunk c =>
      rw [expandParts]
      cases expandParts expand ps <;> rfl
    | statement id =>
      rw [expandParts, Part.render, h]
      cases expand id with
      | error f => rfl
      | ok inner =>
        cases expandParts expand ps with
        | error f => rfl
        | ok cs => exact congrArg Except.ok (chunksSql_append inner cs).symm

theorem collectParts_eq_expandParts {parameters : StatementId → Except Fault Parameters}
    (h : ∀ id, parameters id = (expand id).map chunksParameters) (sink : Parameters) (ps : List Part) :
    collectParts parameters sink ps =
      (expandParts expand ps).map fun cs => sink.append (chunksParameters cs).values := by
  induction ps generalizing sink with
  | nil => exact congrArg (fun vs => Except.ok (Parameters.mk vs)) (List.append_nil sink.values).symm
  | cons p ps ih =>
    have hcons : collectParts parameters sink (p :: ps) =
        (p.values parameters).bind fun vs => collectParts parameters (sink.append vs) ps := by
      rw [collectParts, List.foldlM_cons]
      cases p.values parameters <;> rfl
    rw [hcons]
    simp only [ih]
    cases p with
    | chunk c =>
      rw [expandParts]
      cases expandParts expand ps with
      | error f => rfl
      | ok cs => simp [Part.values, Except.bind, Except.map, bind, pure, Except.pure, Parameters.append,
          chunksParameters_cons]
    | statement id =>
      rw [expandParts, Part.values, h]
      cases expand id with
      | error f => rfl
      | ok inner =>
        cases expandParts expand ps with
        | error f => rfl
        | ok cs => simp [Except.bind, Except.map, bind, pure, Except.pure, Parameters.append,
            chunksParameters_append]

end Parts

def textAndValues (cs : List Chunk) : String × Parameters := (chunksSql cs, chunksParameters cs)

theorem passes_eq_expandParts {expand : StatementId → Except Fault (List Chunk)}
    {assembled : StatementId → Except Fault (String × Parameters)}
    (h : ∀ id, assembled id = (expand id).map textAndValues) (write : String → Except Fault String)
    (ps : List Part) :
    (do
      let text ← renderParts (fun id => (assembled id).map Prod.fst) ps
      let sql ← write text
      let parameters ← collectParts (fun id => (assembled id).map Prod.snd) .empty ps
      return (sql, parameters)) = do
      let cs ← expandParts expand ps
      let sql ← write (chunksSql cs)
      return (sql, chunksParameters cs) := by
  have hsql : ∀ id, (assembled id).map Prod.fst = (expand id).map chunksSql := fun id => by
    rw [h]
    cases expand id <;> rfl
  have hparameters : ∀ id, (assembled id).map Prod.snd = (expand id).map chunksParameters := fun id => by
    rw [h]
    cases expand id <;> rfl
  rw [renderParts_eq_expandParts hsql, collectParts_eq_expandParts hparameters]
  cases expandParts expand ps with
  | error f => rfl
  | ok cs => cases write (chunksSql cs) <;> rfl

namespace Store

theorem assembleAt_eq_expandAt (s : Store) (depth : Nat) (id : StatementId) :
    s.assembleAt depth id = (s.expandAt depth id).map textAndValues := by
  induction depth generalizing id with
  | zero => rfl
  | succ depth ih =>
    rw [assembleAt, expandAt]
    cases s.find id with
    | error f => rfl
    | ok st =>
      cases hps : st.parts with
      | error f => simp [bind, Except.bind, Except.map, hps]
      | ok ps =>
        simp only [bind, Except.bind, hps]
        refine (passes_eq_expandParts ih st.whenWritable ps).trans ?_
        cases expandParts (s.expandAt depth) ps with
        | error f => rfl
        | ok cs =>
          change (st.whenWritable (chunksSql cs)).map (fun sql => (sql, chunksParameters cs)) = _
          rw [st.map_whenWritable, st.map_whenWritable]
          rfl

variable (s : Store) (id : StatementId)

/-- What a statement is handed out as comes from the two passes. -/
theorem read_eq_assemble :
    s.sql id = (s.assemble id).map Prod.fst ∧ s.parameters id = (s.assemble id).map Prod.snd ∧
      s.build id = do
        let st ← s.find id
        let (sql, parameters) ← s.assemble id
        return ⟨sql, parameters, st.dialect.name⟩ := by
  have hread : s.assemble id = (s.chunks id).map textAndValues := s.assembleAt_eq_expandAt s.size id
  rw [hread, sql, parameters, build]
  cases s.chunks id with
  | error f => exact ⟨rfl, rfl, rfl⟩
  | ok cs => exact ⟨rfl, rfl, rfl⟩

theorem count_eq_assembleCount :
    s.countSql id = (s.assembleCount id).map Prod.fst ∧
      s.countParameters id = (s.assembleCount id).map Prod.snd ∧
      s.buildCount id = do
        let st ← s.find id
        let (sql, parameters) ← s.assembleCount id
        return ⟨sql, parameters, st.dialect.name⟩ := by
  have hread : s.assembleCount id = (s.countChunks id).map textAndValues := by
    rw [assembleCount, countChunks]
    cases s.find id with
    | error f => rfl
    | ok st =>
      cases hps : st.countParts with
      | error f => simp [bind, Except.bind, Except.map, hps]
      | ok ps =>
        simp only [bind, Except.bind, hps]
        refine (passes_eq_expandParts (s.assembleAt_eq_expandAt s.size) .ok ps).trans ?_
        rw [expand]
        cases expandParts (s.expandAt s.size) ps <;> rfl
  rw [hread, countSql, countParameters, buildCount]
  cases s.countChunks id with
  | error f => exact ⟨rfl, rfl, rfl⟩
  | ok cs => exact ⟨rfl, rfl, rfl⟩

end Store
end SqlComposer
