import SqlComposer.Proofs.Placeholder.Statement
import SqlComposer.Proofs.Program

/-! Alignment of programs. Calls whose texts bring a placeholder for each of their values lead only to
aligned statements, whatever the order of the calls, the dialects and the references; so in every
statement that can be read, the values in the order of the placeholders go to the texts that they were
given with. -/

namespace SqlComposer

def Creation.Aligned : Creation → Prop
  | select _ table asName | update _ table asName | delete _ table asName =>
    table.Unmarked ∧ asName.optionalMarks = 0
  | selectFrom _ _ asName => asName.Unmarked
  | insert _ table => table.Unmarked

def Command.Aligned : Command → Prop
  | create c => c.Aligned
  | edit _ e => e.Aligned

namespace Store
variable {s : Store} {cs : List Command}

def Aligned (s : Store) : Prop := ∀ st ∈ s.statements, st.Aligned

theorem ensures_statementOf (s : Store) {c : Creation} (hc : c.Aligned) :
    Ensures (s.statementOf c) Statement.Aligned := by
  cases c with
  | select d table asName => exact Statement.ensures_select _ hc.1 hc.2
  | selectFrom d query asName =>
    exact (ensures_any _).bind fun q _ => Statement.ensures_selectFrom _ _ hc
  | insert d table => exact Statement.ensures_insert _ hc
  | update d table asName => exact Statement.ensures_update _ hc.1 hc.2
  | delete d table asName => exact Statement.ensures_delete _ hc.1 hc.2

theorem Aligned.perform (h : s.Aligned) {c : Command} (hc : c.Aligned) : (s.perform c).Aligned := by
  apply perform_forall h
  · rintro k rfl st hst
    exact ensures_statementOf s hc st hst
  · rintro id e rfl st hst
    exact hst.edit hc

theorem Aligned.foldl_perform (h : s.Aligned) (hcs : ∀ c ∈ cs, c.Aligned) :
    (cs.foldl Store.perform s).Aligned := by
  induction cs generalizing s with
  | nil => exact h
  | cons c cs ih =>
    obtain ⟨hc, hcs⟩ := List.forall_mem_cons.1 hcs
    exact ih (h.perform hc) hcs

theorem run_aligned (hcs : ∀ c ∈ cs, c.Aligned) : (run cs).Aligned :=
  Aligned.foldl_perform (fun _ h => absurd h List.not_mem_nil) hcs

theorem Aligned.expandAt (h : s.Aligned) (depth : Nat) (id : StatementId) :
    Ensures (s.expandAt depth id) fun chunks => ∀ c ∈ chunks, c.Aligned := by
  -- On the depth alone: references may lead anywhere, also to statements that were made later.
  induction depth generalizing id with
  | zero => exact ensures_error _
  | succ depth ih =>
    have hfind : Ensures (s.find id) Statement.Aligned := fun st hst => h st (find_mem hst)
    refine hfind.bind fun st hst => hst.parts.bind fun ps hps => ?_
    have hread : Ensures (expandParts (s.expandAt depth) ps) fun chunks => ∀ c ∈ chunks, c.Aligned :=
      fun chunks hchunks => expandParts_aligned ih hps hchunks
    refine hread.bind fun chunks hchunks _ h => ?_
    obtain ⟨-, rfl⟩ := Statement.whenWritable_eq_ok.1 h
    exact hchunks

theorem Aligned.countChunks (h : s.Aligned) (id : StatementId) :
    Ensures (s.countChunks id) fun chunks => ∀ c ∈ chunks, c.Aligned := by
  have hfind : Ensures (s.find id) Statement.Aligned := fun st hst => h st (find_mem hst)
  refine hfind.bind fun st hst => hst.countParts.bind fun ps hps => ?_
  exact fun chunks hchunks => expandParts_aligned (h.expandAt s.size) hps hchunks

variable (shown : Value → String)

theorem countWritten_eq_countChunks (s : Store) (id : StatementId) :
    s.countWritten shown id =
      (s.countChunks id).map fun cs => cs.flatMap (Chunk.written shown) := by
  rw [countWritten, countChunks]
  cases s.find id with
  | error f => rfl
  | ok st =>
    cases hps : st.countParts with
    | error f => simp [bind, Except.bind, Except.map, hps]
    | ok ps =>
      have h := writeParts_eq_expandParts shown (s.writtenAt_eq_expandAt shown s.size) ps
      simpa [bind, Except.bind, hps, expand] using h

/-- Reading chunks that are aligned: the text has as many placeholders as there are values, and the
values in their order fill in what was written with each text. -/
theorem read_chunks {chunks : Except Fault (List Chunk)}
    (h : Ensures chunks fun cs => ∀ c ∈ cs, c.Aligned) {text : String}
    (ht : chunks.map chunksSql = .ok text) :
    ∃ ps, chunks.map chunksParameters = .ok ps ∧ marks text = ps.length ∧
      chunks.map (fun cs => cs.flatMap (Chunk.written shown)) =
        .ok (substitute shown text.toList ps.values) := by
  obtain ⟨cs, rfl, rfl⟩ := map_eq_ok.1 ht
  obtain ⟨hmarks, hwritten⟩ := chunks_align shown (h cs rfl)
  exact ⟨chunksParameters cs, rfl, hmarks, congrArg Except.ok hwritten.symm⟩

/-- In every statement that a program of aligned calls leaves and that can be read, there are as many
values as placeholders, and putting the values into the placeholders writes each of them where the
call that gave it put its placeholder. The same holds of the query that counts its rows. Within the
expression of a JSON column, every change has its own values. -/
theorem run_substitute (cs : List Command) (hcs : ∀ c ∈ cs, c.Aligned) (id : StatementId) :
    (∀ text, (run cs).sql id = .ok text → ∃ ps, (run cs).parameters id = .ok ps ∧
      marks text = ps.length ∧
      (run cs).written shown id = .ok (substitute shown text.toList ps.values)) ∧
    (∀ text, (run cs).countSql id = .ok text → ∃ ps, (run cs).countParameters id = .ok ps ∧
      marks text = ps.length ∧
      (run cs).countWritten shown id = .ok (substitute shown text.toList ps.values)) ∧
    ∀ f t column, marks column = 0 → ∀ changes : List Json.Change, (∀ c ∈ changes, c.Plain) →
      ∀ r, (Json.Revision.start f t column).applyAll changes = .ok r →
        marks r.render.1 = r.render.2.length ∧
        changes.foldlM (Json.Change.write? shown f t) column.toList =
          some (substitute shown r.render.1.toList r.render.2) := by
  have h := run_aligned hcs
  refine ⟨fun text ht => ?_, fun text ht => ?_, fun f t column hc changes hchanges r hr => ?_⟩
  · rw [written, writtenAt_eq_expandAt]
    exact read_chunks shown (h.expandAt _ id) ht
  · rw [countWritten_eq_countChunks]
    exact read_chunks shown (h.countChunks id) ht
  · obtain ⟨last, hlast, hw⟩ := (Json.Revision.writes_start hc).applyAll hchanges hr
    rw [Json.Revision.render_eq_nested, marks, String.toList_ofList]
    exact ⟨hw.1, hlast.trans (congrArg some hw.2.symm)⟩

theorem run_substitute_update :
    let program : List Command := [
      .create (.select none (.text "t") .null),
      .create (.update none (.text "u") .null),
      .edit 1 (.filter (.memberOf false (.text "id") (some 0) (.choice .and))),
      .edit 0 (.filter (.compare .gt (.text "n") (.int 5) (.choice .and))),
      .edit 1 (.set (.revise .jsonb (.text "p") [.merge (.int 1), .prependArray (.int 2)])),
      .edit 1 (.column .star)]
    let text := "UPDATE u SET p = ?::jsonb || p || ?::jsonb WHERE id IN (SELECT * FROM t WHERE n > ?)"
    ∃ ps, (run program).parameters 1 = .ok ps ∧ marks text = ps.length ∧
      (run program).written Value.shown 1 = .ok (substitute Value.shown text.toList ps.values) := by
  intro program text
  have haligned : ∀ c ∈ program, c.Aligned := by
    simp only [program, List.forall_mem_cons]
    refine ⟨⟨Value.unmarked_text (by decide), by decide⟩, ⟨Value.unmarked_text (by decide), by decide⟩,
      Value.unmarked_text (by decide), Value.unmarked_text (by decide),
      ⟨Value.unmarked_text (by decide), ?_⟩, trivial, fun c hc => absurd hc List.not_mem_nil⟩
    rintro c hc op vs h k hk
    simp only [List.mem_cons, List.not_mem_nil, or_false] at hc
    rcases hc with rfl | rfl <;> cases h <;> cases hk
  have htext : (run program).sql 1 = .ok text := by
    -- Texts can be compared by evaluation, faults cannot.
    have h : ((run program).sql 1).toOption = some text := by decide +kernel
    cases hsql : (run program).sql 1 with
    | ok t =>
      rw [hsql] at h
      exact congrArg _ (Option.some.inj h)
    | error f =>
      rw [hsql] at h
      cases h
  exact (run_substitute Value.shown program haligned 1).1 text htext

end Store
end SqlComposer
