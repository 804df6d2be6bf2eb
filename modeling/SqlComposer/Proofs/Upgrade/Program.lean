import SqlComposer.Proofs.Upgrade.Version

/-! Upgrading PostgreSQL. A program whose calls are all accepted is run again, with a later version for some
of its statements. Beside both runs stands a third one: it has the old versions, and assigns in place of
each UUID the expression of the new one. It differs from the first run in the spelling alone, and from the
second one in the versions alone, which no read depends on. -/

namespace SqlComposer.Store
variable {r s t : Store} {id : StatementId} {st su : Statement} {cs ds : List Command}

def uuidText (s : Store) (id : StatementId) : String :=
  ((s.get? id).map (·.dialect.uuidText)).getD ""

theorem dialect_perform (hst : s.get? id = some st) (c : Command) :
    ∃ st', (s.perform c).get? id = some st' ∧ st'.dialect = st.dialect := by
  cases c with
  | create c =>
    rw [perform, create]
    cases s.statementOf c with
    | error f => exact ⟨st, hst, rfl⟩
    | ok st' =>
      have hlt : id < s.size := (s.isSome_get? id).1 (by rw [hst, Option.isSome_some])
      refine ⟨st, (get?_concat s st' id).trans ?_, rfl⟩
      rw [if_neg (Nat.ne_of_lt hlt), hst]
  | edit target e =>
    rw [perform]
    cases htarget : s.get? target with
    | none =>
      rw [edit, htarget]
      exact ⟨st, hst, rfl⟩
    | some st' =>
      rw [edit_eq_of_get? htarget]
      have hget := get?_set htarget (st'.edit e).state id
      split at hget
      · next hid =>
        subst hid
        cases htarget.symm.trans hst
        exact ⟨_, hget, st.dialect_edit e⟩
      · exact ⟨st, hget.trans hst, rfl⟩

theorem dialect_foldl_perform (hst : s.get? id = some st) (cs : List Command) :
    ∃ st', (cs.foldl perform s).get? id = some st' ∧ st'.dialect = st.dialect := by
  induction cs generalizing s st with
  | nil => exact ⟨st, hst, rfl⟩
  | cons c cs ih =>
    obtain ⟨st₁, hst₁, hdialect₁⟩ := dialect_perform hst c
    obtain ⟨st', hst', hdialect⟩ := ih hst₁
    exact ⟨st', hst', hdialect.trans hdialect₁⟩

/-- The second store has the UUID expressions of the first one spelled differently, and the third one has
other versions than the second one. -/
structure Alongside (r s t : Store) : Prop where
  respelled : Related (fun _ => Statement.Respelled) r s
  upgraded : Related (fun _ st st' => st' = st.withDialect st'.dialect) s t

theorem statementOf_respelled (h : Related (fun _ => Statement.Respelled) r s) (c : Creation) :
    s.statementOf c = r.statementOf c := by
  cases c with
  | selectFrom d query asName =>
    have hquery := h query
    rw [statementOf, statementOf, find, find]
    generalize r.get? query = a at hquery
    generalize s.get? query = b at hquery
    cases hquery with
    | none => rfl
    | some h =>
      simp only [bind, Except.bind, h.dialect]
  | _ => rfl

theorem Alongside.create (h : Alongside r s t) {c c' : Creation}
    (hsame : c.undialected = c'.undialected) :
    Alongside (r.perform (.create c)) (s.perform (.create c)) (t.perform (.create c')) := by
  have hboth : s.statementOf c = (r.statementOf c).map id := by
    rw [statementOf_respelled h.respelled]
    cases r.statementOf c <;> rfl
  exact ⟨h.respelled.create_of hboth fun st _ => st.respelled_refl,
    h.upgraded.create (fun st d _ => rfl) hsame⟩

theorem Alongside.edit (h : Alongside r s t) {text : String} {e : Edit}
    (hr : (r.edit id e).fault = none)
    (hup : ∀ st su, r.get? id = some st → t.get? id = some su →
      st.dialect.UpgradesTo su.dialect ∧ text = su.dialect.uuidText) :
    (s.edit id (e.spell text)).fault = none ∧ (t.edit id e).fault = none ∧
      Alongside (r.perform (.edit id e)) (s.perform (.edit id (e.spell text)))
        (t.perform (.edit id e)) := by
  obtain ⟨st, hst, hfault⟩ := exists_of_edit_fault hr
  obtain ⟨sp, hsp⟩ := Option.isSome_iff_exists.1 ((h.respelled.isSome_eq id).trans (by rw [hst]; rfl))
  obtain ⟨su, hsu⟩ := Option.isSome_iff_exists.1 ((h.upgraded.isSome_eq id).trans (by rw [hsp]; rfl))
  obtain ⟨hversion, rfl⟩ := hup st su hst hsu
  have hspelled : st.Respelled sp := h.respelled.get? hst hsp
  have hother : su = sp.withDialect su.dialect := h.upgraded.get? hsp hsu
  obtain ⟨hsame, hafter⟩ := hspelled.edit hversion.1 (uuidText_mem hversion.family_eq) e
  have haccepted : (sp.edit (e.spell su.dialect.uuidText)).fault = none := hsame.symm.trans hfault
  have hedit := Statement.edit_upgraded (hspelled.dialect ▸ hversion) e haccepted
  rw [← hother] at hedit
  refine ⟨?_, ?_, h.respelled.edit_of hst hsp hafter, h.upgraded.edit_of hsp hsu ?_⟩
  · rw [edit_eq_of_get? hsp]
    exact (Step.reported_fault_eq_none _).2 haccepted
  · rw [edit_eq_of_get? hsu, hedit]
    exact (Step.reported_fault_eq_none _).2 haccepted
  · rw [hedit]
    rfl

theorem Alongside.foldl_perform (h : Alongside r s t) (textOf : StatementId → String)
    (hsame : cs.map Command.undialected = ds.map Command.undialected) (hcs : r.Succeeds cs)
    (hup : ∀ id st su, (cs.foldl perform r).get? id = some st → (ds.foldl perform t).get? id = some su →
      st.dialect.UpgradesTo su.dialect ∧ textOf id = su.dialect.uuidText) :
    s.Succeeds (cs.map (Command.spell textOf)) ∧ t.Succeeds ds ∧
      Alongside (cs.foldl perform r) ((cs.map (Command.spell textOf)).foldl perform s)
        (ds.foldl perform t) := by
  induction cs generalizing ds r s t with
  | nil =>
    cases List.map_eq_nil_iff.1 hsame.symm
    exact ⟨trivial, trivial, h⟩
  | cons c cs ih =>
    obtain ⟨c', ds, rfl, hc, hrest⟩ := List.map_eq_cons_iff.1 hsame.symm
    cases c with
    | create c =>
      cases c' with
      | create c' => exact (ih (h.create (Command.create.inj hc).symm) hrest.symm hcs hup :)
      | edit id' e' => cases hc
    | edit id e =>
      cases c' with
      | create c' => cases hc
      | edit id' e' =>
        cases hc
        obtain ⟨hr, hcs⟩ := hcs
        -- The versions of the two statements are those that they have in the end.
        obtain ⟨hs, ht, hafter⟩ := h.edit hr fun st su hst hsu => by
          obtain ⟨st', hst', hdialect⟩ := dialect_foldl_perform hst (.edit id e :: cs)
          obtain ⟨su', hsu', hdialect'⟩ := dialect_foldl_perform hsu (.edit id e :: ds)
          rw [← hdialect, ← hdialect']
          exact hup id st' su' hst' hsu'
        obtain ⟨hspelled, hds, hend⟩ := ih hafter hrest.symm hcs hup
        exact ⟨⟨hs, hspelled⟩, ⟨ht, hds⟩, hend⟩

section Respelled
variable (h : Related (fun _ => Statement.Respelled) r s)
include h

theorem respelled_expandAt (depth : Nat) (id : StatementId) :
    SameAnswer (List.Forall₂ Chunk.Respelled) (r.expandAt depth id) (s.expandAt depth id) := by
  induction depth generalizing id with
  | zero => exact .error _
  | succ depth ih =>
    have hid := h id
    rw [expandAt, expandAt, find, find]
    generalize r.get? id = a at hid
    generalize s.get? id = b at hid
    cases hid with
    | none => exact .error _
    | @some st st' h =>
      refine h.parts.bind fun ps qs hparts => (respelled_expandParts ih hparts).bind fun cs ds hread => ?_
      rw [Statement.whenWritable_congr h.isWritable_eq]
      unfold Statement.whenWritable
      split
      · exact .ok hread
      · exact .error _

theorem respelled_chunks (id : StatementId) :
    SameAnswer (List.Forall₂ Chunk.Respelled) (r.chunks id) (s.chunks id) := by
  rw [chunks, chunks, size_eq_of_isSome h.isSome_eq]
  exact respelled_expandAt h _ id

theorem respelled_countChunks (id : StatementId) :
    SameAnswer (List.Forall₂ Chunk.Respelled) (r.countChunks id) (s.countChunks id) := by
  have hid := h id
  rw [countChunks, countChunks, find, find]
  generalize r.get? id = a at hid
  generalize s.get? id = b at hid
  cases hid with
  | none => exact .error _
  | some hst =>
    refine SameAnswer.bind (R := RespelledParts) ?_ fun ps qs hparts => ?_
    · rw [hst.countParts_eq]
      exact .refl respelledParts_refl _
    · rw [expand, expand, size_eq_of_isSome h.isSome_eq]
      exact respelled_expandParts (respelled_expandAt h _) hparts

end Respelled

section Upgraded
variable (h : Related (fun _ st st' => st' = st.withDialect st'.dialect) s t)
  (hup : ∀ id st su, s.get? id = some st → t.get? id = some su → st.dialect.UpgradesTo su.dialect)
include h hup

theorem upgraded_expandAt (depth : Nat) (id : StatementId) :
    t.expandAt depth id = s.expandAt depth id := by
  refine expandAt_congr (fun j _ => ?_) depth
  have hj := h j
  generalize hs : s.get? j = a at hj
  generalize ht : t.get? j = b at hj
  cases hj with
  | none => rfl
  | @some st su hsu =>
    have houtline := Statement.outline_upgraded (hup j st su hs ht)
    rw [← hsu] at houtline
    exact congrArg some houtline

theorem upgraded_chunks (id : StatementId) : t.chunks id = s.chunks id := by
  rw [chunks, chunks, size_eq_of_isSome h.isSome_eq, upgraded_expandAt h hup]

theorem upgraded_countChunks (id : StatementId) : t.countChunks id = s.countChunks id := by
  have hid := h id
  rw [countChunks, countChunks, find, find]
  generalize s.get? id = a at hid
  generalize t.get? id = b at hid
  cases hid with
  | none => rfl
  | @some st su hsu =>
    have hparts := st.countParts_withDialect su.dialect
    rw [← hsu] at hparts
    have hexpand (ps : List Part) : t.expand ps = s.expand ps := by
      rw [expand, expand, size_eq_of_isSome h.isSome_eq]
      exact expandParts_congr fun r _ => upgraded_expandAt h hup _ r
    simp only [bind, Except.bind, hparts, hexpand]

end Upgraded

/-- The texts are the same piece by piece, but that a function that makes a UUID may be another one. Or
neither can be read, for the same reason. -/
def SqlRespelled : Except Fault String → Except Fault String → Prop :=
  SameAnswer fun sql sql' =>
    ∃ cs ds, List.Forall₂ Chunk.Respelled cs ds ∧ sql = chunksSql cs ∧ sql' = chunksSql ds

/-- A program that is accepted is accepted with later versions, too. Its statements bind the same values,
and they have the same texts but for the UUID expressions: these are as if each call for a UUID had asked
for the expression of the later version. -/
theorem run_upgraded (cs ds : List Command)
    (hsame : cs.map Command.undialected = ds.map Command.undialected) (hcs : empty.Succeeds cs)
    (hup : ∀ id st su, (run cs).get? id = some st → (run ds).get? id = some su →
      st.dialect.UpgradesTo su.dialect) :
    let spelled := cs.map (Command.spell (run ds).uuidText)
    empty.Succeeds ds ∧ empty.Succeeds spelled ∧ (run ds).size = (run cs).size ∧
      ∀ id, (run ds).parameters id = (run cs).parameters id ∧
        (run ds).countParameters id = (run cs).countParameters id ∧
        SqlRespelled ((run cs).sql id) ((run ds).sql id) ∧
        SqlRespelled ((run cs).countSql id) ((run ds).countSql id) ∧
        (run ds).sql id = (run spelled).sql id ∧ (run ds).countSql id = (run spelled).countSql id := by
  intro spelled
  have hempty : Alongside empty empty empty := ⟨fun _ => .none, fun _ => .none⟩
  have htext (id : StatementId) (su : Statement) (hsu : (run ds).get? id = some su) :
      (run ds).uuidText id = su.dialect.uuidText := by
    rw [uuidText, hsu]
    rfl
  obtain ⟨hspelled, hds, hrespelled, hupgraded⟩ :=
    hempty.foldl_perform (run ds).uuidText hsame hcs fun id st su hst hsu =>
      ⟨hup id st su hst hsu, htext id su hsu⟩
  have hrespelled : Related (fun _ => Statement.Respelled) (run cs) (run spelled) := hrespelled
  -- The third run has the versions of the first one.
  have hversions (id : StatementId) (st su : Statement) (hst : (run spelled).get? id = some st)
      (hsu : (run ds).get? id = some su) : st.dialect.UpgradesTo su.dialect := by
    obtain ⟨st', hst'⟩ := Option.isSome_iff_exists.1 ((hrespelled.isSome_eq id).symm.trans (by rw [hst]; rfl))
    rw [← (hrespelled.get? hst' hst).dialect]
    exact hup id st' su hst' hsu
  refine ⟨hds, hspelled, ?_, fun id => ?_⟩
  · exact (size_eq_of_isSome hupgraded.isSome_eq).trans (size_eq_of_isSome hrespelled.isSome_eq)
  · have hchunks : (run ds).chunks id = (run spelled).chunks id := upgraded_chunks hupgraded hversions id
    have hcount : (run ds).countChunks id = (run spelled).countChunks id :=
      upgraded_countChunks hupgraded hversions id
    have hread := respelled_chunks hrespelled id
    have hcounted := respelled_countChunks hrespelled id
    rw [← hchunks] at hread
    rw [← hcount] at hcounted
    refine ⟨?_, ?_, ?_, ?_, ?_, ?_⟩
    · exact (hread.map_eq fun _ _ => respelled_parameters).symm
    · exact (hcounted.map_eq fun _ _ => respelled_parameters).symm
    · exact hread.map fun ps qs h => ⟨ps, qs, h, rfl, rfl⟩
    · exact hcounted.map fun ps qs h => ⟨ps, qs, h, rfl, rfl⟩
    · exact congrArg (Except.map chunksSql) hchunks
    · exact congrArg (Except.map chunksSql) hcount

theorem insertion_upgraded :
    let program (first second : Nat) : List Command := [
      .create (.insert (some ⟨.postgresql, "postgresql", first, .snake⟩) (.text "t")),
      .create (.select (some ⟨.postgresql, "postgresql", second, .snake⟩) (.text "s") .null),
      .edit 0 (.assignment (.uuid (.text "id"))),
      .edit 1 (.commonTable ⟨.text "x", some 0, .text "MATERIALIZED", false⟩),
      .edit 0 (.assignment (.expression (.text "old") (.text "uuid_generate_v4()") [])),
      .edit 1 (.filter (.compare .eq (.text "n") (.int 5) (.choice .and)))]
    let s := run (program 12 12)
    let t := run (program 18 13)
    empty.Succeeds (program 18 13) ∧ t.parameters 1 = s.parameters 1 ∧ SqlRespelled (s.sql 1) (t.sql 1) ∧
      (s.sql 1).toOption = some ("WITH x AS MATERIALIZED (\n" ++
        "INSERT INTO t (id, old) VALUES (uuid_generate_v4(), uuid_generate_v4())\n)\n" ++
        "SELECT * FROM s WHERE n = ?") ∧
      (t.sql 1).toOption = some ("WITH x AS MATERIALIZED (\n" ++
        "INSERT INTO t (id, old) VALUES (uuidv7(), uuid_generate_v4())\n)\n" ++
        "SELECT * FROM s WHERE n = ?") := by
  intro program s t
  have hcs : empty.Succeeds (program 12 12) :=
    ⟨by decide +kernel, by decide +kernel, by decide +kernel, by decide +kernel, trivial⟩
  obtain ⟨hds, -, -, hread⟩ := run_upgraded (program 12 12) (program 18 13) rfl hcs
    fun id st su hst hsu => by
      match id with
      | 0 =>
        cases hst
        cases hsu
        exact ⟨rfl, 18, by decide, rfl⟩
      | 1 =>
        cases hst
        cases hsu
        exact ⟨rfl, 13, by decide, rfl⟩
      | id + 2 => cases hst
  obtain ⟨hparameters, -, hsql, -⟩ := hread 1
  exact ⟨hds, hparameters, hsql, by decide +kernel, by decide +kernel⟩

end SqlComposer.Store
