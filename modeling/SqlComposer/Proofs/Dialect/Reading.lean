import SqlComposer.Proofs.Dialect.Program
import SqlComposer.Proofs.Dialect.Statement
import SqlComposer.Proofs.Ensures
import SqlComposer.Proofs.Independence

/-! Reading a program in two dialects. Matching statements bind the same values whatever the dialects: in
the same order, but for an UPDATE that one dialect writes with joined targets and the other with FROM.
Queries without a regular expression and without a window even have the same text. -/

namespace SqlComposer.Store
open Relation
variable {s t : Store} {id : StatementId} {st : Statement}

def valuesAt (s : Store) (depth : Nat) (id : StatementId) : Except Fault (List Value) :=
  (s.expandAt depth id).map (·.flatMap Chunk.values)

theorem valuesAt_succ {depth : Nat} {ps : List Part} (hst : s.get? id = some st)
    (hps : st.parts = .ok ps) :
    s.valuesAt (depth + 1) id =
      readBindings (s.valuesAt depth) (bindingsOf ps) >>= st.whenWritable := by
  have hread := values_expandParts (s.expandAt depth) ps
  rw [valuesAt, expandAt, find, hst]
  simp only [bind, Except.bind, hps]
  unfold valuesAt
  rw [← hread]
  cases expandParts (s.expandAt depth) ps with
  | error f => rfl
  | ok cs => exact st.map_whenWritable _ cs

theorem valuesAt_succ_eq_ok {depth : Nat} {vs : List Value} (h : s.valuesAt (depth + 1) id = .ok vs) :
    ∃ st ps, s.get? id = some st ∧ st.parts = .ok ps ∧
      readBindings (s.valuesAt depth) (bindingsOf ps) = .ok vs := by
  obtain ⟨cs, hcs, -⟩ := map_eq_ok.1 h
  obtain ⟨st, ps, hst, hps, -⟩ := expandAt_succ_eq_ok.1 hcs
  obtain ⟨read, hread, hvs⟩ := bind_eq_ok.1 ((valuesAt_succ hst hps).symm.trans h)
  obtain ⟨-, rfl⟩ := Statement.whenWritable_eq_ok.1 hvs
  exact ⟨st, ps, hst, hps, hread⟩

section Matched
variable (h : Related (fun _ => Statement.Matched Condition.SameBindings) s t)
include h

theorem valuesAt_eq
    (hquery : ∀ j st, ReflTransGen s.Embeds id j → s.get? j = some st → ¬ st.IsUpdate)
    (depth : Nat) : t.valuesAt depth id = s.valuesAt depth id := by
  induction depth generalizing id with
  | zero => rfl
  | succ depth ih =>
    cases hst : s.get? id with
    | none =>
      have hst' : t.get? id = none := by
        rw [← Option.isNone_iff_eq_none, ← Option.not_isSome, h.isSome_eq, hst]
        rfl
      rw [valuesAt, valuesAt, expandAt, expandAt, find, find, hst, hst']
      rfl
    | some st =>
      obtain ⟨st', hst'⟩ := Option.isSome_iff_exists.1 ((h.isSome_eq id).trans (by rw [hst]; rfl))
      have hmatched := h.get? hst hst'
      have hno := hquery id st .refl hst
      obtain ⟨ps, hps⟩ := Statement.parts_eq_ok_of_not_isUpdate hno
      obtain ⟨qs, hqs⟩ := Statement.parts_eq_ok_of_not_isUpdate (hmatched.isUpdate_iff.not.1 hno)
      have hbindings := (hmatched.shuffled_parts hps hqs).2 fun hupdate => absurd hupdate hno
      have hread : readBindings (t.valuesAt depth) (bindingsOf ps) =
          readBindings (s.valuesAt depth) (bindingsOf ps) := by
        refine readBindings_congr fun r hr => ih fun j st' hj => hquery j st' ?_
        exact .head ⟨st, ps, hst, hps, mem_bindingsOf.1 hr⟩ hj
      rw [valuesAt_succ hst hps, valuesAt_succ hst' hqs, ← hbindings, hread]
      exact congrArg _ (funext fun vs => Statement.whenWritable_congr hmatched.isWritable_eq vs)

/-- Matching statements that can be read bind the same values in some order, and in the same one if
every UPDATE among them is written in the same way. -/
theorem valuesAt_perm {depth : Nat} {vs ws : List Value} (hvs : s.valuesAt depth id = .ok vs)
    (hws : t.valuesAt depth id = .ok ws) :
    vs.Perm ws ∧ ((∀ j st st', ReflTransGen s.Embeds id j → s.get? j = some st →
      t.get? j = some st' → st.IsUpdate → st.SameStyle st') → vs = ws) := by
  induction depth generalizing id vs ws with
  | zero => cases hvs
  | succ depth ih =>
    obtain ⟨st, ps, hst, hps, hvs⟩ := valuesAt_succ_eq_ok hvs
    obtain ⟨st', qs, hst', hqs, hws⟩ := valuesAt_succ_eq_ok hws
    obtain ⟨hperm, hequal⟩ := (h.get? hst hst').shuffled_parts hps hqs
    obtain ⟨rfl, hall⟩ := readBindings_eq_ok hvs
    obtain ⟨rfl, hall'⟩ := readBindings_eq_ok hws
    -- The statements referred to are the same ones on both sides.
    have hinner (r : StatementId) (hr : .statement r ∈ bindingsOf ps) :
        ∃ inner inner', s.valuesAt depth r = .ok inner ∧ t.valuesAt depth r = .ok inner' := by
      obtain ⟨inner, hinner⟩ := hall r hr
      obtain ⟨inner', hinner'⟩ := hall' r (hperm.mem_iff.1 hr)
      exact ⟨inner, inner', hinner, hinner'⟩
    constructor
    · refine (List.Perm.flatMap_left _ fun b hb => ?_).trans (hperm.flatMap_right _)
      cases b with
      | value v => exact .refl _
      | statement r =>
        obtain ⟨inner, inner', hr, hr'⟩ := hinner r hb
        rw [Binding.values, Binding.values, hr, hr']
        exact (ih hr hr').1
    · intro hstyle
      rw [← hequal (hstyle id st st' .refl hst hst')]
      refine List.flatMap_congr fun b hb => ?_
      cases b with
      | value v => rfl
      | statement r =>
        obtain ⟨inner, inner', hr, hr'⟩ := hinner r hb
        rw [Binding.values, Binding.values, hr, hr']
        refine (ih hr hr').2 fun j st st' hj => hstyle j st st' ?_
        exact .head ⟨_, ps, hst, hps, mem_bindingsOf.1 hb⟩ hj

end Matched

theorem parameters_eq_valuesAt (s : Store) (id : StatementId) :
    s.parameters id = (s.valuesAt s.size id).map Parameters.mk := by
  rw [parameters, valuesAt, chunks]
  cases s.expandAt s.size id with
  | ok cs => exact congrArg Except.ok (chunksParameters_eq cs)
  | error f => rfl

/-- No call of a program asks for what queries write differently in different dialects: a match against
a regular expression, or a window. -/
def Quiet (cs : List Command) (id : StatementId) : Prop :=
  ∀ e, .edit id e ∈ cs → e.isRegexp = false ∧ e.clause ≠ .window

theorem window_of_statementOf {c : Creation} {q : Query} (h : s.statementOf c = .ok st)
    (hq : st.body = .select q) : q.window = .all := by
  cases c with
  | select d table asName =>
    rw [statementOf] at h
    unfold Statement.select at h
    split at h
    · cases h
      cases hq
      rfl
    · obtain ⟨source, -, ⟨⟩⟩ := bind_eq_ok.1 h
      cases hq
      rfl
  | selectFrom d query asName =>
    obtain ⟨other, -, h⟩ := bind_eq_ok.1 h
    obtain ⟨source, -, ⟨⟩⟩ := bind_eq_ok.1 h
    cases hq
    rfl
  | insert d table =>
    obtain ⟨name, -, ⟨⟩⟩ := bind_eq_ok.1 h
    cases hq
  | update d table asName | delete d table asName =>
    obtain ⟨target, -, ⟨⟩⟩ := bind_eq_ok.1 h
    cases hq

theorem matched_withDialect {R : Condition → Condition → Prop} (hR : ∀ c, R c c) (st : Statement)
    (d : Dialect) : st.Matched R (st.withDialect d) := ⟨rfl, st.body.matched_self hR⟩

theorem run_related {cs ds : List Command}
    (hsame : cs.map Command.undialected = ds.map Command.undialected)
    (hcs : empty.Succeeds cs) (hds : empty.Succeeds ds) :
    Related (fun id st st' => st.Matched Condition.SameBindings st' ∧
      (Quiet cs id → st.Matched Eq st' ∧ ∀ q, st.body = .select q → q.window = .all))
      (run cs) (run ds) := by
  have hbindings (c : Condition) : c.SameBindings c := rfl
  refine Related.foldl_perform ?_ ?_ (fun _ => .none) hsame hcs hds
  · intro s id c st d hst
    exact ⟨matched_withDialect hbindings st d, fun _ =>
      ⟨matched_withDialect (fun _ => rfl) st d, fun q => window_of_statementOf hst⟩⟩
  · rintro id e st st' he ⟨hmatched, hquiet⟩ hfault hfault'
    refine ⟨hmatched.paired_edit hbindings (fun _ _ _ _ _ => rfl) hfault hfault', fun hq => ?_⟩
    obtain ⟨hregexp, hclause⟩ := hq e he
    obtain ⟨heq, hwindow⟩ := hquiet hq
    refine ⟨heq.paired_edit (fun _ => rfl) (by simp [hregexp]) hfault hfault', fun q' hq' => ?_⟩
    -- The window is no clause of the edit, so it stays what it was.
    obtain ⟨q, hst, hagree⟩ := Statement.select_of_edit hclause hq'
    exact Eq.trans hagree (hwindow q hst)

/-- A program that is accepted with two choices of dialects binds the same values both times. -/
theorem run_redialected (cs ds : List Command)
    (hsame : cs.map Command.undialected = ds.map Command.undialected)
    (hcs : empty.Succeeds cs) (hds : empty.Succeeds ds) (id : StatementId) :
    ((∀ j st, ReflTransGen (run cs).Embeds id j → (run cs).get? j = some st → ¬ st.IsUpdate) →
      (run ds).parameters id = (run cs).parameters id ∧
        ((run cs).Resolves id → ((∃ ps, (run cs).parameters id = .ok ps) ↔
          ∀ j st, ReflTransGen (run cs).Embeds id j → (run cs).get? j = some st → st.isWritable))) ∧
    ((∀ j st, ReflTransGen (run cs).Embeds id j → (run cs).get? j = some st →
        (∃ q, st.body = .select q) ∧ Quiet cs j) →
      (run ds).sql id = (run cs).sql id ∧
        ((run cs).Resolves id → ∃ text, (run cs).sql id = .ok text)) ∧
    ∀ ps qs, (run cs).parameters id = .ok ps → (run ds).parameters id = .ok qs →
      ps.values.Perm qs.values ∧
        ((∀ j st st', ReflTransGen (run cs).Embeds id j → (run cs).get? j = some st →
          (run ds).get? j = some st' → st.IsUpdate → st.SameStyle st') → ps = qs) := by
  have hrelated := run_related hsame hcs hds
  have hmatched : Related (fun _ => Statement.Matched Condition.SameBindings) (run cs) (run ds) :=
    hrelated.mono fun id st st' h => h.1
  have hsize : (run ds).size = (run cs).size := size_eq_of_isSome hmatched.isSome_eq
  have hread (hquery : ∀ j st, ReflTransGen (run cs).Embeds id j → (run cs).get? j = some st →
      ¬ st.IsUpdate) (hresolves : (run cs).Resolves id)
      (hwritable : ∀ j st, ReflTransGen (run cs).Embeds id j → (run cs).get? j = some st →
        st.isWritable) : ∃ chunks, (run cs).chunks id = .ok chunks :=
    hresolves.chunks_eq_ok fun j st hj hst =>
      ⟨Statement.parts_eq_ok_of_not_isUpdate (hquery j st hj hst), hwritable j st hj hst⟩
  refine ⟨fun hquery => ⟨?_, fun hresolves => ?_⟩, fun hquiet => ⟨?_, fun hresolves => ?_⟩, ?_⟩
  · rw [parameters_eq_valuesAt, parameters_eq_valuesAt, hsize, valuesAt_eq hmatched hquery]
  · constructor
    · rintro ⟨ps, hps⟩ j st hj hst
      obtain ⟨chunks, hchunks, -⟩ := map_eq_ok.1 hps
      exact isWritable_of_expandAt hchunks hj hst
    · intro hwritable
      obtain ⟨chunks, hchunks⟩ := hread hquery hresolves hwritable
      exact ⟨_, map_eq_ok.2 ⟨chunks, hchunks, rfl⟩⟩
  · have hchunks : (run ds).chunks id = (run cs).chunks id := by
      rw [chunks, chunks, hsize]
      refine expandAt_congr (fun j hj => ?_) _
      have hj' := hrelated j
      generalize hst : (run cs).get? j = a at hj'
      generalize (run ds).get? j = b at hj'
      cases hj' with
      | none => rfl
      | some h =>
        obtain ⟨⟨q, hq⟩, hcalls⟩ := hquiet j _ hj hst
        obtain ⟨heq, hwindow⟩ := h.2 hcalls
        exact congrArg some (congrArg₂ Prod.mk (heq.parts_eq hq (hwindow q hq)) heq.isWritable_eq)
    rw [sql, sql, hchunks]
  · have hquery (j : StatementId) (st : Statement) (hj : ReflTransGen (run cs).Embeds id j)
        (hst : (run cs).get? j = some st) : ¬ st.IsUpdate := by
      rintro ⟨u, hu⟩
      obtain ⟨⟨q, hq⟩, -⟩ := hquiet j st hj hst
      cases hq.symm.trans hu
    have hwritable (j : StatementId) (st : Statement) (hj : ReflTransGen (run cs).Embeds id j)
        (hst : (run cs).get? j = some st) : st.isWritable := by
      obtain ⟨⟨q, hq⟩, hcalls⟩ := hquiet j st hj hst
      obtain ⟨st', hst'⟩ := Option.isSome_iff_exists.1 ((hrelated.isSome_eq j).trans (by rw [hst]; rfl))
      have hwindow := ((hrelated.get? hst hst').2 hcalls).2 q hq
      rw [Statement.isWritable_of_select hq, hwindow]
      decide
    obtain ⟨chunks, hchunks⟩ := hread hquery hresolves hwritable
    exact ⟨_, map_eq_ok.2 ⟨chunks, hchunks, rfl⟩⟩
  · intro ps qs hps hqs
    rw [parameters_eq_valuesAt] at hps hqs
    rw [hsize] at hqs
    obtain ⟨vs, hvs, rfl⟩ := map_eq_ok.1 hps
    obtain ⟨ws, hws, rfl⟩ := map_eq_ok.1 hqs
    obtain ⟨hperm, hequal⟩ := valuesAt_perm hmatched hvs hws
    exact ⟨hperm, fun hstyle => congrArg _ (hequal hstyle)⟩

theorem prepended_in_two_dialects :
    let program (d : Dialect) : List Command := [
      .create (.select (some d) (.text "t") .null),
      .create (.update (some d) (.text "u") .null),
      .edit 0 (.filter (.compare .gt (.text "n") (.int 5) (.choice .and))),
      .edit 1 (.set (.revise .jsonb (.text "doc") [.appendArray (.int 1), .prependArray (.int 2)])),
      .edit 1 (.filter (.hasRows false 0 (.choice .and)))]
    let first := program ⟨.postgresql, "postgresql", 16, .snake⟩
    let second := program ⟨.mysql, "mysql", 8, .camel⟩
    let s := run first
    let t := run second
    t.parameters 0 = s.parameters 0 ∧ t.sql 0 = s.sql 0 ∧
      (∃ ps qs, s.parameters 1 = .ok ps ∧ t.parameters 1 = .ok qs ∧ ps.values.Perm qs.values) ∧
      (s.parameters 1).toOption.map (·.values.map Value.shown) = some ["2", "1", "5"] ∧
      (t.parameters 1).toOption.map (·.values.map Value.shown) = some ["1", "2", "5"] := by
  intro program first second s t
  have hsame : first.map Command.undialected = second.map Command.undialected := rfl
  have hs : empty.Succeeds first :=
    ⟨by decide +kernel, by decide +kernel, by decide +kernel, trivial⟩
  have ht : empty.Succeeds second :=
    ⟨by decide +kernel, by decide +kernel, by decide +kernel, trivial⟩
  obtain ⟨hparameters, hsql, -⟩ := run_redialected first second hsame hs ht 0
  obtain ⟨-, -, hperm⟩ := run_redialected first second hsame hs ht 1
  have hleaf (j : StatementId) (hj : ReflTransGen s.Embeds 0 j) : j = 0 := by
    rcases ReflTransGen.cases_head hj with hj | ⟨r, hr, -⟩
    · exact hj.symm
    · rw [embeds_iff, (by decide +kernel : s.references 0 = [])] at hr
      cases hr
  have hquery (j : StatementId) (st : Statement) (hj : ReflTransGen s.Embeds 0 j)
      (hst : s.get? j = some st) : ∃ q, st.body = .select q := by
    cases hleaf j hj
    cases hst
    exact ⟨_, rfl⟩
  have hquiet : Quiet first 0 := by
    intro e he
    have he : e = .filter (.compare .gt (.text "n") (.int 5) (.choice .and)) := by
      simpa [first, program] using he
    subst he
    exact ⟨rfl, nofun⟩
  have hps : (s.parameters 1).toOption.isSome := by decide +kernel
  have hqs : (t.parameters 1).toOption.isSome := by decide +kernel
  obtain ⟨ps, hps⟩ := Option.isSome_iff_exists.1 hps
  obtain ⟨qs, hqs⟩ := Option.isSome_iff_exists.1 hqs
  have hps := eq_ok_of_toOption hps
  have hqs := eq_ok_of_toOption hqs
  refine ⟨(hparameters fun j st hj hst => ?_).1, (hsql fun j st hj hst => ?_).1,
    ⟨ps, qs, hps, hqs, (hperm ps qs hps hqs).1⟩, by decide +kernel, by decide +kernel⟩
  · rintro ⟨u, hu⟩
    obtain ⟨q, hq⟩ := hquery j st hj hst
    cases hq.symm.trans hu
  · exact ⟨hquery j st hj hst, (hleaf j hj) ▸ hquiet⟩

end SqlComposer.Store
