import SqlComposer.Proofs.Program
import SqlComposer.Proofs.Reference

/-! Programs in two dialects. A program that is run twice, with the dialects of its statements chosen
differently, leaves statements in the same places, and what an edit keeps of two statements whenever both
accept it holds of all of them, as long as every call is accepted both times. -/

namespace SqlComposer

def Creation.undialected : Creation → Creation
  | select _ table asName => .select none table asName
  | selectFrom _ query asName => .selectFrom none query asName
  | insert _ table => .insert none table
  | update _ table asName => .update none table asName
  | delete _ table asName => .delete none table asName

def Command.undialected : Command → Command
  | create c => .create c.undialected
  | edit id e => .edit id e

def Statement.withDialect (d : Dialect) (st : Statement) : Statement := { st with dialect := d }

theorem Statement.select_withDialect (d d' : Dialect) (table asName : Value) :
    select d' table asName = (select d table asName).map (withDialect d') := by
  have hsource : (do
      let s ← SourceEdit.source (.table table asName)
      return ⟨d', [], .select { Query.empty with sources := [s] }⟩ : Except Fault Statement) =
      (do
      let s ← SourceEdit.source (.table table asName)
      return ⟨d, [], .select { Query.empty with sources := [s] }⟩ : Except Fault Statement).map
        (withDialect d') := by
    cases SourceEdit.source (.table table asName) <;> rfl
  cases table with
  | null => rfl
  | _ => exact hsource

namespace Store
variable {s t : Store} {c c' : Creation}

theorem statementOf_redialected (h : c.undialected = c'.undialected)
    (hfind : ∀ id, (t.get? id).isSome = (s.get? id).isSome) :
    ∃ d, t.statementOf c' = (s.statementOf c).map (Statement.withDialect d) := by
  cases c with
  | select d table asName =>
    cases c' with
    | select d' table' asName' =>
      cases h
      exact ⟨_, Statement.select_withDialect _ _ table asName⟩
    | selectFrom | insert | update | delete => cases h
  | selectFrom d query asName =>
    cases c' with
    | selectFrom d' query' asName' =>
      cases h
      have hfind := hfind query
      rw [statementOf, statementOf, find, find]
      cases hs : s.get? query with
      | none =>
        rw [hs, Option.isSome_none, Option.isSome_eq_false_iff, Option.isNone_iff_eq_none] at hfind
        rw [hfind]
        exact ⟨.standard, rfl⟩
      | some q =>
        rw [hs, Option.isSome_some, Option.isSome_iff_exists] at hfind
        obtain ⟨q', hq'⟩ := hfind
        rw [hq']
        refine ⟨d'.getD q'.dialect, ?_⟩
        simp only [bind, Except.bind, Statement.selectFrom]
        cases SourceEdit.source (.query (some query) asName) <;> rfl
    | select | insert | update | delete => cases h
  | insert d table =>
    cases c' with
    | insert d' table' =>
      cases h
      refine ⟨d'.getD .standard, ?_⟩
      simp only [statementOf, Statement.insert]
      cases requireText "table" table <;> rfl
    | select | selectFrom | update | delete => cases h
  | update d table asName =>
    cases c' with
    | update d' table' asName' =>
      cases h
      refine ⟨d'.getD .standard, ?_⟩
      simp only [statementOf, Statement.update]
      cases targetOf table asName <;> rfl
    | select | selectFrom | insert | delete => cases h
  | delete d table asName =>
    cases c' with
    | delete d' table' asName' =>
      cases h
      refine ⟨d'.getD .standard, ?_⟩
      simp only [statementOf, Statement.delete]
      cases targetOf table asName <;> rfl
    | select | selectFrom | insert | update => cases h

def Succeeds : Store → List Command → Prop
  | _, [] => True
  | s, .create c :: cs => (s.perform (.create c)).Succeeds cs
  | s, .edit id e :: cs => (s.edit id e).fault = none ∧ (s.perform (.edit id e)).Succeeds cs

def Related (P : StatementId → Statement → Statement → Prop) (s t : Store) : Prop :=
  ∀ id, Option.Rel (P id) (s.get? id) (t.get? id)

variable {P : StatementId → Statement → Statement → Prop} {id : StatementId} {st : Statement}

theorem Related.isSome_eq (h : Related P s t) (id : StatementId) :
    (t.get? id).isSome = (s.get? id).isSome := by
  have hid := h id
  generalize s.get? id = a at hid
  generalize t.get? id = b at hid
  cases hid <;> rfl

theorem Related.get? (h : Related P s t) {st st' : Statement} (hst : s.get? id = some st)
    (hst' : t.get? id = some st') : P id st st' := by
  have hid := h id
  rw [hst, hst'] at hid
  cases hid with
  | some h => exact h

theorem Related.mono {Q : StatementId → Statement → Statement → Prop} (h : Related P s t)
    (hPQ : ∀ id st st', P id st st' → Q id st st') : Related Q s t := by
  intro id
  have hid := h id
  generalize s.get? id = a at hid ⊢
  generalize t.get? id = b at hid ⊢
  cases hid with
  | some h => exact .some (hPQ id _ _ h)
  | none => exact .none

theorem Related.create_of {f : Statement → Statement} (h : Related P s t)
    (hboth : t.statementOf c' = (s.statementOf c).map f)
    (hnew : ∀ st, s.statementOf c = .ok st → P s.size st (f st)) :
    Related P (s.perform (.create c)) (t.perform (.create c')) := by
  rw [perform, perform, Store.create, Store.create, hboth]
  cases hst : s.statementOf c with
  | error f => exact h
  | ok st =>
    intro id
    have hs := get?_concat s st id
    have ht := get?_concat t (f st) id
    rw [size_eq_of_isSome h.isSome_eq] at ht
    simp only [bind, Except.bind, pure, Except.pure, Except.map, hs, ht]
    split
    · next hid =>
      subst hid
      exact .some (hnew st hst)
    · exact h id

theorem Related.create (hnew : ∀ st d, s.statementOf c = .ok st → P s.size st (st.withDialect d))
    (h : Related P s t) (hsame : c.undialected = c'.undialected) :
    Related P (s.perform (.create c)) (t.perform (.create c')) := by
  obtain ⟨d, hd⟩ := statementOf_redialected hsame h.isSome_eq
  exact h.create_of hd fun st => hnew st d

theorem Related.edit_of {e e' : Edit} {st' : Statement} (h : Related P s t)
    (hst : s.get? id = some st) (hst' : t.get? id = some st')
    (hafter : P id (st.edit e).state (st'.edit e').state) :
    Related P (s.perform (.edit id e)) (t.perform (.edit id e')) := by
  intro j
  rw [perform, perform, edit_eq_of_get? hst, edit_eq_of_get? hst']
  have hs := get?_set hst (st.edit e).state j
  have ht := get?_set hst' (st'.edit e').state j
  simp only [Step.map_state, Step.reported_state, hs, ht]
  split
  · next hj =>
    subst hj
    exact .some hafter
  · exact h j

theorem Related.edit {e : Edit}
    (hedit : ∀ st st', P id st st' → (st.edit e).fault = none → (st'.edit e).fault = none →
      P id (st.edit e).state (st'.edit e).state)
    (h : Related P s t) (hs : (s.edit id e).fault = none) (ht : (t.edit id e).fault = none) :
    Related P (s.perform (.edit id e)) (t.perform (.edit id e)) := by
  obtain ⟨st, hst, hfault⟩ := exists_of_edit_fault hs
  obtain ⟨st', hst', hfault'⟩ := exists_of_edit_fault ht
  exact h.edit_of hst hst' (hedit st st' (h.get? hst hst') hfault hfault')

theorem Related.foldl_perform {cs ds : List Command}
    (hnew : ∀ (s : Store) id c st d, s.statementOf c = .ok st → P id st (st.withDialect d))
    (hedit : ∀ id e st st', .edit id e ∈ cs → P id st st' → (st.edit e).fault = none →
      (st'.edit e).fault = none → P id (st.edit e).state (st'.edit e).state)
    (h : Related P s t) (hsame : cs.map Command.undialected = ds.map Command.undialected)
    (hcs : s.Succeeds cs) (hds : t.Succeeds ds) :
    Related P (cs.foldl perform s) (ds.foldl perform t) := by
  -- On the first run; the second one makes the same calls.
  induction cs generalizing ds s t with
  | nil =>
    cases List.map_eq_nil_iff.1 hsame.symm
    exact h
  | cons c cs ih =>
    obtain ⟨c', ds, rfl, hc, hrest⟩ := List.map_eq_cons_iff.1 hsame.symm
    have hedit' (id : StatementId) (e : Edit) (st st' : Statement) (he : .edit id e ∈ cs) :=
      hedit id e st st' (List.mem_cons_of_mem c he)
    rw [List.foldl_cons, List.foldl_cons]
    cases c with
    | create c =>
      cases c' with
      | create c' =>
        have hc : c.undialected = c'.undialected := (Command.create.inj hc).symm
        exact ih hedit' (h.create (fun st d => hnew s s.size c st d) hc) hrest.symm hcs hds
      | edit id' e' => cases hc
    | edit id e =>
      cases c' with
      | create c' => cases hc
      | edit id' e' =>
        cases hc
        obtain ⟨hs, hcs⟩ := hcs
        obtain ⟨ht, hds⟩ := hds
        have hstep := h.edit (fun st st' => hedit id e st st' List.mem_cons_self) hs ht
        exact ih hedit' hstep hrest.symm hcs hds

end Store
end SqlComposer
