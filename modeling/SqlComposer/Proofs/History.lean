import SqlComposer.Proofs.Ensures
import SqlComposer.Proofs.Expansion
import SqlComposer.Proofs.Program

/-! The calls that a statement has seen, with their answers. A relation between calls and statement that
holds of every new statement and is kept by every edit holds of all statements of every program, whatever
order its calls are made in. -/

namespace SqlComposer

/-- An edit that a statement was asked for, and why it was refused if it was. -/
structure Call where
  edit : Edit
  fault : Option Fault

/-- A statement as it is created: it has its table, and nothing has been added to it. -/
inductive Statement.New : Statement → Prop
  | select (d : Dialect) (sources : List Source) :
    New ⟨d, [], .select { Query.empty with sources := sources }⟩
  | insert (d : Dialect) (table : String) : New ⟨d, [], .insert ⟨table, []⟩⟩
  | update (d : Dialect) (target : Target) : New ⟨d, [], .update ⟨[target], [], [], [], []⟩⟩
  | delete (d : Dialect) (target : Target) : New ⟨d, [], .delete ⟨[target], []⟩⟩

namespace Store

theorem ensures_new (s : Store) (c : Creation) : Ensures (s.statementOf c) Statement.New := by
  cases c with
  | select d table asName =>
    simp only [statementOf, Statement.select]
    split
    · exact ensures_ok (.select _ [])
    · exact (ensures_any _).bind fun source _ => ensures_ok (.select _ [source])
  | selectFrom d query asName =>
    refine (ensures_any _).bind fun q _ => ?_
    exact (ensures_any _).bind fun source _ => ensures_ok (.select _ [source])
  | insert d table => exact (ensures_any _).bind fun t _ => ensures_ok (.insert _ t.alone)
  | update d table asName => exact (ensures_any _).bind fun t _ => ensures_ok (.update _ t)
  | delete d table asName => exact (ensures_any _).bind fun t _ => ensures_ok (.delete _ t)

def calls (id : StatementId) : Store → List Command → List Call
  | _, [] => []
  | s, .create c :: cs => (s.perform (.create c)).calls id cs
  | s, .edit target e :: cs =>
    let rest := (s.perform (.edit target e)).calls id cs
    if target = id ∧ target < s.size then ⟨e, (s.edit target e).fault⟩ :: rest else rest

def callOf (st : Statement) (e : Edit) : Call := ⟨e, (st.edit e).fault.map Fault.reported⟩

variable {R : List Call → Statement → Prop} {s : Store} {cs : List Command}

/-- The relation holds of all statements there are, and those that are not there yet have seen no
call. -/
structure Recorded (R : List Call → Statement → Prop) (s : Store) (seen : StatementId → List Call) :
    Prop where
  related : ∀ id st, s.get? id = some st → R (seen id) st
  unseen : ∀ id, s.size ≤ id → seen id = []

theorem Recorded.create {seen : StatementId → List Call} (h : Recorded R s seen) (c : Creation)
    (hnew : Ensures (s.statementOf c) (R [])) :
    Recorded R (s.perform (.create c)) seen := by
  cases hst : s.statementOf c with
  | error f =>
    rw [perform, Store.create, hst]
    exact h
  | ok st =>
    have hcreate : s.perform (.create c) = ⟨s.statements ++ [st]⟩ := by
      rw [perform, Store.create, hst]
      rfl
    rw [hcreate]
    refine ⟨fun id st' hst' => ?_, fun id hid => h.unseen id ?_⟩
    · have hget := (get?_concat s st id).symm.trans hst'
      split at hget
      · next hid =>
        cases hget
        rw [hid, h.unseen _ (Nat.le_refl _)]
        exact hnew st hst
      · exact h.related id st' hget
    · refine Nat.le_trans ?_ hid
      rw [size, size, List.length_append]
      exact Nat.le_add_right _ _

theorem Recorded.edit {seen : StatementId → List Call} (h : Recorded R s seen) (target : StatementId)
    (e : Edit) (hedit : ∀ calls st, R calls st → R (calls ++ [callOf st e]) (st.edit e).state) :
    Recorded R (s.perform (.edit target e)) fun id =>
      seen id ++ if target = id ∧ target < s.size then [⟨e, (s.edit target e).fault⟩] else [] := by
  cases hst : s.get? target with
  | none =>
    have hsize : ¬ target < s.size := fun hlt => by
      rw [← isSome_get?, hst] at hlt
      exact absurd hlt Bool.false_ne_true
    have hsame : s.perform (.edit target e) = s := by
      rw [perform, Store.edit, hst]
      rfl
    simpa [hsize, hsame] using h
  | some st =>
    have hsize : target < s.size := (s.isSome_get? target).1 (by rw [hst, Option.isSome_some])
    have hstep := edit_eq_of_get? hst e
    have hcall : (⟨e, (s.edit target e).fault⟩ : Call) = callOf st e := by
      rw [hstep]
      rfl
    refine ⟨fun id st' hst' => ?_, fun id hid => ?_⟩
    · rw [perform, hstep] at hst'
      have hget := (get?_set hst (st.edit e).state id).symm.trans hst'
      rw [hcall]
      split at hget
      · next hid =>
        cases hget
        subst hid
        rw [if_pos ⟨rfl, hsize⟩]
        exact hedit _ st (h.related _ st hst)
      · next hid =>
        rw [if_neg fun hboth => hid hboth.1, List.append_nil]
        exact h.related id st' hget
    · have hid : s.size ≤ id := by
        rw [perform, hstep] at hid
        simpa [size] using hid
      have hother : ¬ (target = id ∧ target < s.size) := fun hboth =>
        Nat.not_lt.2 hid (hboth.1 ▸ hboth.2)
      rw [if_neg hother, List.append_nil]
      exact h.unseen id hid

theorem Recorded.foldl_perform {seen : StatementId → List Call} (h : Recorded R s seen)
    (hnew : ∀ (s : Store) c, Ensures (s.statementOf c) (R []))
    (hedit : ∀ calls st e, R calls st → R (calls ++ [callOf st e]) (st.edit e).state) :
    Recorded R (cs.foldl perform s) fun id => seen id ++ s.calls id cs := by
  induction cs generalizing s seen with
  | nil => simpa [calls] using h
  | cons c cs ih =>
    cases c with
    | create c => exact ih (h.create c (hnew s c))
    | edit target e =>
      have hrest := ih (h.edit target e fun calls st => hedit calls st e)
      rw [List.foldl_cons]
      have hseen (id : StatementId) :
          seen id ++ s.calls id (.edit target e :: cs) =
            seen id ++ (if target = id ∧ target < s.size then [⟨e, (s.edit target e).fault⟩] else [])
              ++ (s.perform (.edit target e)).calls id cs := by
        rw [calls, List.append_assoc]
        split <;> rfl
      simpa only [hseen] using hrest

theorem run_recorded_of_created (hnew : ∀ (s : Store) c, Ensures (s.statementOf c) (R []))
    (hedit : ∀ calls st e, R calls st → R (calls ++ [callOf st e]) (st.edit e).state)
    {id : StatementId} {st : Statement} (hst : (run cs).get? id = some st) :
    R (empty.calls id cs) st := by
  have hempty : Recorded R empty fun _ => [] := ⟨fun _ _ h => (nomatch h), fun _ _ => rfl⟩
  exact (hempty.foldl_perform hnew hedit).related id st hst

theorem run_recorded (hnew : ∀ st, st.New → R [] st)
    (hedit : ∀ calls st e, R calls st → R (calls ++ [callOf st e]) (st.edit e).state)
    {id : StatementId} {st : Statement} (hst : (run cs).get? id = some st) :
    R (empty.calls id cs) st :=
  run_recorded_of_created (fun s c => (s.ensures_new c).mono hnew) hedit hst

end Store
end SqlComposer
