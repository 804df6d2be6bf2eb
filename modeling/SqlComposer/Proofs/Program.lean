import SqlComposer.Store

/-! Programs: sequences of calls that make statements and change them. A call that is refused leaves
what the store makes of it, and the program goes on. -/

namespace SqlComposer

inductive Command where
  | create (c : Creation)
  | edit (id : StatementId) (e : Edit)

namespace Store

def perform (s : Store) : Command → Store
  | .create c =>
    match s.create c with
    | .ok (after, _) => after
    | .error _ => s
  | .edit id e => (s.edit id e).state

def run (cs : List Command) : Store := cs.foldl perform empty

variable {P : Statement → Prop} {s : Store}

theorem perform_forall (h : ∀ st ∈ s.statements, P st) {c : Command}
    (hcreate : ∀ k, c = .create k → ∀ st, s.statementOf k = .ok st → P st)
    (hedit : ∀ id e, c = .edit id e → ∀ st, P st → P (st.edit e).state) :
    ∀ st ∈ (s.perform c).statements, P st := by
  cases c with
  | create k =>
    rw [perform, create]
    cases hst : s.statementOf k with
    | error f => exact h
    | ok st => exact List.forall_mem_append.2 ⟨h, List.forall_mem_singleton.2 (hcreate k rfl st hst)⟩
  | edit id e =>
    rw [perform, edit]
    cases hst : s.get? id with
    | none => exact h
    | some st =>
      have hmem : st ∈ s.statements := List.mem_of_getElem? hst
      intro x hx
      rcases List.mem_or_eq_of_mem_set hx with hx | rfl
      · exact h x hx
      · exact hedit id e rfl st (h st hmem)

variable {id : StatementId} {st : Statement}

theorem edit_eq_of_get? (h : s.get? id = some st) (e : Edit) :
    s.edit id e = (st.edit e).reported.map fun st => ⟨s.statements.set id st⟩ := by
  rw [edit, h]

theorem find_mem (h : s.find id = .ok st) :
    st ∈ s.statements := by
  unfold find at h
  split at h
  · next hst =>
    cases h
    exact List.mem_of_getElem? hst
  · cases h

theorem get?_concat (s : Store) (st : Statement) (id : StatementId) :
    (⟨s.statements ++ [st]⟩ : Store).get? id = if id = s.size then some st else s.get? id := by
  have hsize : s.statements.length = s.size := rfl
  rw [get?, List.getElem?_append, hsize]
  split
  · next hlt => rw [if_neg (Nat.ne_of_lt hlt), get?]
  · next hge =>
    split
    · next heq => simp [heq]
    · next hne =>
      have hlt : s.size < id := Nat.lt_of_le_of_ne (Nat.not_lt.1 hge) (Ne.symm hne)
      have hbehind : 0 < id - s.size := Nat.sub_pos_of_lt hlt
      have hnone : s.get? id = none := List.getElem?_eq_none (Nat.le_of_lt hlt)
      rw [hnone, List.getElem?_singleton, if_neg (Nat.ne_of_gt hbehind)]

theorem get?_set (hst : s.get? id = some st) (st' : Statement) (j : StatementId) :
    (⟨s.statements.set id st'⟩ : Store).get? j = if id = j then some st' else s.get? j := by
  have hlt : id < s.statements.length := (List.getElem?_eq_some_iff.1 hst).1
  rw [get?, List.getElem?_set, if_pos hlt]
  rfl

theorem exists_of_edit_fault {e : Edit} (h : (s.edit id e).fault = none) :
    ∃ st, s.get? id = some st ∧ (st.edit e).fault = none := by
  cases hst : s.get? id with
  | none =>
    rw [edit, hst] at h
    cases h
  | some st =>
    rw [edit_eq_of_get? hst] at h
    exact ⟨st, rfl, (Step.reported_fault_eq_none _).1 h⟩

end Store
end SqlComposer
