import SqlComposer.Proofs.Balance.Statement
import SqlComposer.Proofs.Program
import SqlComposer.Proofs.Reference

/-! Balanced programs. A statement stays balanced as long as every call that makes or changes it has
balanced texts, whatever other calls bring to other statements; and its text is balanced if that holds of
all statements that it embeds at any depth. -/

namespace SqlComposer

def Command.Balanced : Command → Prop
  | create c => c.Balanced
  | edit _ e => e.Balanced

namespace Store
open Relation
variable {s : Store} {id : StatementId}

/-- Every call of a program that makes the statement, or changes it, has balanced texts. -/
def BuiltBalanced (id : StatementId) : Store → List Command → Prop
  | _, [] => True
  | s, c :: cs =>
    ((s.perform c).get? id = s.get? id ∨ c.Balanced) ∧ (s.perform c).BuiltBalanced id cs

theorem balanced_perform (h : ∀ st, s.get? id = some st → st.Balanced) {c : Command} (hc : c.Balanced) :
    ∀ st, (s.perform c).get? id = some st → st.Balanced := by
  intro st hst
  cases c with
  | create k =>
    cases hk : s.statementOf k with
    | error f =>
      rw [perform, Store.create, hk] at hst
      exact h st hst
    | ok new =>
      have hget : (⟨s.statements ++ [new]⟩ : Store).get? id = some st := by
        rw [perform, Store.create, hk] at hst
        exact hst
      rw [get?_concat] at hget
      split at hget
      · cases hget
        exact s.balanced_statementOf hc st hk
      · exact h st hget
  | edit target e =>
    cases htarget : s.get? target with
    | none =>
      rw [perform, Store.edit, htarget] at hst
      exact h st hst
    | some before =>
      rw [perform, edit_eq_of_get? htarget] at hst
      have hget := (get?_set htarget (before.edit e).state id).symm.trans hst
      split at hget
      · next hid =>
        cases hget
        exact (h before (hid ▸ htarget)).edit hc
      · exact h st hget

theorem BuiltBalanced.foldl_perform {cs : List Command} (hcs : s.BuiltBalanced id cs)
    (h : ∀ st, s.get? id = some st → st.Balanced) :
    ∀ st, (cs.foldl perform s).get? id = some st → st.Balanced := by
  induction cs generalizing s with
  | nil => exact h
  | cons c cs ih =>
    obtain ⟨hc, hcs⟩ := hcs
    refine ih hcs ?_
    rcases hc with hsame | hc
    · rwa [hsame]
    · exact balanced_perform h hc

theorem BuiltBalanced.run {cs : List Command} (hcs : empty.BuiltBalanced id cs) :
    ∀ st, (run cs).get? id = some st → st.Balanced :=
  hcs.foldl_perform fun _ h => nomatch h

theorem shape_expandAt
    (h : ∀ j, ReflTransGen s.Embeds id j → ∀ st, s.get? j = some st → st.Balanced) (depth : Nat) :
    Ensures (s.expandAt depth id) fun cs => shape (chunksSql cs) = 1 := by
  induction depth generalizing id with
  | zero => exact ensures_error _
  | succ depth ih =>
    intro cs hcs
    obtain ⟨st, ps, hst, hps, hread, -⟩ := expandAt_succ_eq_ok.1 hcs
    have hinner (j : StatementId) (hj : .statement j ∈ ps) :=
      ih fun k hk => h k (.head ⟨st, ps, hst, hps, hj⟩ hk)
    exact (shape_expandParts hinner cs hread).trans ((h id .refl st hst).parts ps hps)

theorem balanced_sql {cs : List Command}
    (h : ∀ j, ReflTransGen (run cs).Embeds id j → empty.BuiltBalanced j cs) {text : String}
    (ht : (run cs).sql id = .ok text) : Balanced text.toList := by
  obtain ⟨chunks, hchunks, rfl⟩ := map_eq_ok.1 ht
  exact balanced_toList_iff.2 (shape_expandAt (fun j hj => (h j hj).run) _ chunks hchunks)

end Store
end SqlComposer
