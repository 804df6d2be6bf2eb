import SqlComposer.Proofs.Ensures
import SqlComposer.Proofs.Gate.Feature
import SqlComposer.Proofs.Program
import SqlComposer.Proofs.Refusal

/-! Checks. A check answers exactly if its condition holds, and is otherwise refused for a cause of its
kind; of several checks the first that fails is the one that refuses. -/

namespace SqlComposer

/-- Answered exactly on this condition, and otherwise refused for such a cause. -/
def Checked {α : Type} (F : Fault → Prop) (P : Prop) (x : Except Fault α) : Prop :=
  (P ∧ ∃ a, x = .ok a) ∨ (¬ P ∧ ∃ f, x = .error f ∧ F f)

section Checked
variable {α β : Type} {F F' : Fault → Prop} {P Q : Prop} {x : Except Fault α}

theorem checked_ok (h : P) (a : α) : Checked F P (.ok a) := .inl ⟨h, a, rfl⟩

theorem checked_error {f : Fault} (h : ¬ P) (hf : F f) : Checked F P (.error f : Except Fault α) :=
  .inr ⟨h, f, rfl, hf⟩

theorem Checked.mono (hx : Checked F P x) (h : ∀ f, F f → F' f) : Checked F' P x :=
  hx.imp_right fun ⟨hp, f, hf, hF⟩ => ⟨hp, f, hf, h f hF⟩

theorem Checked.of_iff (hx : Checked F P x) (h : P ↔ Q) : Checked F Q x := by
  rwa [← propext h]

theorem Checked.bind (hx : Checked F P x) {g : α → Except Fault β}
    (hg : ∀ a, x = .ok a → Checked F Q (g a)) : Checked F (P ∧ Q) (x >>= g) := by
  rcases hx with ⟨hp, a, rfl⟩ | ⟨hp, f, rfl, hf⟩
  · rcases hg a rfl with ⟨hq, hb⟩ | ⟨hq, hf⟩
    · exact .inl ⟨⟨hp, hq⟩, hb⟩
    · exact .inr ⟨fun h => hq h.2, hf⟩
  · exact checked_error (fun h => hp h.1) hf

theorem Checked.bind_ok (hx : Checked F P x) {g : α → Except Fault β}
    (hg : ∀ a, x = .ok a → ∃ b, g a = .ok b) : Checked F P (x >>= g) :=
  (hx.bind (Q := True) fun a ha => .inl ⟨trivial, hg a ha⟩).of_iff (iff_of_eq (and_true P))

theorem Checked.map (hx : Checked F P x) (g : α → β) : Checked F P (x.map g) := by
  rcases hx with ⟨hp, a, rfl⟩ | ⟨hp, f, rfl, hf⟩
  · exact checked_ok hp _
  · exact checked_error hp hf

theorem Checked.exists_ok (hx : Checked F P x) (h : P) : ∃ a, x = .ok a :=
  hx.elim (·.2) fun hp => absurd h hp.1

theorem checked_mapM {f : α → Except Fault β} {P : α → Prop} {xs : List α}
    (h : ∀ x ∈ xs, Checked F (P x) (f x)) : Checked F (∀ x ∈ xs, P x) (xs.mapM f) := by
  induction xs with
  | nil => exact checked_ok (List.forall_mem_nil P) []
  | cons x xs ih =>
    rw [List.mapM_cons]
    have hx := h x List.mem_cons_self
    have hxs := ih fun y hy => h y (List.mem_cons_of_mem _ hy)
    exact (hx.bind fun _ _ => hxs.bind_ok fun _ _ => ⟨_, rfl⟩).of_iff List.forall_mem_cons.symm

theorem checked_requireText (argument : String) (v : Value) :
    Checked (· = .blankText argument) v.isWritten (requireText argument v) := by
  unfold requireText Value.isWritten
  cases v.phrase? with
  | none => exact checked_error Bool.false_ne_true rfl
  | some p =>
    simp only
    cases Text.isBlank p.alone with
    | true => exact checked_error (by decide) rfl
    | false => exact checked_ok rfl p

theorem checked_resolve (logic : Named Logic) :
    Checked (fun f => ∃ v, logic = .name v ∧ f = .unknownLogic v) (Logic.resolve logic).isOk
      (Logic.resolve logic) := by
  cases h : Logic.resolve logic with
  | ok l => exact checked_ok rfl l
  | error f =>
    refine checked_error Bool.false_ne_true ?_
    cases logic with
    | choice l => cases h
    | name v =>
      simp only [Logic.resolve] at h
      split at h <;> cases h
      exact ⟨v, rfl, rfl⟩

theorem Gated.checked {d : Dialect} {f : Feature} (hx : Gated d [f] x) :
    Checked (· = f.refusal d) (d.Supports f) x := by
  rcases hx with ⟨hf, ha⟩ | ⟨g, hg, hmissing, herror⟩
  · exact .inl ⟨hf f (List.mem_singleton_self f), ha⟩
  · cases List.mem_singleton.1 hg
    exact .inr ⟨hmissing, _, herror, rfl⟩

end Checked

/-- Answered as decided, and refused for such a cause if nothing is decided. -/
def Decides {α β : Type} (F : Fault → Prop) (decision : Option β) (R : β → α → Prop)
    (x : Except Fault α) : Prop :=
  match decision with
  | some b => ∃ a, x = .ok a ∧ R b a
  | none => ∃ f, x = .error f ∧ F f

section Decides
variable {α β : Type} {F : Fault → Prop} {decision : Option β} {R R' : β → α → Prop}
  {x : Except Fault α}

theorem Decides.of_ok {γ : Type} {y : Except Fault γ} {c : γ} (hy : y = .ok c) {g : γ → Except Fault α}
    (h : Decides F decision R (g c)) : Decides F decision R (y >>= g) := by
  rw [hy]
  exact h

theorem Decides.mono (h : Decides F decision R x) (hr : ∀ b a, x = .ok a → R b a → R' b a) :
    Decides F decision R' x := by
  cases decision with
  | some b =>
    obtain ⟨a, ha, hb⟩ := h
    exact ⟨a, ha, hr b a ha hb⟩
  | none => exact h

theorem Decides.causes {F' : Fault → Prop} (h : Decides F decision R x) (hF : ∀ f, F f → F' f) :
    Decides F' decision R x := by
  cases decision with
  | some b => exact h
  | none =>
    obtain ⟨f, hf, hcause⟩ := h
    exact ⟨f, hf, hF f hcause⟩

theorem Decides.checked (h : Decides F decision R x) : Checked F decision.isSome x := by
  cases decision with
  | some b =>
    obtain ⟨a, rfl, -⟩ := h
    exact checked_ok rfl a
  | none =>
    obtain ⟨f, rfl, hf⟩ := h
    exact checked_error Bool.false_ne_true hf

theorem Decides.ensures (h : Decides F decision R x) :
    Ensures x fun a => ∃ b, decision = some b ∧ R b a := by
  cases decision with
  | some b =>
    obtain ⟨a, rfl, hr⟩ := h
    exact ensures_ok ⟨b, rfl, hr⟩
  | none =>
    obtain ⟨f, rfl, -⟩ := h
    exact ensures_error f

end Decides

def Value.LacksMembers (v : Value) : Prop := v.isNull = false ∧ v.spread? = none

theorem decides_requireMembers (refusal : Fault) (v : Value) :
    Decides (fun f => f = refusal ∨ v.LacksMembers ∧ f = .noMembers v.kind) v.members? (fun vs ws => vs = ws)
      (requireMembers refusal v) := by
  cases hmembers : v.members? with
  | some vs =>
    refine ⟨vs, ?_, rfl⟩
    cases v with
    | null | text | operator => cases hmembers
    | _ => simp only [requireMembers, hmembers]
  | none =>
    cases v with
    | null | text | operator => exact ⟨_, rfl, .inl rfl⟩
    | _ => exact ⟨_, by simp only [requireMembers, hmembers], .inr ⟨⟨rfl, hmembers⟩, rfl⟩⟩

theorem Fault.reported_of_subject? {f : Fault} (h : f.subject? = none) : f.reported = f := by
  rw [reported, h]
  rfl

theorem Fault.reported_of_obstacle {f : Fault} {why : Obstacle}
    (h : f.subject?.bind Value.obstacle? = some why) : f.reported = .ofObstacle why := by
  rw [reported, h]

theorem Fault.argument?_reported {f : Fault} (h : f.argument?.isSome) :
    f.reported.argument?.isSome ∨
      f.reported = .longInteger ∧ f.subject?.bind Value.obstacle? = some .longInteger := by
  unfold reported
  split
  · next why hwhy =>
    cases why with
    | joinsWithoutFrom dialect => exact .inl rfl
    | longInteger => exact .inr ⟨rfl, hwhy⟩
  · exact .inl h

theorem Store.edit_of_ofExcept {s : Store} {id : StatementId} {st : Statement} (hst : s.get? id = some st)
    {e : Edit} {x : Except Fault Statement} (he : st.edit e = .ofExcept st x) :
    s.edit id e = (Step.ofExcept s (x.map fun st => ⟨s.statements.set id st⟩)).reported := by
  rw [edit_eq_of_get? hst, he]
  cases x with
  | ok after => rfl
  | error f => exact congrArg (Step.refused · f.reported) (set_get hst)

end SqlComposer
