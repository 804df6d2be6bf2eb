import SqlComposer.Proofs.Json.Nesting

/-! The values of a revision in two dialects. Every frame begins with a text that is the dialect's own,
so whatever names the frame holds behind the slot, a change puts its values around those of the changes
before it. Where it puts them depends on the dialect, but no dialect loses or repeats one; and dialects
that write an UPDATE in the same way put them in the same place, whenever both can make the change. -/

namespace SqlComposer

namespace Family
open Json
variable {f f' : Family} {t : Storage} {op : Operation} {fr fr' : Frame}

def valuesAhead : Family → Operation → Nat
  | postgresql, .arrayPrepend => 1
  | _, _ => 0

theorem valuesAhead_bare (f : Family) (op : Operation) : f.valuesAhead op.bare = f.valuesAhead op := by
  cases f <;> cases op <;> rfl

theorem frame?_before (h : f.frame? t op = some fr) :
    '\x00' ∉ fr.before.toList ∧ marks fr.before = f.valuesAhead op := by
  have hmark := mark_not_mem_before h
  obtain ⟨l, hl, rfl⟩ := layout_of_frame? h
  have hlayout := forall_layout (P := fun f op l => marks l.before = f.valuesAhead op) (by decide) hl
  exact ⟨hmark, hlayout.trans (valuesAhead_bare f op)⟩

theorem valuesAhead_eq (hstyle : f.updateStyle = f'.updateStyle) (h : f.frame? t op = some fr)
    (h' : f'.frame? t op = some fr') : f.valuesAhead op = f'.valuesAhead op := by
  cases op with
  | arrayPrepend =>
    -- Only MySQL and PostgreSQL can prepend, and they have different styles.
    cases f with
    | ansi | sqlite => cases h
    | mysql =>
      cases f' with
      | mysql => rfl
      | ansi | postgresql | sqlite => cases hstyle
    | postgresql =>
      cases f' with
      | postgresql => rfl
      | mysql => cases hstyle
      | ansi | sqlite => cases h'
  | _ => cases f <;> cases f' <;> rfl

end Family

namespace Json

namespace Revision
variable {r r' s s' : Revision}

/-- The values of two revisions: none is lost or repeated, and between dialects that write an UPDATE in
the same way they are in the same order. -/
def SameValues (r s : Revision) : Prop :=
  r.nested.2.Perm s.nested.2 ∧
    (r.family.updateStyle = s.family.updateStyle → r.nested.2 = s.nested.2)

theorem SameValues.apply (h : r.SameValues s) (hstorage : r.storage = s.storage) {c : Change}
    (hr : r.apply c = .ok r') (hs : s.apply c = .ok s') : r'.SameValues s' := by
  obtain ⟨hperm, hequal⟩ := h
  obtain ⟨tm, htm, hnested⟩ := nested_of_apply hr
  obtain ⟨tm', htm', hnested'⟩ := nested_of_apply hs
  unfold SameValues
  rw [hnested, hnested', (apply_family hr).1, (apply_family hs).1]
  rcases template_eq_ok htm with ⟨v, ha, rfl⟩ | ⟨op, vs, fr, ha, -, hfr, rfl⟩
  · rcases template_eq_ok htm' with ⟨v', ha', rfl⟩ | ⟨op, vs, fr, ha', -, hfr, rfl⟩
    · cases ha.symm.trans ha'
      rw [nest_document, nest_document]
      exact ⟨.refl _, fun _ => rfl⟩
    · cases ha.symm.trans ha'
  · rcases template_eq_ok htm' with ⟨v', ha', rfl⟩ | ⟨op', vs', fr', ha', -, hfr', rfl⟩
    · cases ha.symm.trans ha'
    · cases ha.symm.trans ha'
      obtain ⟨hbefore, hmarks⟩ := Family.frame?_before hfr
      obtain ⟨hbefore', hmarks'⟩ := Family.frame?_before hfr'
      rw [nest_frame _ hbefore, nest_frame _ hbefore', hmarks, hmarks']
      constructor
      · -- Wherever the own values are split, the inner ones can be taken to the front.
        have hfront (n : Nat) (inner : List Value) :
            (vs.take n ++ inner ++ vs.drop n).Perm (inner ++ vs) := by
          have hswap : (vs.take n ++ inner).Perm (inner ++ vs.take n) := List.perm_append_comm
          have hwhole := hswap.append_right (vs.drop n)
          rwa [List.append_assoc inner, List.take_append_drop] at hwhole
        exact (hfront _ _).trans ((hperm.append_right vs).trans (hfront _ _).symm)
      · intro hstyle
        rw [← hstorage] at hfr'
        rw [hequal hstyle, Family.valuesAhead_eq hstyle hfr hfr']

theorem SameValues.applyAll (h : r.SameValues s) (hstorage : r.storage = s.storage)
    {cs : List Change} (hr : r.applyAll cs = .ok r') (hs : s.applyAll cs = .ok s') :
    r'.SameValues s' := by
  induction cs generalizing r s with
  | nil =>
    cases hr
    cases hs
    exact h
  | cons c cs ih =>
    obtain ⟨r₁, hr₁, hr⟩ := bind_eq_ok.1 hr
    obtain ⟨s₁, hs₁, hs⟩ := bind_eq_ok.1 hs
    refine ih (h.apply hstorage hr₁ hs₁) ?_ hr hs
    rw [(apply_family hr₁).2, (apply_family hs₁).2, hstorage]

end Revision
end Json
end SqlComposer
