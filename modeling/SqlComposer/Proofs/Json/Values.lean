import Mathlib.Data.List.Induction
import SqlComposer.Proofs.Dialect.Revision

/-! The values of a revision in closed form. The placeholders of a change stand in the fixed text on one
side of the slot, so no name can shift them: a change binds its value behind those so far, and only what
PostgreSQL prepends to an array is bound in front of them. Replacing the document takes all earlier values
away. -/

namespace SqlComposer
namespace Json

/-- The changes from the last one on that replaces the document, or all of them. -/
def effective : List Change → List Change
  | [] => []
  | c :: cs => if cs.any Change.replaces then effective cs else c :: cs

theorem effective_concat (cs : List Change) (c : Change) :
    effective (cs ++ [c]) = if c.replaces then [c] else effective cs ++ [c] := by
  induction cs with
  | nil => cases c.replaces <;> rfl
  | cons d cs ih =>
    rw [List.cons_append, effective, effective, List.any_append, ih]
    cases hc : c.replaces with
    | true => simp [hc]
    | false => cases hcs : cs.any Change.replaces <;> simp [hc]

end Json

namespace Family
open Json

/-- The values of changes in the order of their placeholders. -/
def boundValues (f : Family) (cs : List Change) : List Value :=
  match f with
  | postgresql =>
    (cs.filter Change.prepends).reverse.filterMap Change.value?
      ++ (cs.filter (!·.prepends)).filterMap Change.value?
  | _ => cs.filterMap Change.value?

theorem filterMap_value?_singleton (c : Change) : [c].filterMap Change.value? = c.value?.toList := by
  cases hc : c.value? <;> simp [hc]

theorem boundValues_concat_behind {f : Family} {c : Change} (h : f = .postgresql → c.prepends = false)
    (cs : List Change) : f.boundValues (cs ++ [c]) = f.boundValues cs ++ c.value?.toList := by
  cases f with
  | postgresql =>
    have hc := h rfl
    simp only [boundValues, List.filter_append, List.filterMap_append, hc, List.filter_cons,
      List.filter_nil, filterMap_value?_singleton, Bool.false_eq_true, if_false, Bool.not_false,
      if_true, List.append_nil, List.append_assoc]
  | ansi | mysql | sqlite =>
    have happend : (cs ++ [c]).filterMap Change.value? =
        cs.filterMap Change.value? ++ [c].filterMap Change.value? := List.filterMap_append
    rwa [filterMap_value?_singleton] at happend

theorem boundValues_concat_ahead {c : Change} (h : c.prepends = true) (cs : List Change) :
    boundValues .postgresql (cs ++ [c]) = c.value?.toList ++ boundValues .postgresql cs := by
  simp only [boundValues, List.filter_append, h, List.filter_cons, List.filter_nil, if_true,
    Bool.not_true, Bool.false_eq_true, if_false, List.append_nil, List.reverse_append,
    List.reverse_singleton, List.filterMap_append, filterMap_value?_singleton, List.append_assoc]

end Family

namespace Json.Revision
variable {f : Family} {t : Storage} {c : Change} {cs : List Change}
  {column : String} {r r' s : Revision}

theorem apply_alongside (h : r.apply c = .ok r') (hfamily : s.family = r.family)
    (hstorage : s.storage = r.storage) :
    ∃ s' tm, s.apply c = .ok s' ∧ r.template c = .ok tm ∧ r'.nested = nest r.nested tm ∧
      s'.nested = nest s.nested tm := by
  obtain ⟨tm, htm, hnested⟩ := nested_of_apply h
  have hs : s.template c = .ok tm := by
    rw [template, hfamily, hstorage]
    exact htm
  exact ⟨_, tm, bind_eq_ok.2 ⟨tm, hs, rfl⟩, htm, hnested, List.foldl_append⟩

theorem values_apply (h : r.apply c = .ok r') (hc : c.replaces = false)
    (hr : r.nested.2 = r.family.boundValues cs) :
    r'.nested.2 = r.family.boundValues (cs ++ [c]) := by
  obtain ⟨tm, htm, hnested⟩ := nested_of_apply h
  rw [hnested]
  rcases template_eq_ok htm with ⟨v, ha, rfl⟩ | ⟨op, vs, fr, ha, -, hfr, rfl⟩
  · rw [Change.eq_set_of_action ha] at hc
    cases hc
  · obtain ⟨hbefore, hmarks⟩ := Family.frame?_before hfr
    obtain ⟨-, hvalues, -, hprepends⟩ := Change.of_action_wrap ha
    rw [nest_frame _ hbefore, hmarks, hr]
    by_cases hahead : r.family = .postgresql ∧ c.prepends = true
    · obtain ⟨hf, hp⟩ := hahead
      obtain ⟨v, rfl⟩ : ∃ v, c = .prependArray v := by
        cases c with
        | prependArray v => exact ⟨v, rfl⟩
        | _ => cases hp
      rw [hf, Family.boundValues_concat_ahead hp, hprepends.1 hp, hvalues]
      exact List.append_nil _
    · have hnone : r.family.valuesAhead op = 0 := by
        unfold Family.valuesAhead
        split
        · next hf => exact absurd ⟨hf, hprepends.2 rfl⟩ hahead
        · rfl
      have hbehind (hf : r.family = .postgresql) : c.prepends = false :=
        Bool.eq_false_iff.2 fun hp => hahead ⟨hf, hp⟩
      rw [Family.boundValues_concat_behind hbehind, hnone, hvalues]
      rfl

theorem nested_eq_of_effective (h : (start f t column).applyAll cs = .ok r) :
    ∃ r', (start f t column).applyAll (effective cs) = .ok r' ∧ r'.nested = r.nested ∧
      r.nested.2 = f.boundValues (effective cs) := by
  induction cs using List.reverseRecOn generalizing r with
  | nil =>
    cases h
    exact ⟨_, rfl, rfl, by cases f <;> rfl⟩
  | append_singleton cs c ih =>
    obtain ⟨r₁, h₁, h⟩ := applyAll_concat.1 h
    have hfamily : r₁.family = f := (applyAll_family h₁).1
    have hstorage : r₁.storage = t := (applyAll_family h₁).2
    rw [effective_concat]
    cases hc : c.replaces with
    | true =>
      rw [if_pos rfl]
      obtain ⟨v, rfl⟩ : ∃ v, c = .set v := by
        cases c with
        | set v => exact ⟨v, rfl⟩
        | _ => cases hc
      obtain ⟨r', tm, hr', htm, hnested, hnested'⟩ :=
        apply_alongside (s := start f t column) h hfamily.symm hstorage.symm
      cases htm
      rw [nest_document] at hnested hnested'
      have hset : (start f t column).applyAll ([] ++ [.set v]) = .ok r' :=
        applyAll_concat.2 ⟨_, rfl, hr'⟩
      refine ⟨r', hset, hnested'.trans hnested.symm, ?_⟩
      rw [hnested]
      cases f <;> rfl
    | false =>
      rw [if_neg Bool.false_ne_true]
      obtain ⟨s, hs, hsame, hvalues⟩ := ih h₁
      obtain ⟨s', tm, hs', -, hnested, hnested'⟩ := apply_alongside h
        ((applyAll_family hs).1.trans hfamily.symm) ((applyAll_family hs).2.trans hstorage.symm)
      rw [← hfamily] at hvalues ⊢
      refine ⟨s', ?_, by rw [hnested', hsame, hnested], values_apply h hc hvalues⟩
      rw [hfamily]
      exact applyAll_concat.2 ⟨s, hs, hs'⟩

/-- For all changes that are accepted, whatever names they have: those before the last replacement of the
document have no effect, and of the others each binds its value behind those before it, except that
PostgreSQL binds what is prepended in front of them. -/
theorem render_eq_effective (h : (start f t column).applyAll cs = .ok r) :
    ∃ r', (start f t column).applyAll (effective cs) = .ok r' ∧ r'.render = r.render ∧
      r.render.2 = f.boundValues (effective cs) := by
  obtain ⟨r', hr', hnested, hvalues⟩ := nested_eq_of_effective h
  exact ⟨r', hr', by rw [render_eq_nested, render_eq_nested, hnested], hvalues⟩

theorem values_around_marked_key :
    let cs := [Change.prependArray (.int 0), .set (.int 1), .appendArray (.int 2),
      .prependArray (.int 3), .removeKey (.text ("?" ++ slot)), .prependArray (.int 4)]
    ∃ r, (start .postgresql .jsonb "c").applyAll cs = .ok r ∧
      r.render.2 = [.int 4, .int 3, .int 1, .int 2] := by
  intro cs
  have h : (start .postgresql .jsonb "c").applyAll cs = .ok _ := rfl
  obtain ⟨-, -, -, hvalues⟩ := render_eq_effective h
  exact ⟨_, h, hvalues⟩

end Json.Revision
end SqlComposer
