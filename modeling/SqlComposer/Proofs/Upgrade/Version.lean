import SqlComposer.Proofs.Dialect.Program
import SqlComposer.Proofs.Upgrade.Spelling

/-! Versions of PostgreSQL. A later version accepts what an earlier one does, and makes the same of it, but
that it spells UUID expressions its own way. What a statement is read as does not depend on the version. -/

namespace SqlComposer

/-- The same dialect of PostgreSQL, in the same version or a later one. -/
def Dialect.UpgradesTo (d d' : Dialect) : Prop :=
  d.family = .postgresql ∧ ∃ v, d.version ≤ v ∧ d' = { d with version := v }

section Upgrade
variable {d d' : Dialect} (h : d.UpgradesTo d')
include h

namespace Dialect.UpgradesTo

theorem family_eq : d'.family = .postgresql := by
  obtain ⟨hfamily, v, -, rfl⟩ := h
  exact hfamily

theorem groupByAll (hd : d.supportsGroupByAll) : d'.supportsGroupByAll := by
  obtain ⟨-, v, hv, rfl⟩ := h
  simp only [supportsGroupByAll, Bool.and_eq_true, decide_eq_true_eq] at hd ⊢
  exact ⟨hd.1, hd.2.trans hv⟩

theorem materializationHints (hd : d.supportsMaterializationHints) :
    d'.supportsMaterializationHints := by
  obtain ⟨-, v, hv, rfl⟩ := h
  simp only [supportsMaterializationHints, Bool.and_eq_true, decide_eq_true_eq] at hd ⊢
  exact ⟨hd.1, hd.2.trans hv⟩

end Dialect.UpgradesTo

theorem CommonTableEdit.apply_upgraded (e : CommonTableEdit) {ts ts' : List CommonTable}
    (hd : e.apply d ts = .ok ts') : e.apply d' ts = .ok ts' := by
  have hcheck (hint : Hint) (hhint : checkHint d hint = .ok ()) : checkHint d' hint = .ok () := by
    unfold checkHint at hhint ⊢
    split at hhint
    · next hopen => exact if_pos (hopen.imp_right h.materializationHints)
    · cases hhint
  obtain ⟨t, ht, hts⟩ := bind_eq_ok.1 hd
  obtain ⟨name, hname, ht⟩ := bind_eq_ok.1 ht
  obtain ⟨hint, hhint, ht⟩ := bind_eq_ok.1 ht
  obtain ⟨⟨⟩, hopen, ht⟩ := bind_eq_ok.1 ht
  refine bind_eq_ok.2 ⟨t, bind_eq_ok.2 ⟨name, hname, ?_⟩, hts⟩
  exact bind_eq_ok.2 ⟨hint, hhint, bind_eq_ok.2 ⟨(), hcheck hint hopen, ht⟩⟩

theorem GroupingEdit.apply_upgraded (e : GroupingEdit) {g : Grouping}
    (hd : (e.apply d g).fault = none) : e.apply d' g = e.apply d g := by
  cases e with
  | groups exprs => cases g <;> rfl
  | all =>
    cases hopen : d.supportsGroupByAll with
    | false => simp [apply, hopen] at hd
    | true => simp [apply, hopen, h.groupByAll hopen]

theorem FilterEdit.apply_upgraded (e : FilterEdit) (cs : Conditions) : e.apply d' cs = e.apply d cs := by
  obtain ⟨-, v, -, rfl⟩ := h
  cases e <;> rfl

theorem AssignmentEdit.assignments_upgraded {reading : Phrase → String}
    (hreading : ∀ s, reading (.text s) = s) (e : AssignmentEdit) :
    e.assignments d' reading = (e.spell d'.uuidText).assignments d reading := by
  cases e with
  | uuid column => exact uuid_eq_expression reading hreading h.family_eq column
  | entries es =>
    obtain ⟨-, v, -, rfl⟩ := h
    cases es <;> rfl
  | _ =>
    obtain ⟨-, v, -, rfl⟩ := h
    rfl

theorem SetEdit.items_upgraded (e : SetEdit) : e.items d' = e.items d := by
  obtain ⟨-, v, -, rfl⟩ := h
  cases e <;> rfl

theorem Query.edit_upgraded (q : Query) (e : Edit) (hd : (q.edit d e).fault = none) :
    q.edit d' e = q.edit d e := by
  cases e with
  | filter e => rw [edit, edit, e.apply_upgraded h]
  | grouping e => rw [edit, edit, e.apply_upgraded h hd]
  | _ => rfl

theorem Insertion.edit_upgraded (i : Insertion) (e : Edit) :
    i.edit d' e = i.edit d (e.spell d'.uuidText) := by
  cases e with
  | assignment e =>
    have hassigned : e.assignments d' Phrase.alone = _ := e.assignments_upgraded h fun _ => rfl
    rw [Edit.spell, edit, edit, hassigned]
  | _ => rfl

theorem Update.edit_upgraded (u : Update) (e : Edit) :
    u.edit d' e = u.edit d (e.spell d'.uuidText) := by
  cases e with
  | assignment e =>
    have hassigned : e.assignments d' Phrase.within = _ := e.assignments_upgraded h fun _ => rfl
    rw [Edit.spell, edit, edit, hassigned]
  | set e =>
    have hspell : (Edit.set e).spell d'.uuidText = .set e := rfl
    rw [hspell, edit, edit, e.items_upgraded h]
  | filter e =>
    have hspell : (Edit.filter e).spell d'.uuidText = .filter e := rfl
    rw [hspell, edit, edit, e.apply_upgraded h]
  | _ => rfl

theorem Deletion.edit_upgraded (x : Deletion) (e : Edit) : x.edit d' e = x.edit d e := by
  cases e with
  | filter e => rw [edit, edit, e.apply_upgraded h]
  | _ => rfl

theorem Body.edit_upgraded (b : Body) (e : Edit)
    (hd : (b.edit d (e.spell d'.uuidText)).fault = none) :
    b.edit d' e = b.edit d (e.spell d'.uuidText) := by
  cases b with
  | select q =>
    rw [edit, Step.map_fault, q.edit_spell] at hd
    rw [edit, edit, q.edit_spell, q.edit_upgraded h e hd]
  | insert i => exact congrArg (Step.map insert) (i.edit_upgraded h e)
  | update u => exact congrArg (Step.map update) (u.edit_upgraded h e)
  | delete x => rw [edit, edit, x.edit_spell, x.edit_upgraded h]

end Upgrade

namespace Statement
variable {st : Statement} {d : Dialect}

theorem edit_upgraded (h : st.dialect.UpgradesTo d) (e : Edit)
    (hst : (st.edit (e.spell d.uuidText)).fault = none) :
    (st.withDialect d).edit e = (st.edit (e.spell d.uuidText)).map (withDialect d) := by
  obtain ⟨before, ts, b⟩ := st
  cases e with
  | commonTable e =>
    have hspell : (Edit.commonTable e).spell d.uuidText = .commonTable e := rfl
    rw [hspell, edit] at hst ⊢
    cases hts : e.apply before ts with
    | ok after =>
      have hlater : e.apply d ts = .ok after := e.apply_upgraded h hts
      simp only [edit, withDialect, hts, hlater]
      rfl
    | error f => simp [hts, Step.ofExcept, Except.map] at hst
  | _ =>
    have hbody := Body.edit_upgraded h b _ hst
    exact congrArg (Step.map fun b => (⟨d, ts, b⟩ : Statement)) hbody

theorem outline_upgraded (h : st.dialect.UpgradesTo d) : (st.withDialect d).outline = st.outline := by
  obtain ⟨before, ts, b⟩ := st
  obtain ⟨-, v, -, rfl⟩ := h
  cases b <;> rfl

theorem countParts_withDialect (d : Dialect) (st : Statement) :
    (st.withDialect d).countParts = st.countParts := by
  obtain ⟨before, ts, b⟩ := st
  cases b <;> rfl

end Statement
end SqlComposer
