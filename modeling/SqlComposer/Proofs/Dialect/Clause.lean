import SqlComposer.Clause.CommonTable
import SqlComposer.Clause.Filter
import SqlComposer.Clause.Grouping
import SqlComposer.Clause.SetItem
import SqlComposer.Proofs.Binding
import SqlComposer.Proofs.Dialect.Revision
import Mathlib.Data.List.Forall2

/-! Changes of clauses in two dialects. Where both dialects accept a change, it binds the same in both:
the dialect decides about texts only. Conditions even have the same texts, but for a match against a
regular expression; and the values of a JSON revision may be in another order. -/

namespace SqlComposer
variable {α β γ δ σ τ : Type} {R : α → β → Prop} {S : γ → δ → Prop}

def Paired (R : α → β → Prop) (x : Except Fault α) (y : Except Fault β) : Prop :=
  ∀ a b, x = .ok a → y = .ok b → R a b

theorem paired_ok {a : α} {b : β} (h : R a b) : Paired R (.ok a) (.ok b) := by
  rintro _ _ ⟨⟩ ⟨⟩
  exact h

theorem paired_any (x : Except Fault α) (y : Except Fault β) : Paired (fun _ _ => True) x y :=
  fun _ _ _ _ => trivial

theorem paired_self {R : α → α → Prop} (h : ∀ a, R a a) (x : Except Fault α) : Paired R x x := by
  rintro a b ha hb
  cases ha.symm.trans hb
  exact h a

theorem paired_error (f : Fault) (y : Except Fault β) : Paired R (.error f) y :=
  fun _ _ h _ => nomatch h

theorem Paired.bind {x : Except Fault α} {y : Except Fault β} (h : Paired R x y)
    {f : α → Except Fault γ} {g : β → Except Fault δ} (hfg : ∀ a b, R a b → Paired S (f a) (g b)) :
    Paired S (x >>= f) (y >>= g) := by
  intro c d hc hd
  obtain ⟨a, ha, hc⟩ := bind_eq_ok.1 hc
  obtain ⟨b, hb, hd⟩ := bind_eq_ok.1 hd
  exact hfg a b (h a b ha hb) c d hc hd

theorem Paired.map {x : Except Fault α} {y : Except Fault β} (h : Paired R x y) {f : α → γ}
    {g : β → δ} (hfg : ∀ a b, R a b → S (f a) (g b)) : Paired S (x.map f) (y.map g) := by
  intro c d hc hd
  obtain ⟨a, ha, rfl⟩ := map_eq_ok.1 hc
  obtain ⟨b, hb, rfl⟩ := map_eq_ok.1 hd
  exact hfg a b (h a b ha hb)

def Step.Paired (R : σ → τ → Prop) (s : Step σ) (t : Step τ) : Prop :=
  s.fault = none → t.fault = none → R s.state t.state

theorem Step.paired_ofExcept {R : σ → τ → Prop} {x : Except Fault σ} {y : Except Fault τ}
    (h : SqlComposer.Paired R x y) (before : σ) (before' : τ) :
    (ofExcept before x).Paired R (ofExcept before' y) := by
  intro hx hy
  cases x with
  | error f => cases hx
  | ok a =>
    cases y with
    | error f => cases hy
    | ok b => exact h a b rfl rfl

theorem Step.Paired.map {R : α → β → Prop} {S : σ → τ → Prop} {s : Step α} {t : Step β}
    (h : s.Paired R t) {f : α → σ} {g : β → τ} (hfg : ∀ a b, R a b → S (f a) (g b)) :
    (s.map f).Paired S (t.map g) := fun hs ht => hfg _ _ (h hs ht)

theorem Step.paired_self {R : σ → σ → Prop} (h : ∀ a, R a a) (s : Step σ) : s.Paired R s :=
  fun _ _ => h s.state

def Condition.SameBindings (c c' : Condition) : Prop :=
  bindingsOf c.predicate.parts = bindingsOf c'.predicate.parts

namespace Conditions
variable {R : Condition → Condition → Prop} {cs cs' : Conditions}

theorem reading_eq (h : List.Forall₂ R cs cs') : cs.reading = cs'.reading := by
  cases h <;> rfl

theorem forall₂_concat (h : List.Forall₂ R cs cs') {c c' : Condition} (hc : R c c') :
    List.Forall₂ R (cs ++ [c]) (cs' ++ [c']) :=
  List.rel_append h (.cons hc .nil)

theorem paired_add (h : List.Forall₂ R cs cs') (logic : Named Logic) {p p' : Predicate}
    (hp : ∀ l, R ⟨l, p⟩ ⟨l, p'⟩) :
    Paired (List.Forall₂ R) (cs.add logic p) (cs'.add logic p') := by
  refine (paired_self (R := Eq) (fun _ => rfl) (Logic.resolve logic)).bind ?_
  rintro l _ rfl
  exact paired_ok (forall₂_concat h (hp l))

variable (hR : ∀ c, R c c)
include hR

theorem paired_addTautology (h : List.Forall₂ R cs cs') (logic : Named Logic) :
    Paired (List.Forall₂ R) (cs.addTautology logic) (cs'.addTautology logic) := by
  refine (paired_self (R := Eq) (fun _ => rfl) (Logic.resolve logic)).bind ?_
  rintro l _ rfl
  cases l with
  | and => exact paired_ok h
  | or => exact paired_ok (forall₂_concat h (hR _))

theorem paired_addIfAny (h : List.Forall₂ R cs cs') (logic : Named Logic)
    (x : Except Fault (Option Predicate)) :
    Paired (List.Forall₂ R)
      (do match ← x with
        | some p => cs.add logic p
        | none => return cs)
      (do match ← x with
        | some p => cs'.add logic p
        | none => return cs') := by
  refine (paired_self (R := Eq) (fun _ => rfl) x).bind ?_
  rintro p _ rfl
  cases p with
  | some p => exact paired_add h logic fun l => hR _
  | none => exact paired_ok h

theorem paired_addExpanded (h : List.Forall₂ R cs cs') (logic : Logic) (expr : Value)
    (values : List Value) :
    Paired (List.Forall₂ R) (cs.addExpanded logic expr values)
      (cs'.addExpanded logic expr values) := by
  rw [addExpanded, addExpanded, reading_eq h]
  exact paired_addIfAny hR h (.choice logic) _

end Conditions

namespace FilterEdit
variable {R : Condition → Condition → Prop} {cs cs' : Conditions}

def isRegexp : FilterEdit → Bool
  | regexp .. => true
  | _ => false

variable (hR : ∀ c, R c c)
include hR

theorem paired_acrossColumns (h : List.Forall₂ R cs cs') (quantifier : Quantifier) (columns : Value)
    (op : Operator) (value : Value) (logic : Named Logic) :
    Paired (List.Forall₂ R) (acrossColumns cs quantifier columns op value logic)
      (acrossColumns cs' quantifier columns op value logic) := by
  have hadd (p : Predicate) := Conditions.paired_add h logic fun l => hR ⟨l, p⟩
  refine (paired_self (R := Eq) (fun _ => rfl) (columnNames columns)).bind ?_
  rintro names _ rfl
  by_cases hscalar : op.isScalar
  · simp only [hscalar, Bool.not_true, Bool.false_eq_true, if_false]
    split
    · exact hadd _
    · exact hadd _
    · split
      · split
        · exact Conditions.paired_addTautology hR h logic
        · exact hadd _
      · exact hadd _
  · simp only [hscalar, Bool.not_false, if_true]
    split <;> exact paired_error _ _

theorem forall₂_addBound (h : List.Forall₂ R cs cs') (op : Operator) (column : String) (v : Value) :
    List.Forall₂ R (addBound cs op column v) (addBound cs' op column v) := by
  unfold addBound
  split
  · exact h
  · exact Conditions.forall₂_concat h (hR _)

theorem paired_apply {e : FilterEdit}
    (hregexp : e.isRegexp → ∀ l t t' values, R ⟨l, .text t values⟩ ⟨l, .text t' values⟩)
    (h : List.Forall₂ R cs cs') (d d' : Dialect) :
    Paired (List.Forall₂ R) (e.apply d cs) (e.apply d' cs') := by
  have hadd (logic : Named Logic) (p : Predicate) :=
    Conditions.paired_add h logic fun l => hR ⟨l, p⟩
  have hcolumn (argument : String) (column : Value) :=
    paired_self (R := Eq) (fun _ => rfl) (requireText argument column)
  have hspell (v : Value) := paired_self (R := Eq) (fun _ => rfl) (spell v)
  cases e with
  | condition logic expr values => exact Conditions.paired_addExpanded hR h logic expr values
  | compare op column value logic =>
    refine (hcolumn "column" column).bind ?_
    rintro c _ rfl
    exact hadd logic _
  | member negated column values logic => exact Conditions.paired_addIfAny hR h logic _
  | memberOf negated column query logic =>
    refine (hcolumn "column" column).bind ?_
    rintro c _ rfl
    exact hadd logic _
  | between column first last =>
    refine (hcolumn "column" column).bind ?_
    rintro c _ rfl
    exact paired_ok (forall₂_addBound hR (forall₂_addBound hR h _ _ _) _ _ _)
  | isNull negated column logic =>
    refine (hcolumn "column" column).bind ?_
    rintro c _ rfl
    exact hadd logic _
  | pattern negated shape column value logic =>
    refine (hcolumn "column" column).bind ?_
    rintro c _ rfl
    split
    · exact Conditions.paired_addTautology hR h logic
    · refine (hspell value).bind ?_
      rintro s _ rfl
      exact hadd logic _
  | regexp negated column expr logic =>
    refine (hcolumn "column" column).bind ?_
    rintro c _ rfl
    refine (paired_any (d.regexp negated c.within) (d'.regexp negated c.within)).bind ?_
    intro t t' _
    split
    · exact Conditions.paired_addTautology hR h logic
    · exact Conditions.paired_add h logic fun l => hregexp rfl l t t' [expr]
  | across quantifier columns op value logic => exact paired_acrossColumns hR h _ _ _ _ _
  | acrossPattern shape columns value logic =>
    simp only [apply]
    split
    · exact Conditions.paired_addTautology hR h logic
    · refine (hspell value).bind ?_
      rintro s _ rfl
      exact paired_acrossColumns hR h _ _ _ _ _
  | anyOf column query logic =>
    refine (hcolumn "column" column).bind ?_
    rintro c _ rfl
    exact hadd logic _
  | hasRows negated query logic => exact hadd logic _
  | hasRowsText negated query logic =>
    refine (hcolumn "subquery" query).bind ?_
    rintro q _ rfl
    exact hadd logic _

end FilterEdit
theorem CommonTableEdit.paired_apply (e : CommonTableEdit) (ts : List CommonTable) (d d' : Dialect) :
    Paired Eq (e.apply d ts) (e.apply d' ts) := by
  have hname := paired_self (R := Eq) (fun _ => rfl) (requireText "name" e.name)
  have hhint := paired_self (R := Eq) (fun _ => rfl) (Hint.ofValue e.hint)
  have htable : Paired Eq (e.table d) (e.table d') := by
    refine hname.bind ?_
    rintro name _ rfl
    refine hhint.bind ?_
    rintro hint _ rfl
    exact (paired_any (checkHint d hint) (checkHint d' hint)).bind fun _ _ _ => paired_ok rfl
  refine htable.bind ?_
  rintro t _ rfl
  exact paired_ok rfl

theorem GroupingEdit.paired_apply (e : GroupingEdit) (g : Grouping) (d d' : Dialect) :
    (e.apply d g).Paired Eq (e.apply d' g) := by
  cases e with
  | groups exprs => cases g <;> exact Step.paired_self (fun _ => rfl) _
  | all =>
    intro hd hd'
    simp only [apply] at hd hd' ⊢
    split at hd
    · cases hd
    · next hsupport =>
      split at hd'
      · cases hd'
      · next hsupport' => rw [if_neg hsupport, if_neg hsupport']

def Assignment.bindings (a : Assignment) : List Binding := bindingsOf a.value.parts

def SetItem.bindings (i : SetItem) : List Binding := bindingsOf i.parts

namespace AssignmentEdit
variable {reading : Phrase → String}

theorem paired_assign (column : Value) (text text' : String) (values : List Value) :
    Paired (fun a a' : Assignment => a.bindings = a'.bindings) (assign reading column text values)
      (assign reading column text' values) :=
  (paired_any _ _).bind fun _ _ _ => paired_ok rfl

theorem paired_one {x y : Except Fault Assignment}
    (h : Paired (fun a a' : Assignment => a.bindings = a'.bindings) x y) :
    (one x).Paired
      (fun as as' => as.flatMap Assignment.bindings = as'.flatMap Assignment.bindings) (one y) := by
  refine Step.paired_ofExcept (h.map fun a a' ha => ?_) [] []
  rw [List.flatMap_singleton, List.flatMap_singleton, ha]

theorem paired_leadingEntries (n n' : Naming) (es : List (String × Value)) :
    (leadingEntries n es).Paired
      (fun as as' => as.flatMap Assignment.bindings = as'.flatMap Assignment.bindings)
      (leadingEntries n' es) := by
  induction es with
  | nil => exact fun _ _ => rfl
  | cons e es ih =>
    obtain ⟨key, v⟩ := e
    unfold leadingEntries
    split
    · refine ih.map fun as as' h => ?_
      rw [List.flatMap_cons, List.flatMap_cons, h]
      rfl
    · exact fun h _ => nomatch h

theorem paired_assignments (e : AssignmentEdit) (d d' : Dialect) :
    (e.assignments d reading).Paired
      (fun as as' => as.flatMap Assignment.bindings = as'.flatMap Assignment.bindings)
      (e.assignments d' reading) := by
  have hself (x : Except Fault Assignment) :
      Paired (fun a a' : Assignment => a.bindings = a'.bindings) x x :=
    paired_self (by exact fun _ => rfl) x
  cases e with
  | entries es =>
    cases es with
    | none => exact fun h _ => nomatch h
    | some es => exact paired_leadingEntries d.naming d'.naming es
  | expression | query => exact paired_one (hself _)
  | now | null | default | document | bytes => exact paired_one (paired_assign _ _ _ _)
  | array column values =>
    simp only [assignments]
    cases values.elements? with
    | some vs => exact paired_one ((paired_any _ _).bind fun _ _ _ => paired_assign _ _ _ vs)
    | none => exact paired_one (paired_error _ _)
  | uuid column => exact paired_one ((paired_any _ _).bind fun _ _ _ => paired_assign _ _ _ [])
  | nextValue column sequence =>
    exact paired_one ((paired_any _ _).bind fun _ _ _ =>
      (paired_any _ _).bind fun _ _ _ => paired_assign _ _ _ [])

end AssignmentEdit

/-- Bindings of two statements: none is lost or repeated, and they are in the same order if the dialects
write an UPDATE in the same way. -/
def Shuffled (same : Prop) (bs bs' : List Binding) : Prop := bs.Perm bs' ∧ (same → bs = bs')

section Shuffled
variable {same : Prop} {as as' bs bs' : List Binding}

theorem shuffled_of_eq (h : bs = bs') : Shuffled same bs bs' := ⟨.of_eq h, fun _ => h⟩

theorem Shuffled.append (has : Shuffled same as as') (hbs : Shuffled same bs bs') :
    Shuffled same (as ++ bs) (as' ++ bs') :=
  ⟨has.1.append hbs.1, fun h => by rw [has.2 h, hbs.2 h]⟩

end Shuffled

namespace SetEdit

theorem paired_items (e : SetEdit) (d d' : Dialect) :
    Paired (fun is is' : List SetItem => Shuffled (d.family.updateStyle = d'.family.updateStyle)
        (is.flatMap SetItem.bindings) (is'.flatMap SetItem.bindings))
      (e.items d) (e.items d') := by
  have hitem {x y : Except Fault SetItem}
      (h : Paired (fun i i' : SetItem => i.bindings = i'.bindings) x y) :
      Paired (fun is is' : List SetItem => Shuffled (d.family.updateStyle = d'.family.updateStyle)
          (is.flatMap SetItem.bindings) (is'.flatMap SetItem.bindings))
        (do return [← x]) (do return [← y]) := by
    refine h.bind fun i i' hi => paired_ok (shuffled_of_eq ?_)
    rw [List.flatMap_singleton, List.flatMap_singleton, hi]
  have hassign (column : Value) (expression expression' : String → String) (value : Value) :
      Paired (fun i i' : SetItem => i.bindings = i'.bindings) (assign column expression value)
        (assign column expression' value) :=
    (paired_any _ _).bind fun _ _ _ => (paired_any _ _).bind fun _ _ _ => paired_ok rfl
  have hgated (column : Value) (expression expression' : String → Except Fault String)
      (value : Value) :
      Paired (fun i i' : SetItem => i.bindings = i'.bindings) (assignGated column expression value)
        (assignGated column expression' value) :=
    (paired_any _ _).bind fun _ _ _ => (paired_any _ _).bind fun _ _ _ =>
      (paired_any _ _).bind fun _ _ _ => paired_ok rfl
  cases e with
  | raw text values =>
    refine (paired_self (R := Eq) (fun _ => rfl) (requireText "expr" text)).bind ?_
    rintro t _ rfl
    exact paired_ok (shuffled_of_eq rfl)
  | arithmetic | concat | append | prepend | coalesce => exact hitem (hassign _ _ _ _)
  | arrayAppend | arrayRemove => exact hitem (hgated _ _ _ _)
  | revise storage column changes =>
    refine (paired_self (R := Eq) (fun _ => rfl) (requireText "column" column)).bind ?_
    rintro c _ rfl
    -- Without changes nothing is assigned, and a revision without changes has no values.
    have hbindings (r : Json.Revision) (is : List SetItem)
        (h : (if r.isEmpty then (pure [] : Except Fault (List SetItem)) else
          pure [.assignment ⟨c.within, .expression r.render.1 r.render.2⟩]) = .ok is) :
        is.flatMap SetItem.bindings = r.nested.2.map .value := by
      split at h
      · next hempty =>
        cases h
        rw [Json.Revision.nested, List.isEmpty_iff.1 hempty]
        rfl
      · cases h
        simp [SetItem.bindings, SetItem.parts, Assignment.parts, AssignedValue.parts,
          Json.Revision.render_eq_nested]
    intro is is' his his'
    obtain ⟨r, hr, his⟩ := bind_eq_ok.1 his
    obtain ⟨r', hr', his'⟩ := bind_eq_ok.1 his'
    have hstart : (Json.Revision.start d.family storage c.alone).SameValues
        (.start d'.family storage c.alone) := ⟨.refl _, fun _ => rfl⟩
    obtain ⟨hperm, hequal⟩ := hstart.applyAll rfl hr hr'
    rw [hbindings r is his, hbindings r' is' his']
    rw [(Json.Revision.applyAll_family hr).1, (Json.Revision.applyAll_family hr').1] at hequal
    exact ⟨hperm.map _, fun hstyle => congrArg (List.map Binding.value) (hequal hstyle)⟩

end SetEdit
end SqlComposer
