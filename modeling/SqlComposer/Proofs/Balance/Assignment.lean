import SqlComposer.Clause.SetItem
import SqlComposer.Proofs.Balance.Condition
import SqlComposer.Proofs.Balance.Naming
import SqlComposer.Proofs.Balance.Revision

/-! Balanced assignments. An expression is written around a column, or as it is given; keys in front of
the first blank one become column names, which keep their parentheses. -/

namespace SqlComposer

def Assignment.Balanced (a : Assignment) : Prop := shape a.column = 1 ∧ BalancedParts a.value.parts

def AssignmentEdit.Balanced : AssignmentEdit → Prop
  | expression column text _ => column.Balanced ∧ text.Balanced
  | entries none => True
  | entries (some es) => ∀ e ∈ es.takeWhile fun e => !Text.isBlank e.1, shape e.1 = 1
  | now column | null column | default column | document _ column _ | bytes column _
  | array column _ | uuid column => column.Balanced
  | nextValue column sequence => column.Balanced ∧ sequence.Balanced
  | query column id => column.Balanced ∧ id.isSome

def SetEdit.Balanced : SetEdit → Prop
  | raw text _ => text.Balanced
  | arithmetic _ column _ | concat column _ | append column _ | prepend column _
  | coalesce column _ | arrayAppend column _ | arrayRemove column _ => column.Balanced
  | revise _ column changes => column.Balanced ∧ ∀ c ∈ changes, c.Balanced

namespace Assignment

theorem Balanced.parts {a : Assignment} (h : a.Balanced) : BalancedParts a.parts := by
  refine h.2.text_cons ?_
  rw [shape_append, h.1]
  decide

theorem balanced_expression {column text : String} (hc : shape column = 1) (ht : shape text = 1)
    (values : List Value) : Balanced ⟨column, .expression text values⟩ :=
  ⟨hc, balancedParts_bound ht values⟩

end Assignment

namespace AssignmentEdit
variable {reading : Phrase → String}

theorem balanced_assign (hr : ∀ p, shape (reading p) = shape p.alone) {column : Value}
    (h : column.Balanced) {text : String} (ht : shape text = 1) (values : List Value) :
    Ensures (assign reading column text values) Assignment.Balanced :=
  (h.require "column").bind fun c hc =>
    ensures_ok (Assignment.balanced_expression ((hr c).trans hc) ht values)

theorem one_balanced {a : Except Fault Assignment} (h : Ensures a Assignment.Balanced) :
    ∀ b ∈ (one a).state, b.Balanced :=
  Step.ofExcept_keeps (P := fun as => ∀ b ∈ as, Assignment.Balanced b)
    (fun _ hb => absurd hb List.not_mem_nil) (h.map fun _ hb => List.forall_mem_singleton.2 hb)

theorem leadingEntries_balanced (n : Naming) {es : List (String × Value)}
    (h : ∀ e ∈ es.takeWhile fun e => !Text.isBlank e.1, shape e.1 = 1) :
    ∀ a ∈ (leadingEntries n es).state, a.Balanced := by
  induction es with
  | nil => exact fun a ha => absurd ha List.not_mem_nil
  | cons e es ih =>
    rw [leadingEntries]
    split
    · next p hp =>
      have hblank : (!Text.isBlank e.1) = true := by
        simp only [requireText, Value.phrase?] at hp
        split at hp
        · cases hp
        · next hblank => simpa using hblank
      have htaken := List.takeWhile_cons_of_pos (p := fun e : String × Value => !Text.isBlank e.1)
        (a := e) (l := es) hblank
      rw [htaken, List.forall_mem_cons] at h
      refine List.forall_mem_cons.2 ⟨?_, ih h.2⟩
      exact Assignment.balanced_expression ((n.shape_convert e.1).trans h.1) (by decide) _
    · exact fun a ha => absurd ha List.not_mem_nil

theorem Balanced.assignments (d : Dialect) (hr : ∀ p, shape (reading p) = shape p.alone)
    {e : AssignmentEdit} (he : e.Balanced) :
    ∀ a ∈ (e.assignments d reading).state, a.Balanced := by
  cases e with
  | expression column text values =>
    refine one_balanced ((he.1.require "column").bind fun c hc => ?_)
    refine (he.2.require "expr").bind fun t ht => ensures_ok ?_
    exact Assignment.balanced_expression ((hr c).trans hc) ((hr t).trans ht) values
  | entries es =>
    cases es with
    | none => exact fun a ha => absurd ha List.not_mem_nil
    | some es => exact leadingEntries_balanced d.naming he
  | now column => exact one_balanced (balanced_assign hr he d.family.shape_nowFunction _)
  | null column => exact one_balanced (balanced_assign hr he (by decide) _)
  | default column => exact one_balanced (balanced_assign hr he (by decide) _)
  | document storage column value =>
    exact one_balanced (balanced_assign hr he (Json.shape_documentCast d.family storage) _)
  | bytes column value => exact one_balanced (balanced_assign hr he d.family.shape_binaryCast _)
  | array column values =>
    refine one_balanced ?_
    split
    · next vs _ =>
      have htext : Ensures (d.arrayLiteral vs.length) fun t => shape t = 1 :=
        fun t ht => Dialect.shape_arrayLiteral ht
      exact htext.bind fun t ht => balanced_assign hr he ht _
    · exact ensures_error _
  | uuid column =>
    have htext : Ensures d.uuidFunction fun t => shape t = 1 := fun t ht => Dialect.shape_uuidFunction ht
    exact one_balanced (htext.bind fun t ht => balanced_assign hr he ht _)
  | nextValue column sequence =>
    refine one_balanced ((he.2.require "sequence").bind fun s hs => ?_)
    have htext : Ensures (d.nextValue s) fun t => shape t = 1 := fun t ht =>
      Dialect.shape_nextValue hs ht
    exact htext.bind fun t ht => balanced_assign hr he.1 ht _
  | query column id =>
    refine one_balanced ((he.1.require "column").bind fun c hc => ensures_ok ?_)
    exact ⟨(hr c).trans hc, balancedParts_embedded (by decide) he.2⟩

end AssignmentEdit

namespace SetEdit

theorem balanced_assignment {column text : String} (hc : shape column = 1) (ht : shape text = 1)
    (values : List Value) :
    BalancedParts (SetItem.assignment ⟨column, .expression text values⟩).parts :=
  (Assignment.balanced_expression hc ht values).parts

theorem rawItem_balanced {text : Phrase} (h : shape text.alone = 1) (values : List Value) :
    BalancedParts (rawItem text values).parts := by
  unfold rawItem
  split
  · next v =>
    split
    · exact balancedParts_bound h [v]
    · exact balanced_assignment (text.shape_within.trans h) (by decide) [v]
  · exact balancedParts_bound h _

theorem balanced_assign {column : Value} (h : column.Balanced) {expression : String → String}
    (he : ∀ c, shape c = 1 → shape (expression c) = 1) (value : Value) :
    Ensures (assign column expression value) fun i => BalancedParts i.parts :=
  h.spelled.bind fun text ht => h.column.bind fun _ hc =>
    ensures_ok (balanced_assignment hc (he text ht) _)

theorem balanced_assignGated {column : Value} (h : column.Balanced)
    {expression : String → Except Fault String}
    (he : Ensures (expression column.plain) fun t => shape t = 1) (value : Value) :
    Ensures (assignGated column expression value) fun i => BalancedParts i.parts := by
  refine he.bind fun text ht => (ensures_any _).bind fun _ _ => h.column.bind fun c hc => ?_
  exact ensures_ok (balanced_assignment hc ht _)

theorem balanced_single {x : Except Fault SetItem} (hx : Ensures x fun i => BalancedParts i.parts) :
    Ensures (x >>= fun i => pure [i]) fun is => ∀ i ∈ is, BalancedParts i.parts :=
  hx.bind fun _ hi => ensures_ok (List.forall_mem_singleton.2 hi)

theorem Balanced.items (d : Dialect) {e : SetEdit} (he : e.Balanced) :
    Ensures (e.items d) fun is => ∀ i ∈ is, BalancedParts i.parts := by
  cases e with
  | raw text values =>
    refine (Value.Balanced.require he "expr").bind fun t ht => ensures_ok ?_
    exact List.forall_mem_singleton.2 (rawItem_balanced ht values)
  | arithmetic op column value =>
    refine balanced_single (balanced_assign he (fun c hc => ?_) value)
    have hsymbol : shape op.symbol = 1 := by cases op <;> decide
    simp only [shape_append, hc, hsymbol]
    decide
  | concat column value =>
    refine balanced_single (balanced_assign he (fun c hc => ?_) value)
    simp only [shape_append, hc]
    decide
  | append column value =>
    exact balanced_single (balanced_assign he (fun _ => d.family.shape_stringAppend) value)
  | prepend column value =>
    exact balanced_single (balanced_assign he (fun _ => d.family.shape_stringPrepend) value)
  | coalesce column value =>
    refine balanced_single (balanced_assign he (fun c hc => ?_) value)
    simp only [shape_append, hc]
    decide
  | arrayAppend column value =>
    exact balanced_single (balanced_assignGated he (fun t ht => Dialect.shape_arrayAppend he ht) value)
  | arrayRemove column value =>
    exact balanced_single (balanced_assignGated he (fun t ht => Dialect.shape_arrayRemove he ht) value)
  | revise storage column changes =>
    refine (he.1.require "column").bind fun c hc => ?_
    have hstart : (Json.Revision.start d.family storage c.alone).Balanced :=
      ⟨hc, fun _ ht => absurd ht List.not_mem_nil⟩
    refine (hstart.applyAll he.2).bind fun r hr => ?_
    split
    · exact ensures_ok fun i hi => absurd hi List.not_mem_nil
    · refine ensures_ok (List.forall_mem_singleton.2 ?_)
      refine balanced_assignment (c.shape_within.trans hc) ?_ r.render.2
      exact (shape_ofList _).trans hr.nested

end SetEdit
end SqlComposer
