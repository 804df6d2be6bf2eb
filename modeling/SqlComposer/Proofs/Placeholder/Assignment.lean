import SqlComposer.Clause.SetItem
import SqlComposer.Proofs.Json.Nesting
import SqlComposer.Proofs.Placeholder.Argument
import SqlComposer.Proofs.Placeholder.Naming

/-! Aligned assignments. An expression binds the values that were given with it, in a SET clause as in
an insertion; a revision of a JSON column binds the values of all its changes. -/

namespace SqlComposer

def Assignment.Aligned (a : Assignment) : Prop := marks a.column = 0 ∧ AlignedParts a.value.parts

def AssignmentEdit.Aligned : AssignmentEdit → Prop
  | expression column text values => column.Unmarked ∧ text.Marked values.length
  | entries es => ∀ entries, es = some entries → ∀ e ∈ entries, marks e.1 = 0
  | now column | null column | default column | document _ column _ | bytes column _
  | array column _ | uuid column | query column _ => column.Unmarked
  | nextValue column sequence => column.Unmarked ∧ sequence.Unmarked

/-- A raw text may also leave out the placeholder of its only value. -/
def SetEdit.Aligned : SetEdit → Prop
  | raw text values =>
    text.Marked values.length ∨ text.Unmarked ∧ values.length = 1
  | arithmetic _ column _ | concat column _ | append column _ | prepend column _
  | coalesce column _ | arrayAppend column _ | arrayRemove column _ => column.Unmarked
  | revise _ column changes => column.Unmarked ∧ ∀ c ∈ changes, c.Plain

namespace Assignment

theorem aligned_parts {a : Assignment} (h : a.Aligned) : AlignedParts a.parts := by
  refine alignedParts_cons.2 ⟨?_, h.2⟩
  rw [Part.aligned_text, marks_append, h.1]
  decide

theorem aligned_expression {column text : String} {values : List Value} (hc : marks column = 0)
    (ht : marks text = values.length) : Aligned ⟨column, .expression text values⟩ :=
  ⟨hc, alignedParts_cons.2 ⟨ht, alignedParts_nil⟩⟩

end Assignment

namespace AssignmentEdit
variable {reading : Phrase → String}

theorem ensures_assign (hr : ∀ p, marks (reading p) = marks p.alone) {column : Value}
    (h : column.Unmarked) {text : String} {values : List Value} (ht : marks text = values.length) :
    Ensures (assign reading column text values) Assignment.Aligned :=
  (h.ensures "column").bind fun c hc =>
    ensures_ok (Assignment.aligned_expression (by rw [hr, hc]) ht)

theorem one_aligned {a : Except Fault Assignment} (h : Ensures a Assignment.Aligned) :
    ∀ b ∈ (one a).state, b.Aligned :=
  Step.ofExcept_keeps (P := fun as => ∀ b ∈ as, Assignment.Aligned b)
    (fun _ hb => absurd hb List.not_mem_nil) (h.map fun _ hb => List.forall_mem_singleton.2 hb)

theorem leadingEntries_aligned (n : Naming) {es : List (String × Value)}
    (h : ∀ e ∈ es, marks e.1 = 0) : ∀ a ∈ (leadingEntries n es).state, a.Aligned := by
  induction es with
  | nil => exact fun a ha => absurd ha List.not_mem_nil
  | cons e es ih =>
    obtain ⟨he, hes⟩ := List.forall_mem_cons.1 h
    rw [leadingEntries]
    split
    · refine List.forall_mem_cons.2 ⟨?_, ih hes⟩
      exact Assignment.aligned_expression (n.marks_convert he) rfl
    · exact fun a ha => absurd ha List.not_mem_nil

theorem marks_binaryCast (f : Family) : marks f.binaryCast = 1 := by cases f <;> decide

theorem marks_nowFunction (f : Family) : marks f.nowFunction = 0 := by cases f <;> decide

theorem Aligned.assignments (d : Dialect) (hr : ∀ p, marks (reading p) = marks p.alone)
    {e : AssignmentEdit} (he : e.Aligned) : ∀ a ∈ (e.assignments d reading).state, a.Aligned := by
  cases e with
  | expression column text values =>
    refine one_aligned ((he.1.ensures "column").bind fun c hc => ?_)
    refine (he.2.ensures "expr").bind fun t ht => ensures_ok ?_
    exact Assignment.aligned_expression (by rw [hr, hc]) (by rw [hr, ht.2])
  | entries es =>
    cases es with
    | none => exact fun a ha => absurd ha List.not_mem_nil
    | some es => exact leadingEntries_aligned d.naming (he es rfl)
  | now column => exact one_aligned (ensures_assign hr he (marks_nowFunction d.family))
  | null column => exact one_aligned (ensures_assign hr he (by decide))
  | default column => exact one_aligned (ensures_assign hr he (by decide))
  | document storage column value =>
    exact one_aligned (ensures_assign hr he (Json.marks_documentCast d.family storage))
  | bytes column value => exact one_aligned (ensures_assign hr he (marks_binaryCast d.family))
  | array column values =>
    refine one_aligned ?_
    split
    · next vs _ =>
      have htext : Ensures (d.arrayLiteral vs.length) fun t => marks t = vs.length :=
        fun t ht => Dialect.marks_arrayLiteral ht
      exact htext.bind fun t ht => ensures_assign hr he ht
    · exact ensures_error _
  | uuid column =>
    have htext : Ensures d.uuidFunction fun t => marks t = 0 := fun t ht =>
      Dialect.marks_uuidFunction ht
    exact one_aligned (htext.bind fun t ht => ensures_assign hr he ht)
  | nextValue column sequence =>
    refine one_aligned ((he.2.ensures "sequence").bind fun s hs => ?_)
    have htext : Ensures (d.nextValue s) fun t => marks t = 0 := fun t ht =>
      Dialect.marks_nextValue hs ht
    exact htext.bind fun t ht => ensures_assign hr he.1 ht
  | query column id =>
    refine one_aligned ((Value.Unmarked.ensures he "column").bind fun c hc => ensures_ok ?_)
    exact ⟨by rw [hr, hc], alignedParts_embedded (by decide) id (by decide)⟩

end AssignmentEdit

namespace SetEdit

theorem aligned_assignment {column text : String} {values : List Value} (hc : marks column = 0)
    (ht : marks text = values.length) :
    AlignedParts (SetItem.assignment ⟨column, .expression text values⟩).parts :=
  Assignment.aligned_parts (Assignment.aligned_expression hc ht)

theorem rawItem_aligned {text : Phrase} {values : List Value}
    (h : marks text.alone = values.length ∨ marks text.alone = 0 ∧ values.length = 1) :
    AlignedParts (rawItem text values).parts := by
  have hraw (hm : marks text.alone = values.length) :
      AlignedParts (SetItem.raw text.alone values).parts :=
    alignedParts_cons.2 ⟨hm, alignedParts_nil⟩
  unfold rawItem
  split
  · next v =>
    split
    · next hmark =>
      have hpos : 0 < marks text.alone := List.count_pos_iff.2 (List.contains_iff_mem.1 hmark)
      exact hraw (h.resolve_right fun h => by omega)
    · next hmark =>
      have hzero : marks text.alone = 0 :=
        List.count_eq_zero.2 fun hmem => hmark (List.contains_iff_mem.2 hmem)
      exact aligned_assignment (by rw [text.marks_within, hzero]) rfl
  · next hone =>
    refine hraw (h.resolve_right fun h => ?_)
    obtain ⟨v, rfl⟩ := List.length_eq_one_iff.1 h.2
    exact hone v rfl

theorem ensures_column {column : Value} (h : column.Unmarked) {α : Type}
    {f : Phrase → Except Fault α} {P : α → Prop}
    (hf : ∀ c : Phrase, marks c.within = 0 → c.within = column.plain → Ensures (f c) P) :
    Ensures (requireText "column" column >>= f) P := by
  have hcolumn : column.Marked 0 := h
  refine (hcolumn.ensures "column").bind fun c hc => hf c ?_ (Value.plain_of_phrase? hc.1).symm
  rw [c.marks_within, hc.2]

theorem ensures_assign {column : Value} (h : column.Unmarked) {expression : String → String}
    (he : ∀ c, marks c = 0 → marks (expression c) = 1) (value : Value) :
    Ensures (assign column expression value) fun i => AlignedParts i.parts := by
  refine (ensures_spell column).bind fun text htext => ensures_column h fun c hc hplain => ?_
  refine ensures_ok (aligned_assignment hc (he text ?_))
  rw [htext, ← hplain, hc]

theorem ensures_assignGated {column : Value} (h : column.Unmarked)
    {expression : String → Except Fault String}
    (he : ∀ c, marks c = 0 → Ensures (expression c) fun t => marks t = 1) (value : Value) :
    Ensures (assignGated column expression value) fun i => AlignedParts i.parts := by
  intro i hi
  obtain ⟨text, htext, hi⟩ := bind_eq_ok.1 hi
  refine Ensures.bind (Q := fun i => AlignedParts i.parts) (ensures_any _) (fun _ _ => ?_) i hi
  refine ensures_column h fun c hc hplain => ?_
  refine ensures_ok (aligned_assignment hc (he column.plain ?_ text htext))
  rw [← hplain, hc]

theorem ensures_single {x : Except Fault SetItem} (hx : Ensures x fun i => AlignedParts i.parts) :
    Ensures (x >>= fun i => pure [i]) fun is => ∀ i ∈ is, AlignedParts i.parts :=
  hx.bind fun _ hi => ensures_ok (List.forall_mem_singleton.2 hi)

theorem Aligned.items (d : Dialect) {e : SetEdit} (he : e.Aligned) :
    Ensures (e.items d) fun is => ∀ i ∈ is, AlignedParts i.parts := by
  cases e with
  | raw text values =>
    refine Ensures.bind (P := fun p => text.phrase? = some p) ?_ fun t ht => ensures_ok ?_
    · exact fun p hp => requireText_eq_ok hp
    · refine List.forall_mem_singleton.2 (rawItem_aligned ?_)
      exact he.imp (fun h => h t ht) fun h => ⟨h.1 t ht, h.2⟩
  | arithmetic op column value =>
    refine ensures_single (ensures_assign he (fun c hc => ?_) value)
    have hsymbol : marks op.symbol = 0 := by cases op <;> decide
    rw [marks_append, marks_append, marks_append, hc, hsymbol]
    decide
  | concat column value =>
    refine ensures_single (ensures_assign he (fun c hc => ?_) value)
    rw [marks_append, marks_append, hc]
    decide
  | append column value =>
    refine ensures_single (ensures_assign he (fun c hc => ?_) value)
    cases d.family <;> simp [Family.stringAppend, hc] <;> decide
  | prepend column value =>
    refine ensures_single (ensures_assign he (fun c hc => ?_) value)
    cases d.family <;> simp [Family.stringPrepend, hc] <;> decide
  | coalesce column value =>
    refine ensures_single (ensures_assign he (fun c hc => ?_) value)
    rw [marks_append, marks_append, hc]
    decide
  | arrayAppend column value =>
    exact ensures_single
      (ensures_assignGated he (fun c hc t ht => Dialect.marks_arrayAppend hc ht) value)
  | arrayRemove column value =>
    exact ensures_single
      (ensures_assignGated he (fun c hc t ht => Dialect.marks_arrayRemove hc ht) value)
  | revise storage column changes =>
    refine (he.1.ensures "column").bind fun c hc => ?_
    intro is his
    obtain ⟨r, hr, his⟩ := bind_eq_ok.1 his
    have hstart : (Json.Revision.start d.family storage c.alone).Writes Value.shown c.alone.toList :=
      Json.Revision.writes_start hc
    obtain ⟨written, -, hw⟩ := hstart.applyAll he.2 hr
    split at his
    · cases his
      exact fun i hi => absurd hi List.not_mem_nil
    · cases his
      refine List.forall_mem_singleton.2 (aligned_assignment (by rw [c.marks_within, hc]) ?_)
      rw [marks, String.toList_ofList]
      exact hw.1

end SetEdit
end SqlComposer
