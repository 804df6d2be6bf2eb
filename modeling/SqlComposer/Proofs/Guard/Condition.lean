import SqlComposer.Proofs.Guard.Refusal
import SqlComposer.Proofs.Placeholder.Condition

/-! Guarded filters that are accepted. A filter whose value is absent is left out, except in an alternative,
where what holds of everything stands for it; so an alternative never disappears. With a value there is one
condition, which binds as many values as it has placeholders. -/

namespace SqlComposer

namespace Conditions
variable (cs : Conditions) (logic : Named Logic)

theorem ensures_add (p : Predicate) : Ensures (cs.add logic p) fun after =>
    ∃ l, Logic.resolve logic = .ok l ∧ after = cs ++ [⟨l, p⟩] := by
  intro after h
  obtain ⟨l, hl, h⟩ := bind_eq_ok.1 h
  cases h
  exact ⟨l, hl, rfl⟩

theorem ensures_addTautology : Ensures (cs.addTautology logic) fun after =>
    ∃ l, Logic.resolve logic = .ok l ∧ after = cs ++ if l = .or then [⟨.or, tautology⟩] else [] := by
  intro after h
  obtain ⟨l, hl, h⟩ := bind_eq_ok.1 h
  refine ⟨l, hl, ?_⟩
  cases l with
  | or =>
    cases h
    rfl
  | and =>
    cases h
    exact (List.append_nil cs).symm

end Conditions

namespace Guard
open FilterEdit (columnNames acrossColumns)

/-- Whether the value is absent. A comparison goes without a value that is null, but not a test that asks
for null. -/
def leavesOut (g : Guard) (value : Value) : Bool :=
  match g with
  | across _ _ op => value.isNull && op.hasValue && op != .eq && op != .ne
  | _ => value.isAbsent

def columnCount (columns : Value) : Nat := (columns.members?.getD []).length

/-- The values of the condition: one for every column, if any is asked for. -/
def bound (g : Guard) (value : Value) : List Value :=
  match g with
  | pattern _ shape _ => [.text (shape.wrap value.plain)]
  | regexp .. => [value]
  | acrossPattern shape columns => List.replicate (columnCount columns) (.text (shape.wrap value.plain))
  | across _ columns op =>
    if op.hasValue && !value.isNull then List.replicate (columnCount columns) value else []

def Unmarked : Guard → Prop
  | pattern _ _ column | regexp _ column => column.Unmarked
  | acrossPattern _ columns | across _ columns _ =>
    ∀ vs, columns.members? = some vs → ∀ v ∈ vs, v.Unmarked

def Adds (g : Guard) (value : Value) (l : Logic) (new : Conditions) : Prop :=
  if g.leavesOut value then new = if l = .or then [⟨.or, .text "1=1" []⟩] else []
  else ∃ t, new = [⟨l, .text t (g.bound value)⟩] ∧ (g.Unmarked → marks t = (g.bound value).length)

section Condition
variable (cs : Conditions) (logic : Named Logic) {g : Guard} {value : Value}

def Added (g : Guard) (value : Value) (logic : Named Logic) (cs after : Conditions) : Prop :=
  ∃ l new, Logic.resolve logic = .ok l ∧ g.Adds value l new ∧ after = cs ++ new

theorem ensures_added_tautology (h : g.leavesOut value) :
    Ensures (cs.addTautology logic) (g.Added value logic cs) :=
  (cs.ensures_addTautology logic).mono fun _ ⟨l, hl, hafter⟩ =>
    ⟨l, _, hl, by rw [Adds, if_pos h]; rfl, hafter⟩

theorem ensures_added_text (h : ¬ g.leavesOut value) {t : String} {vs : List Value}
    (hvs : vs = g.bound value) (ht : g.Unmarked → marks t = vs.length) :
    Ensures (cs.add logic (.text t vs)) (g.Added value logic cs) := by
  subst hvs
  refine (cs.ensures_add logic _).mono fun after ⟨l, hl, hafter⟩ => ⟨l, _, hl, ?_, hafter⟩
  rw [Adds, if_neg h]
  exact ⟨t, rfl, ht⟩

theorem ensures_column (column : Value) :
    Ensures (requireText "column" column) fun c => column.Unmarked → marks c.within = 0 :=
  fun c hc h => by rw [c.marks_within, h.ensures "column" c hc]

theorem ensures_columnCount (columns : Value) :
    Ensures (columnNames columns) fun names => names.length = columnCount columns := by
  unfold columnNames columnCount
  refine (ensures_requireMembers _ columns).bind fun vs hvs names h => ?_
  obtain ⟨ps, hps, h⟩ := bind_eq_ok.1 h
  split at h
  · cases h
  · cases h
    rw [hvs, List.length_map, length_of_mapM_eq_ok hps, Option.getD_some]

theorem ensures_added_across (quantifier : Quantifier) (columns : Value) (op : Operator) (value : Value) :
    Ensures (acrossColumns cs quantifier columns op value logic)
      ((across quantifier columns op).Added value logic cs) := by
  have hnames : Ensures (columnNames columns) fun names => names.length = columnCount columns ∧
      ((across quantifier columns op).Unmarked → ∀ n ∈ names, marks n = 0) := fun names h =>
    ⟨ensures_columnCount columns names h, fun hcolumns => FilterEdit.ensures_columnNames hcolumns names h⟩
  refine hnames.bind fun names ⟨hlength, hnames⟩ => ?_
  have hmarks (op : Operator) (hscalar : op.isScalar) (h) :=
    FilterEdit.marks_joined hscalar quantifier (hnames h)
  cases hscalar : op.isScalar with
  | false => exact ensures_error _
  | true =>
    simp only [Bool.not_true, Bool.false_eq_true, if_false]
    split
    · refine ensures_added_text cs logic (by simp [leavesOut]) rfl fun h => ?_
      exact hmarks .isNull rfl h
    · refine ensures_added_text cs logic (by simp [leavesOut]) rfl fun h => ?_
      exact hmarks .isNotNull rfl h
    · next heq hne =>
      split
      · next hvalue =>
        split
        · next hnull =>
          obtain rfl : value = .null := by cases value <;> first | rfl | cases hnull
          refine ensures_added_tautology cs logic ?_
          have hop : op ≠ .eq ∧ op ≠ .ne := ⟨fun h => heq h rfl, fun h => hne h rfl⟩
          simp [leavesOut, Value.isNull, hvalue, hop]
        · next hnull =>
          refine ensures_added_text cs logic (by simp [leavesOut, hnull]) ?_ fun h => ?_
          · simp [bound, hvalue, hnull, hlength]
          · have hcount : op.valueCount = 1 := by
              revert hscalar hvalue
              cases op <;> decide
            rw [hmarks op hscalar h, hcount, Nat.mul_one, List.length_replicate]
      · next hvalue =>
        refine ensures_added_text cs logic (by simp [leavesOut, hvalue]) ?_ fun h => ?_
        · simp [bound, hvalue]
        · have hcount : op.valueCount = 0 := by simpa [Operator.hasValue] using hvalue
          rw [hmarks op hscalar h, hcount]
          rfl

theorem ensures_call (d : Dialect) (g : Guard) (value : Value) :
    Ensures ((g.call value logic).apply d cs) (g.Added value logic cs) := by
  cases g with
  | pattern negated shape column =>
    refine (ensures_column column).bind fun c hc => ?_
    split
    · next habsent => exact ensures_added_tautology cs logic habsent
    · next habsent =>
      refine (ensures_spell value).bind ?_
      rintro _ rfl
      refine ensures_added_text (g := .pattern negated shape column) cs logic habsent rfl fun h => ?_
      cases negated with
      | false => exact Operator.marks_predicate .like (hc h) rfl
      | true => exact Operator.marks_predicate .notLike (hc h) rfl
  | regexp negated column =>
    refine (ensures_column column).bind fun c hc => ?_
    have htext : Ensures (d.regexp negated c.within) fun t => column.Unmarked → marks t = 1 :=
      fun t ht h => Dialect.marks_regexp (hc h) ht
    refine htext.bind fun t ht => ?_
    split
    · next habsent => exact ensures_added_tautology cs logic habsent
    · next habsent =>
      exact ensures_added_text (g := .regexp negated column) cs logic habsent rfl ht
  | acrossPattern shape columns =>
    rw [call, FilterEdit.apply]
    split
    · next habsent => exact ensures_added_tautology cs logic habsent
    · next habsent =>
      refine (ensures_spell value).bind ?_
      rintro _ rfl
      refine (ensures_added_across cs logic .some columns .like _).mono ?_
      rintro after ⟨l, new, hl, hadds, hafter⟩
      have hleaves : ¬ (acrossPattern shape columns).leavesOut value := habsent
      refine ⟨l, new, hl, ?_, hafter⟩
      rw [Adds, if_neg hleaves]
      exact hadds
  | across quantifier columns op => exact ensures_added_across cs logic quantifier columns op value

end Condition

end Guard

def Logic.NamedBy (l : Logic) : Named Logic → Prop
  | .choice k => k = l
  | .name v => Text.upper v.plain = l.keyword

theorem Logic.namedBy_of_resolve {l : Logic} {logic : Named Logic} (h : Logic.resolve logic = .ok l) :
    l.NamedBy logic := by
  cases logic with
  | choice k =>
    cases h
    rfl
  | name v =>
    simp only [resolve] at h
    split at h
    · next hname =>
      cases h
      rw [ofName?] at hname
      have hkeyword := List.find?_some hname
      exact (beq_iff_eq.1 hkeyword).symm
    · cases h

theorem Statement.fits_of_made {st : Statement} {e : FilterEdit} (h : (st.edit (.filter e)).fault = none) :
    (Edit.filter e).fits st.body := by
  obtain ⟨d, ts, body⟩ := st
  cases body with
  | insert i => cases h
  | select | update | delete => rfl

theorem Body.withConditions_conditions (b : Body) : b.withConditions b.conditions = b := by
  cases b <;> rfl

theorem Guard.Adds.eq_nil_iff {g : Guard} {value : Value} {l : Logic} {new : Conditions}
    (h : g.Adds value l new) : new = [] ↔ l = .and ∧ g.leavesOut value := by
  unfold Adds at h
  split at h
  · next hleaves => cases l <;> simp [h, hleaves]
  · next hleaves =>
    obtain ⟨t, rfl, -⟩ := h
    exact iff_of_false (List.cons_ne_nil _ _) fun h => hleaves h.2

theorem Guard.Adds.length_le {g : Guard} {value : Value} {l : Logic} {new : Conditions}
    (h : g.Adds value l new) : new.length ≤ 1 := by
  unfold Adds at h
  split at h
  · cases l <;> simp [h]
  · obtain ⟨t, rfl, -⟩ := h
    exact Nat.le_refl 1

/-- An accepted filter adds one condition under the connective that it asks for: a text with its values, of
which there are as many as placeholders, or what holds of everything if the value is absent. Only an absent
value in a requirement adds nothing; then the store stays as it is, and a condition that comes later is the
first if there is none yet. -/
theorem Store.guarded_filter_adds (s : Store) (id : StatementId) (st : Statement) (g : Guard)
    (value : Value) (logic : Named Logic) (hst : s.get? id = some st)
    (hmade : (s.edit id (.filter (g.call value logic))).fault = none) :
    ∃ l new, Logic.NamedBy l logic ∧ g.Adds value l new ∧
      (s.edit id (.filter (g.call value logic))).state = ⟨s.statements.set id
        { st with body := st.body.withConditions (st.body.conditions ++ new) }⟩ ∧
      (l = .or → new.length = 1) ∧ (new = [] ↔ l = .and ∧ g.leavesOut value) ∧
      (new = [] → (s.edit id (.filter (g.call value logic))).state = s ∧
        (st.body.conditions = [] → ∀ c later,
          Conditions.clause " WHERE " (st.body.conditions ++ new ++ c :: later) =
            .text " WHERE " :: c.predicate.parts ++ later.flatMap Conditions.laterParts)) := by
  have hfits : (Edit.filter (g.call value logic)).fits st.body := by
    obtain ⟨_, hfound, hedit⟩ := exists_of_edit_fault hmade
    cases hst.symm.trans hfound
    exact Statement.fits_of_made hedit
  have hstep := edit_of_ofExcept hst (Statement.edit_filter hfits)
  cases happly : (g.call value logic).apply st.dialect st.body.conditions with
  | error f =>
    rw [hstep, happly] at hmade
    cases hmade
  | ok after =>
    obtain ⟨l, new, hl, hadds, rfl⟩ := Guard.ensures_call _ logic st.dialect g value after happly
    rw [happly] at hstep
    refine ⟨l, new, Logic.namedBy_of_resolve hl, hadds, by rw [hstep]; rfl, ?_, hadds.eq_nil_iff, ?_⟩
    · rintro rfl
      have hne : new ≠ [] := fun h => by cases (hadds.eq_nil_iff.1 h).1
      have hpos := List.length_pos_iff.2 hne
      have hle := hadds.length_le
      omega
    · rintro rfl
      refine ⟨?_, fun hnone c later => by rw [hnone]; rfl⟩
      rw [hstep, List.append_nil]
      simp only [Except.map, Step.ofExcept, Step.reported_state, Step.made_state,
        Body.withConditions_conditions]
      exact set_get hst

theorem Store.comparisons_of_two_columns_added :
    let s : Store := ⟨[⟨.standard, [], .select .empty⟩]⟩
    let holding (cs : Conditions) : Store :=
      ⟨[⟨.standard, [], .select { Query.empty with conditions := cs }⟩]⟩
    let g : Guard := .across .some (.list [.text "a", .text "b"]) .gt
    let edit (value : Value) (logic : Named Logic) := s.edit 0 (.filter (g.call value logic))
    (edit .null (.name (.text "oR"))).state = holding [⟨.or, .text "1=1" []⟩] ∧
      (edit .null (.choice .and)).state = s ∧
      ∃ t, (edit (.int 1) (.choice .or)).state = holding [⟨.or, .text t [.int 1, .int 1]⟩] ∧
        marks t = 2 := by
  intro s holding g edit
  have h (value : Value) (logic : Named Logic) (hmade : (edit value logic).fault = none) :=
    Store.guarded_filter_adds s 0 _ g value logic rfl hmade
  have hunmarked : g.Unmarked := by
    rintro _ ⟨⟩
    simp [Value.unmarked_text, marks]
  refine ⟨?_, ?_, ?_⟩
  · obtain ⟨l, new, hl, hadds, hstate, -⟩ := h .null (.name (.text "oR")) rfl
    have hor : l = .or := by
      cases l with
      | or => rfl
      | and => exact absurd hl (by unfold Logic.NamedBy; decide)
    subst hor
    cases hadds
    exact hstate
  · obtain ⟨l, new, rfl, -, -, -, hnil, hsame⟩ := h .null (.choice .and) rfl
    exact (hsame (hnil.2 ⟨rfl, rfl⟩)).1
  · obtain ⟨l, new, rfl, hadds, hstate, -⟩ := h (.int 1) (.choice .or) rfl
    obtain ⟨t, rfl, ht⟩ := hadds
    exact ⟨t, hstate, ht hunmarked⟩

end SqlComposer
