import SqlComposer.Proofs.Checked
import SqlComposer.Proofs.Gate.Edit
import SqlComposer.Proofs.ReadBack.Collecting

/-! Guarded filters that are refused. The columns of a filter that is guarded by a value are checked before
the value is looked at, so that it does not depend on the value whether they are to blame. Only patterns
across columns look at the value first: there columns are overlooked if no pattern can be made of it. -/

namespace SqlComposer

inductive Guard where
  | pattern (negated : Bool) (shape : Pattern) (column : Value)
  | regexp (negated : Bool) (column : Value)
  | acrossPattern (shape : Pattern) (columns : Value)
  | across (quantifier : Quantifier) (columns : Value) (op : Operator)

def Fault.asksMembers : Fault → Bool
  | noMembers _ => true
  | _ => false

/-- A cause that blames the columns or the dialect. A guarded filter asks only its columns for members. -/
def Fault.blamesColumns (f : Fault) : Bool :=
  f.argument? == some "column" || f.argument? == some "columns" || f.asksMembers
    || f.missingFeature?.isSome

def Value.Examined (v : Value) : Prop := ¬ v.isAbsent ∧ v.obstacle? = none

namespace Guard
open FilterEdit (columnNames acrossColumns)

def call (g : Guard) (value : Value) (logic : Named Logic) : FilterEdit :=
  match g with
  | pattern negated shape column => .pattern negated shape column value logic
  | regexp negated column => .regexp negated column value logic
  | acrossPattern shape columns => .acrossPattern shape columns value logic
  | across quantifier columns op => .across quantifier columns op value logic

def check (d : Dialect) : Guard → Except Fault Unit
  | pattern _ _ column => (requireText "column" column).map fun _ => ()
  | regexp negated column =>
    (requireText "column" column >>= fun c => d.regexp negated c.within).map fun _ => ()
  | acrossPattern _ columns | across _ columns _ => (columnNames columns).map fun _ => ()

def Acceptable (d : Dialect) : Guard → Prop
  | pattern _ _ column => column.isWritten
  | regexp _ column => column.isWritten ∧ d.Supports .regexp
  | acrossPattern _ columns | across _ columns _ =>
    ∃ names, columns.members? = some names ∧ names ≠ [] ∧ ∀ v ∈ names, v.isWritten

def SeesColumns (g : Guard) (value : Value) : Prop :=
  match g with
  | acrossPattern .. => value.Examined
  | _ => True

section Refusal
variable {α β : Type} {P : Prop} {x : Except Fault α}

def columnFault (x : Except Fault α) : Option Fault :=
  match x with
  | .ok _ => none
  | .error f => some f |>.filter Fault.blamesColumns

theorem columnFault_bind (hx : Checked (·.blamesColumns) P x) {g : α → Except Fault β}
    (hg : ∀ a, columnFault (g a) = none) : columnFault (x >>= g) = columnFault x := by
  rcases hx with ⟨-, a, rfl⟩ | ⟨-, f, rfl, -⟩
  · exact hg a
  · rfl

theorem columnFault_map (x : Except Fault α) (g : α → β) : columnFault (x.map g) = columnFault x := by
  cases x <;> rfl

theorem columnFault_resolve_bind (logic : Named Logic) {g : Logic → Except Fault β}
    (hg : ∀ l, columnFault (g l) = none) : columnFault (Logic.resolve logic >>= g) = none := by
  rcases checked_resolve logic with ⟨-, l, hl⟩ | ⟨-, _, hf, v, -, rfl⟩
  · rw [hl]
    exact hg l
  · rw [hf]
    rfl

theorem columnFault_add (cs : Conditions) (logic : Named Logic) (p : Predicate) :
    columnFault (cs.add logic p) = none := columnFault_resolve_bind logic fun _ => rfl

theorem columnFault_addTautology (cs : Conditions) (logic : Named Logic) :
    columnFault (cs.addTautology logic) = none :=
  columnFault_resolve_bind logic fun l => by cases l <;> rfl

theorem checked_column (column : Value) :
    Checked (·.blamesColumns) column.isWritten (requireText "column" column) :=
  (checked_requireText "column" column).mono fun f hf => by rw [hf]; rfl

theorem checked_columnNames (columns : Value) :
    Checked (·.blamesColumns)
      (∃ names, columns.members? = some names ∧ names ≠ [] ∧ ∀ v ∈ names, v.isWritten)
      (columnNames columns) := by
  unfold columnNames
  have hcollection := decides_requireMembers .notColumns columns
  cases hmembers : columns.members? with
  | none =>
    rw [hmembers] at hcollection
    obtain ⟨f, hf, hcause⟩ := hcollection
    rw [hf]
    exact checked_error (by simp) (by rcases hcause with rfl | ⟨-, rfl⟩ <;> rfl)
  | some names =>
    rw [hmembers] at hcollection
    obtain ⟨_, hnames, rfl⟩ := hcollection
    rw [hnames]
    have hsome : Checked (·.blamesColumns) ((∀ v ∈ names, v.isWritten) ∧ names ≠ []) (do
        let names ← names.mapM (requireText "column")
        if names.isEmpty then throw .noColumns
        return names.map Phrase.within) := by
      refine (checked_mapM fun v _ => checked_column v).bind fun ps hps => ?_
      have hlength := length_of_mapM_eq_ok hps
      cases ps with
      | nil => exact checked_error (fun h => h (List.length_eq_zero_iff.1 hlength.symm)) rfl
      | cons p ps => exact checked_ok (by rintro rfl; cases hlength) _
    exact hsome.of_iff (by simp [and_comm])

theorem checked_regexp (d : Dialect) (negated : Bool) (column : Value) :
    Checked (·.blamesColumns) (column.isWritten ∧ d.Supports .regexp)
      (requireText "column" column >>= fun c => d.regexp negated c.within) :=
  (checked_column column).bind fun c _ =>
    (d.gated_regexp negated c.within).checked.mono fun f hf => by rw [hf]; rfl

theorem checked_check (d : Dialect) (g : Guard) :
    Checked (·.blamesColumns) (g.Acceptable d) (g.check d) := by
  cases g with
  | pattern negated shape column => exact (checked_column column).map _
  | regexp negated column => exact (checked_regexp d negated column).map _
  | acrossPattern shape columns | across quantifier columns op => exact (checked_columnNames columns).map _

theorem columnFault_check_eq_none_iff (d : Dialect) (g : Guard) :
    columnFault (g.check d) = none ↔ g.Acceptable d := by
  rcases g.checked_check d with ⟨hg, _, ha⟩ | ⟨hg, f, hf, hblames⟩
  · rw [ha]
    exact iff_of_true rfl hg
  · rw [hf]
    refine iff_of_false (fun h => ?_) hg
    rw [columnFault, Option.filter_some_pos hblames] at h
    cases h

theorem columnFault_acrossColumns (cs : Conditions) (quantifier : Quantifier) (columns : Value)
    (op : Operator) (value : Value) (logic : Named Logic) :
    columnFault (acrossColumns cs quantifier columns op value logic) = columnFault (columnNames columns) := by
  refine columnFault_bind (checked_columnNames columns) fun names => ?_
  cases hscalar : op.isScalar with
  | false => rfl
  | true =>
    simp only [Bool.not_true, Bool.false_eq_true, if_false]
    split
    · exact columnFault_add _ _ _
    · exact columnFault_add _ _ _
    · split
      · split
        · exact columnFault_addTautology _ _
        · exact columnFault_add _ _ _
      · exact columnFault_add _ _ _

theorem columnFault_spell_bind (v : Value) {g : String → Except Fault β}
    (hg : ∀ t, columnFault (g t) = none) : columnFault (spell v >>= g) = none := by
  unfold spell
  split
  · next why _ => cases why <;> rfl
  · exact hg _

theorem columnFault_call (d : Dialect) (g : Guard) (v : Value) (logic : Named Logic) (cs : Conditions) :
    (g.SeesColumns v → columnFault ((g.call v logic).apply d cs) = columnFault (g.check d)) ∧
    (¬ g.SeesColumns v → columnFault ((g.call v logic).apply d cs) = none) := by
  cases g with
  | pattern negated shape column =>
    refine ⟨fun _ => ?_, fun h => absurd trivial h⟩
    rw [check, columnFault_map]
    refine columnFault_bind (checked_column column) fun c => ?_
    split
    · exact columnFault_addTautology cs logic
    · exact columnFault_spell_bind v fun t => columnFault_add cs logic _
  | regexp negated column =>
    refine ⟨fun _ => ?_, fun h => absurd trivial h⟩
    rw [check, columnFault_map, call, FilterEdit.apply, ← bind_assoc]
    refine columnFault_bind (checked_regexp d negated column) fun text => ?_
    split
    · exact columnFault_addTautology cs logic
    · exact columnFault_add cs logic _
  | across quantifier columns op =>
    refine ⟨fun _ => ?_, fun h => absurd trivial h⟩
    rw [check, columnFault_map]
    exact columnFault_acrossColumns cs quantifier columns op v logic
  | acrossPattern shape columns =>
    rw [check, columnFault_map, call, FilterEdit.apply]
    cases habsent : v.isAbsent with
    | true => exact ⟨fun h => absurd habsent h.1, fun _ => columnFault_addTautology cs logic⟩
    | false =>
      simp only [Bool.false_eq_true, if_false, spell]
      cases hobstacle : v.obstacle? with
      | some why =>
        refine ⟨fun h => ?_, fun _ => by cases why <;> rfl⟩
        cases hobstacle.symm.trans h.2
      | none =>
        refine ⟨fun _ => columnFault_acrossColumns cs .some columns .like _ logic, fun h => ?_⟩
        exact absurd ⟨by simp [habsent], hobstacle⟩ h

end Refusal

end Guard

def Body.withConditions (cs : Conditions) : Body → Body
  | select q => select { q with conditions := cs }
  | insert i => insert i
  | update u => update { u with conditions := cs }
  | delete x => delete { x with conditions := cs }

theorem Statement.edit_filter {st : Statement} {e : FilterEdit} (hfits : (Edit.filter e).fits st.body) :
    st.edit (.filter e) = .ofExcept st ((e.apply st.dialect st.body.conditions).map fun cs =>
      { st with body := st.body.withConditions cs }) := by
  obtain ⟨d, ts, body⟩ := st
  simp only [edit, Body.edit]
  cases body with
  | insert i => cases hfits
  | select q =>
    simp only [Query.edit, Body.conditions]
    cases e.apply d q.conditions <;> rfl
  | update u =>
    simp only [Update.edit, Body.conditions]
    cases e.apply d u.conditions <;> rfl
  | delete x =>
    simp only [Deletion.edit, Body.conditions]
    cases e.apply d x.conditions <;> rfl

theorem Fault.blamesColumns_reported (f : Fault) : f.reported.blamesColumns = f.blamesColumns := by
  cases hsubject : f.subject? with
  | none => rw [reported_of_subject? hsubject]
  | some v =>
    have hblames : f.blamesColumns = false := by cases f <;> first | rfl | cases hsubject
    rw [hblames]
    unfold reported
    split
    · next why _ => cases why <;> rfl
    · exact hblames

theorem Fault.reported_of_blamesColumns {f : Fault} (h : f.blamesColumns) : f.reported = f :=
  reported_of_subject? (by cases f <;> first | rfl | cases h)

theorem Guard.filter_reported_fault {σ : Type} (before : σ) (x : Except Fault σ) :
    (Step.ofExcept before x).reported.fault.filter Fault.blamesColumns = columnFault x := by
  cases x with
  | ok after => rfl
  | error f =>
    change (some f.reported).filter Fault.blamesColumns = (some f).filter Fault.blamesColumns
    cases h : f.blamesColumns with
    | true => rw [Fault.reported_of_blamesColumns h]
    | false => rw [Option.filter_some_neg h, Option.filter_some_neg (f.blamesColumns_reported.trans h)]

theorem Statement.fits_filter {st : Statement} {e : FilterEdit} (h : (Edit.filter e).fits st.body)
    (e' : FilterEdit) : (Edit.filter e').fits st.body := by
  revert h
  cases st.body <;> exact fun h => h

/-- The columns of a guarded filter are blamed exactly if they are looked at and are not acceptable. So two
values get the same answer about them exactly if they are acceptable, or looked at beside both of the values
or beside neither. -/
theorem Store.column_faults_agree_iff (s : Store) (id : StatementId) (st : Statement) (g : Guard)
    (v w : Value) (logic : Named Logic) (hst : s.get? id = some st)
    (hfits : (Edit.filter (g.call v logic)).fits st.body) :
    let blamed (value : Value) :=
      (s.edit id (.filter (g.call value logic))).fault.filter Fault.blamesColumns
    ((blamed v).isSome ↔ g.SeesColumns v ∧ ¬ g.Acceptable st.dialect) ∧
    (blamed v = blamed w ↔ g.Acceptable st.dialect ∨ (g.SeesColumns v ↔ g.SeesColumns w)) := by
  intro blamed
  have hcall (value : Value) : blamed value =
      Guard.columnFault ((g.call value logic).apply st.dialect st.body.conditions) := by
    have hedit := Statement.edit_filter (Statement.fits_filter hfits (g.call value logic))
    simp only [blamed, edit_of_ofExcept hst hedit, Guard.filter_reported_fault, Guard.columnFault_map]
  have hseen (value : Value) (h : g.SeesColumns value) :
      blamed value = Guard.columnFault (g.check st.dialect) :=
    (hcall value).trans ((g.columnFault_call st.dialect value logic _).1 h)
  have hunseen (value : Value) (h : ¬ g.SeesColumns value) : blamed value = none :=
    (hcall value).trans ((g.columnFault_call st.dialect value logic _).2 h)
  rw [← g.columnFault_check_eq_none_iff st.dialect]
  by_cases hv : g.SeesColumns v
  · by_cases hw : g.SeesColumns w
    · simp [hseen v hv, hseen w hw, hv, hw, Option.isSome_iff_ne_none]
    · simp [hseen v hv, hunseen w hw, hv, hw, Option.isSome_iff_ne_none]
  · by_cases hw : g.SeesColumns w
    · simp [hunseen v hv, hseen w hw, hv, hw, eq_comm]
    · simp [hunseen v hv, hunseen w hw, hv, hw]

theorem Store.blank_column_always_blamed :
    let s : Store := ⟨[⟨.standard, [], .select .empty⟩]⟩
    let g : Guard := .pattern false .contains (.text " ")
    let blamed (value : Value) :=
      (s.edit 0 (.filter (g.call value (.choice .and)))).fault.filter Fault.blamesColumns
    (blamed .null).isSome ∧ blamed .null = blamed (.text "x") := by
  intro s g blamed
  have h := Store.column_faults_agree_iff s 0 _ g .null (.text "x") (.choice .and) rfl rfl
  have hblank : ¬ Value.isWritten (.text " ") := by decide
  exact ⟨h.1.2 ⟨trivial, hblank⟩, h.2.2 (.inr Iff.rfl)⟩

/-- Columns that are missing, no collection or blank, and a blank pattern across them. -/
theorem Store.columns_unseen_behind_blank_pattern :
    let s : Store := ⟨[⟨.standard, [], .select .empty⟩]⟩
    let fault (columns : Value) (pattern : String) :=
      (s.edit 0 (.filter (.acrossPattern .contains columns (.text pattern) (.choice .and)))).fault
    ∀ columns ∈ [Value.list [], .null, .text "a", .list [.text " "]],
      fault columns "" = none ∧ ∃ f, fault columns "x" = some f ∧ f.blamesColumns := by
  intro s fault
  repeat refine List.forall_mem_cons.2 ⟨⟨rfl, _, rfl, rfl⟩, ?_⟩
  exact List.forall_mem_nil _

end SqlComposer
