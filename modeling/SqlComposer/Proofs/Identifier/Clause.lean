import SqlComposer.Edit
import SqlComposer.Proofs.Ensures
import SqlComposer.Proofs.Identifier.Naming

/-! The names that a statement records: of tables, common tables and embedded queries, of USING columns
and of assigned columns. Every one of them is required to be a text that is not blank when it is given;
only the columns of USING are taken as they are, and the keys of a mapping are converted once they have
been looked at. -/

namespace SqlComposer

def Source.identifier : Source → String
  | table name _ => name
  | query _ asName => asName

def Join.identifiers (j : Join) : List String :=
  j.source.identifier ::
    match j.condition with
    | .columns names => names
    | _ => []

def Column.identifiers : Column → List String
  | expression _ => []
  | query _ asName => [asName]

def SetItem.identifiers : SetItem → List String
  | assignment a => [a.column]
  | raw .. => []

def Body.identifiers : Body → List String
  | select q =>
    q.projection.columns.flatMap Column.identifiers ++ q.sources.map Source.identifier
      ++ q.joins.flatMap Join.identifiers
  | insert i => i.table :: i.assignments.map (·.column)
  | update u =>
    u.targets.map (·.table) ++ u.items.flatMap SetItem.identifiers ++ u.sources.map Source.identifier
      ++ u.joins.flatMap Join.identifiers
  | delete x => x.targets.map (·.table)

def Statement.identifiers (st : Statement) : List String :=
  st.commonTables.map (·.name) ++ st.body.identifiers

def HasBlank (names : List String) : Prop := ∃ name ∈ names, Text.isBlank name

@[simp] theorem hasBlank_nil : ¬ HasBlank [] := by simp [HasBlank]

@[simp] theorem hasBlank_cons {name : String} {names : List String} :
    HasBlank (name :: names) ↔ Text.isBlank name ∨ HasBlank names := by
  simp [HasBlank]

@[simp] theorem hasBlank_append {names names' : List String} :
    HasBlank (names ++ names') ↔ HasBlank names ∨ HasBlank names' := by
  simp only [HasBlank, List.mem_append, or_and_right, exists_or]

structure Phrase.Visible (p : Phrase) : Prop where
  alone : ¬ Text.isBlank p.alone
  within : ¬ Text.isBlank p.within

theorem Phrase.Visible.besideAlias {p : Phrase} (h : p.Visible) (asName : Option String) :
    ¬ Text.isBlank (p.besideAlias asName) := by
  unfold Phrase.besideAlias
  split
  · exact h.within
  · exact h.alone

theorem ensures_requireText (argument : String) (v : Value) :
    Ensures (requireText argument v) Phrase.Visible := by
  intro p hp
  unfold requireText at hp
  split at hp
  · split at hp
    · cases hp
    · next hblank =>
      cases hp
      refine ⟨hblank, ?_⟩
      cases p with
      | text s => exact hblank
      | operator op => cases op <;> decide
  · cases hp

theorem CommonTableEdit.ensures_name (d : Dialect) (e : CommonTableEdit) :
    Ensures (e.table d) fun t => ¬ Text.isBlank t.name :=
  (ensures_requireText _ _).bind fun _ hname =>
    (ensures_any _).bind fun _ _ => (ensures_any _).bind fun _ _ => ensures_ok hname.within

theorem targetOf_visible (table asName : Value) :
    Ensures (targetOf table asName) fun t => ¬ Text.isBlank t.table :=
  (ensures_requireText _ _).bind fun _ ht => (ensures_any _).bind fun a _ => ensures_ok (ht.besideAlias a)

theorem SourceEdit.ensures_source (e : SourceEdit) :
    Ensures e.source fun s => ¬ Text.isBlank s.identifier := by
  cases e with
  | table name asName =>
    exact (ensures_requireText _ _).bind fun _ ht =>
      (ensures_any _).bind fun a _ => ensures_ok (ht.besideAlias a)
  | query id asName => exact (ensures_requireText _ _).bind fun _ ha => ensures_ok ha.within

def JoinEdit.OverlooksBlank : JoinEdit → Prop
  | columns _ _ names _ => ∃ p ∈ names, Text.isBlank p.alone
  | _ => False

theorem JoinEdit.ensures_identifiers (e : JoinEdit) :
    Ensures e.join fun j => HasBlank j.identifiers ↔ e.OverlooksBlank := by
  have hnone {j : Join} (hsource : ¬ Text.isBlank j.source.identifier)
      (hcondition : ∀ names, j.condition ≠ .columns names) : ¬ HasBlank j.identifiers := by
    obtain ⟨natural, kind, source, condition, values⟩ := j
    cases condition with
    | columns names => exact absurd rfl (hcondition names)
    | none | on => simpa [Join.identifiers] using hsource
  have htext (t : Option String) (names : List String) : JoinCondition.ofText t ≠ .columns names := by
    cases t <;> exact nofun
  cases e with
  | table kind name on asName values =>
    refine (ensures_any _).bind fun k _ => (ensures_requireText _ _).bind fun t ht => ?_
    refine (ensures_any _).bind fun a _ => ?_
    refine Ensures.bind (P := fun c => ∀ names, c ≠ .columns names) ?_ fun c hc => ?_
    · unfold tableCondition
      split
      · exact ensures_error _
      · exact (ensures_any _).map fun t _ => htext t
    · exact ensures_ok (iff_of_false (hnone ht.within hc) id)
  | columns kind name names asName =>
    cases names with
    | nil => exact ensures_error _
    | cons p names =>
      refine (ensures_any _).bind fun k _ => (ensures_requireText _ _).bind fun t ht => ?_
      refine (ensures_any _).bind fun a _ => ensures_ok ?_
      simp only [Join.identifiers, Source.identifier, hasBlank_cons, OverlooksBlank]
      rw [or_iff_right ht.within]
      simp [HasBlank]
  | natural kind name =>
    refine (ensures_any _).bind fun k _ => (ensures_requireText _ _).bind fun t ht => ensures_ok ?_
    exact iff_of_false (hnone ht.within nofun) not_false
  | query kind id asName on values =>
    refine (ensures_requireText _ _).bind fun a ha => (ensures_any _).bind fun k _ => ?_
    refine (ensures_any _).bind fun c _ => ensures_ok ?_
    exact iff_of_false (hnone ha.within (htext c)) not_false

theorem ColumnEdit.hasBlank_apply (e : ColumnEdit) (p : Projection) :
    HasBlank ((e.apply p).state.columns.flatMap Column.identifiers) ↔
      HasBlank (p.columns.flatMap Column.identifiers) := by
  have hadd {columns : List Column} (h : ¬ HasBlank (columns.flatMap Column.identifiers)) :
      HasBlank ((p.add columns).columns.flatMap Column.identifiers) ↔
        HasBlank (p.columns.flatMap Column.identifiers) := by
    rw [Projection.add, List.flatMap_append, hasBlank_append, or_iff_left h]
  have htext (text : Except Fault String) :
      HasBlank ((addText p text).state.columns.flatMap Column.identifiers) ↔
        HasBlank (p.columns.flatMap Column.identifiers) := by
    cases text with
    | ok t => exact hadd hasBlank_nil
    | error f => rfl
  cases e with
  | columns cs =>
    have hnone : ((leadingTexts "column" cs).state.map Column.expression).flatMap Column.identifiers = [] := by
      rw [List.flatMap_map, List.flatMap_eq_nil_iff]
      exact fun _ _ => rfl
    exact hadd (by rw [hnone]; exact hasBlank_nil)
  | distinct => rfl
  | query id asName =>
    refine Step.ofExcept_keeps (P := fun q : Projection =>
      HasBlank (q.columns.flatMap Column.identifiers) ↔ HasBlank (p.columns.flatMap Column.identifiers))
      Iff.rfl ((ensures_requireText _ _).bind fun a ha => ensures_ok (hadd ?_))
    simpa [Column.identifiers] using ha.within
  | columnAs | star | aggregate | count | countDistinct => exact htext _

def AssignmentEdit.columns : AssignmentEdit → List Value
  | expression column _ _ | now column | null column | default column | uuid column => [column]
  | document _ column _ | bytes column _ | array column _ | nextValue column _ => [column]
  | query column _ => [column]
  | entries es => (es.getD []).map fun e => .text e.1

/-- One of the keys in front of the first blank one is blank as a column name. -/
def AssignmentEdit.OverlooksBlank (n : Naming) : AssignmentEdit → Prop
  | entries (some es) => ∃ e ∈ es.takeWhile fun e => !Text.isBlank e.1, n.Empties e.1
  | _ => False

namespace AssignmentEdit

theorem hasBlank_leadingEntries (n : Naming) (es : List (String × Value)) :
    HasBlank ((leadingEntries n es).state.map (·.column)) ↔
      ∃ e ∈ es.takeWhile fun e => !Text.isBlank e.1, n.Empties e.1 := by
  induction es with
  | nil => simp [leadingEntries]
  | cons e es ih =>
    obtain ⟨key, v⟩ := e
    by_cases hkey : Text.isBlank key = true
    · simp [leadingEntries, requireText, Value.phrase?, hkey]
    · have hconvert := n.isBlank_convert hkey
      simp [leadingEntries, requireText, Value.phrase?, hkey, hconvert, ih]

theorem leadingEntries_fault (n : Naming) (es : List (String × Value)) :
    (leadingEntries n es).fault = none ∨
      (leadingEntries n es).fault = some (.blankText "column") := by
  induction es with
  | nil => exact .inl rfl
  | cons e es ih =>
    obtain ⟨key, v⟩ := e
    by_cases hkey : Text.isBlank key = true
    · exact .inr (by simp [leadingEntries, requireText, Value.phrase?, hkey])
    · simpa [leadingEntries, requireText, Value.phrase?, hkey] using ih

theorem ensures_column {reading : Phrase → String} (hreading : ∀ p : Phrase, p.Visible →
    ¬ Text.isBlank (reading p)) (column : Value) (text : String) (values : List Value) :
    Ensures (assign reading column text values) fun a => ¬ Text.isBlank a.column :=
  (ensures_requireText _ _).bind fun c hc => ensures_ok (hreading c hc)

theorem hasBlank_assignments {reading : Phrase → String} (hreading : ∀ p : Phrase, p.Visible →
    ¬ Text.isBlank (reading p)) (d : Dialect) (e : AssignmentEdit) :
    HasBlank ((e.assignments d reading).state.map (·.column)) ↔ e.OverlooksBlank d.naming := by
  have hone {x : Except Fault Assignment} (h : Ensures x fun a => ¬ Text.isBlank a.column) :
      ¬ HasBlank ((one x).state.map (·.column)) := by
    cases x with
    | ok a => simpa [one, Except.map, Step.ofExcept] using h a rfl
    | error f => exact hasBlank_nil
  cases e with
  | entries es =>
    cases es with
    | none => exact iff_of_false hasBlank_nil not_false
    | some es => exact hasBlank_leadingEntries d.naming es
  | expression column text values =>
    refine iff_of_false (hone ?_) not_false
    exact (ensures_requireText _ _).bind fun c hc => (ensures_any _).bind fun t _ =>
      ensures_ok (hreading c hc)
  | now | null | default | document | bytes =>
    exact iff_of_false (hone (ensures_column hreading _ _ _)) not_false
  | array column values =>
    refine iff_of_false (hone ?_) not_false
    split
    · exact (ensures_any _).bind fun text _ => ensures_column hreading _ _ _
    · exact ensures_error _
  | uuid column =>
    exact iff_of_false (hone ((ensures_any _).bind fun text _ => ensures_column hreading _ _ _)) not_false
  | nextValue column sequence =>
    refine iff_of_false (hone ?_) not_false
    exact (ensures_any _).bind fun s _ => (ensures_any _).bind fun text _ =>
      ensures_column hreading _ _ _
  | query column id =>
    exact iff_of_false (hone ((ensures_requireText _ _).bind fun c hc => ensures_ok (hreading c hc))) not_false

end AssignmentEdit

namespace SetEdit

theorem hasBlank_rawItem {t : Phrase} (h : t.Visible) (values : List Value) :
    ¬ HasBlank (rawItem t values).identifiers := by
  unfold rawItem
  split
  · split
    · exact hasBlank_nil
    · simpa [SetItem.identifiers] using h.within
  · exact hasBlank_nil

theorem ensures_identifiers (d : Dialect) (e : SetEdit) :
    Ensures (e.items d) fun items => ¬ HasBlank (items.flatMap SetItem.identifiers) := by
  have hsingle {x : Except Fault SetItem} (h : Ensures x fun i => ¬ HasBlank i.identifiers) :
      Ensures (do return [← x]) fun items => ¬ HasBlank (items.flatMap SetItem.identifiers) :=
    h.bind fun i hi => ensures_ok (by simpa using hi)
  have hcolumn {c : Phrase} (hc : c.Visible) (v : AssignedValue) :
      ¬ HasBlank (SetItem.assignment ⟨c.within, v⟩).identifiers := by
    simpa [SetItem.identifiers] using hc.within
  have hassign (column : Value) (expression : String → String) (value : Value) :
      Ensures (assign column expression value) fun i => ¬ HasBlank i.identifiers :=
    (ensures_any _).bind fun _ _ => (ensures_requireText _ _).bind fun _ hc => ensures_ok (hcolumn hc _)
  have hgated (column : Value) (expression : String → Except Fault String) (value : Value) :
      Ensures (assignGated column expression value) fun i => ¬ HasBlank i.identifiers :=
    (ensures_any _).bind fun _ _ => (ensures_any _).bind fun _ _ =>
      (ensures_requireText _ _).bind fun _ hc => ensures_ok (hcolumn hc _)
  cases e with
  | raw text values =>
    refine (ensures_requireText _ _).bind fun t ht => ensures_ok ?_
    simpa using hasBlank_rawItem ht values
  | arithmetic | concat | append | prepend | coalesce => exact hsingle (hassign _ _ _)
  | arrayAppend | arrayRemove => exact hsingle (hgated _ _ _)
  | revise storage column changes =>
    refine (ensures_requireText _ _).bind fun c hc => (ensures_any _).bind fun r _ => ?_
    split
    · exact ensures_ok hasBlank_nil
    · exact ensures_ok (by simpa using hcolumn hc _)

end SetEdit
end SqlComposer
