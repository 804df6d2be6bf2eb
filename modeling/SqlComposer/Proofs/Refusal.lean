import Mathlib.Data.List.TakeWhile
import SqlComposer.Proofs.Window.Accepted
import SqlComposer.Store

/-! What a refused edit leaves behind. Most edits are made completely or not at all. An edit of
several items keeps the items in front of the one that is refused, and a limit stays when the offset
given with it is refused; no other edit leaves anything. -/

namespace SqlComposer

def Value.isWritten (v : Value) : Bool :=
  match v.phrase? with
  | some p => !Text.isBlank p.alone
  | none => false

def Value.isWhole : Value → Bool
  | int _ | bool _ => true
  | _ => false

theorem Value.isWhole_iff {v : Value} : v.isWhole ↔ ∃ p, v.whole? = some p := by
  cases v <;> simp [isWhole, whole?]

namespace Edit

/-- The part of an edit that stays made when the edit is refused. -/
def madePart : Edit → Option Edit
  | column (.columns cs) => some (column (.columns (cs.takeWhile Value.isWritten)))
  | grouping (.groups exprs) => some (grouping (.groups (exprs.takeWhile Value.isWritten)))
  | ordering (.expressions exprs) => some (ordering (.expressions (exprs.takeWhile Value.isWritten)))
  | assignment (.entries (some es)) =>
    some (assignment (.entries (some (es.takeWhile fun e => !Text.isBlank e.1))))
  | window (.limitOffset limit _) => some (window (.limit limit))
  | _ => none

def CountsWholePages : Edit → Prop
  | window (.page page _) | window (.pageFromZero page _) => page.isWhole
  | _ => True

end Edit

namespace Step
variable {σ τ : Type} {before : σ}

def Atomic (before : σ) (s : Step σ) : Prop := s.fault ≠ none → s.state = before

theorem atomic_made (after : σ) : (made after).Atomic before := fun h => absurd rfl h

theorem atomic_refused (f : Fault) : (refused before f).Atomic before := fun _ => rfl

theorem atomic_ofExcept (r : Except Fault σ) : (ofExcept before r).Atomic before := by
  cases r with
  | ok after => exact atomic_made after
  | error f => exact atomic_refused f

theorem Atomic.map {s : Step σ} (h : s.Atomic before) (f : σ → τ) : (s.map f).Atomic (f before) :=
  fun hf => congrArg f (h hf)

theorem Atomic.reported {s : Step σ} (h : s.Atomic before) : s.reported.Atomic before :=
  fun hf => h fun hn => hf (reported_fault_eq_none s |>.2 hn)

end Step

theorem leadingTexts_takeWhile (argument : String) (vs : List Value) :
    leadingTexts argument (vs.takeWhile Value.isWritten) = .made (leadingTexts argument vs).state := by
  induction vs with
  | nil => rfl
  | cons v vs ih =>
    by_cases hv : v.isWritten
    · obtain ⟨p, hp⟩ : ∃ p, requireText argument v = .ok p := by
        unfold Value.isWritten at hv
        unfold requireText
        split at hv <;> simp_all
      rw [List.takeWhile_cons_of_pos hv]
      simp only [leadingTexts, hp, ih]
      rfl
    · obtain ⟨f, hf⟩ : ∃ f, requireText argument v = .error f := by
        unfold Value.isWritten at hv
        unfold requireText
        split at hv <;> simp_all
      rw [List.takeWhile_cons_of_neg hv]
      simp only [leadingTexts, hf, Step.refused_state]

theorem leadingEntries_takeWhile (n : Naming) (es : List (String × Value)) :
    AssignmentEdit.leadingEntries n (es.takeWhile fun e => !Text.isBlank e.1) =
      .made (AssignmentEdit.leadingEntries n es).state := by
  induction es with
  | nil => rfl
  | cons e es ih =>
    by_cases he : Text.isBlank e.1
    · simp [AssignmentEdit.leadingEntries, requireText, Value.phrase?, he, Step.made, Step.refused]
    · simp [AssignmentEdit.leadingEntries, requireText, Value.phrase?, he, ih, Step.made, Step.map]

namespace Step
variable {σ τ : Type} {before : σ}

/-- If the step is refused, it leaves what `part` makes; a refused `part` makes nothing. -/
def Leaves (before : σ) (s part : Step σ) : Prop :=
  s.fault ≠ none → s.state = part.state ∧ (part.fault = none ∨ s.state = before)

theorem leaves_made (s : Step σ) : s.Leaves before (.made s.state) := fun _ => ⟨rfl, .inl rfl⟩

theorem leaves_refused (f g : Fault) : (refused before f).Leaves before (.refused before g) :=
  fun _ => ⟨rfl, .inr rfl⟩

theorem Leaves.map {s part : Step σ} (h : s.Leaves before part) (f : σ → τ) :
    (s.map f).Leaves (f before) (part.map f) := by
  intro hs
  obtain ⟨hstate, hpart⟩ := h hs
  exact ⟨congrArg f hstate, hpart.imp id (congrArg f)⟩

theorem Leaves.reported {s part : Step σ} (h : s.Leaves before part) :
    s.reported.Leaves before part.reported := by
  intro hs
  obtain ⟨hstate, hpart⟩ := h fun hn => hs ((reported_fault_eq_none s).2 hn)
  exact ⟨hstate, hpart.imp (reported_fault_eq_none part).2 id⟩

end Step

theorem ColumnEdit.apply_atomic {e : ColumnEdit} (p : Projection)
    (he : (Edit.column e).madePart = none) : (e.apply p).Atomic p := by
  cases e with
  | columns cs => simp [Edit.madePart] at he
  | distinct => exact Step.atomic_made _
  | columnAs | star | aggregate | count | countDistinct | query => exact Step.atomic_ofExcept _

theorem GroupingEdit.apply_atomic {e : GroupingEdit} (d : Dialect) (g : Grouping)
    (he : (Edit.grouping e).madePart = none) : (e.apply d g).Atomic g := by
  cases e with
  | groups exprs => simp [Edit.madePart] at he
  | all =>
    simp only [GroupingEdit.apply]
    split
    · exact Step.atomic_refused _
    · split
      · exact Step.atomic_made _
      · exact Step.atomic_refused _

theorem OrderingEdit.apply_atomic {e : OrderingEdit} (items : List String)
    (he : (Edit.ordering e).madePart = none) : (e.apply items).Atomic items := by
  cases e with
  | expressions exprs => simp [Edit.madePart] at he
  | columns | nulls | position | collate => exact Step.atomic_ofExcept _

theorem AssignmentEdit.assignments_atomic {e : AssignmentEdit} (d : Dialect)
    (reading : Phrase → String) (he : (Edit.assignment e).madePart = none) :
    (e.assignments d reading).Atomic [] := by
  cases e with
  | entries es =>
    cases es with
    | none => exact Step.atomic_refused _
    | some es => simp [Edit.madePart] at he
  | expression | now | null | default | document | bytes | array | uuid | nextValue | query =>
    exact Step.atomic_ofExcept _

theorem WindowEdit.setPage_atomic (w : Window) (first : Int) {page : Value} (hp : page.isWhole)
    (size : Value) : (setPage w first page size).Atomic w := by
  obtain ⟨p, hp⟩ := Value.isWhole_iff.1 hp
  obtain ⟨fault, hset⟩ := setPage_eq w hp size
  rw [hset]
  cases limitGiven? size with
  | some n => exact Step.atomic_made _
  | none => exact Step.atomic_refused _

theorem WindowEdit.apply_atomic {e : WindowEdit} (w : Window)
    (he : (Edit.window e).madePart = none) (hp : (Edit.window e).CountsWholePages) :
    (e.apply w).Atomic w := by
  cases e with
  | limit n => exact Step.atomic_ofExcept _
  | offset n => exact Step.atomic_ofExcept _
  | limitOffset l o => simp [Edit.madePart] at he
  | page p size => exact setPage_atomic w 1 hp size
  | pageFromZero p size => exact setPage_atomic w 0 hp size

theorem WindowEdit.setBoth_leaves (w : Window) (l o : Value) :
    (setBoth w l o).Leaves w (setLimit w l) := by
  unfold setBoth setLimit
  cases limitOf l with
  | ok k =>
    intro h
    refine ⟨?_, .inl rfl⟩
    exact Step.atomic_ofExcept _ h
  | error f => exact Step.leaves_refused f f

theorem ColumnEdit.columns_leaves (p : Projection) (cs : List Value) :
    ((columns cs).apply p).Leaves p ((columns (cs.takeWhile Value.isWritten)).apply p) := by
  simp only [apply, leadingTexts_takeWhile]
  exact Step.leaves_made _

theorem GroupingEdit.groups_leaves (d : Dialect) (g : Grouping) (exprs : List Value) :
    ((groups exprs).apply d g).Leaves g ((groups (exprs.takeWhile Value.isWritten)).apply d g) := by
  cases g with
  | all => exact Step.leaves_refused _ _
  | groups before =>
    simp only [apply, leadingTexts_takeWhile]
    exact Step.leaves_made _

theorem OrderingEdit.expressions_leaves (items : List String) (exprs : List Value) :
    ((expressions exprs).apply items).Leaves items
      ((expressions (exprs.takeWhile Value.isWritten)).apply items) := by
  simp only [apply, leadingTexts_takeWhile]
  exact Step.leaves_made _

theorem AssignmentEdit.entries_leaves (d : Dialect) (reading : Phrase → String)
    (es : List (String × Value)) :
    ((entries (some es)).assignments d reading).Leaves []
      ((entries (some (es.takeWhile fun e => !Text.isBlank e.1))).assignments d reading) := by
  simp only [assignments, leadingEntries_takeWhile]
  exact Step.leaves_made _

theorem Query.edit_atomic (d : Dialect) (q : Query) {e : Edit} (he : e.madePart = none)
    (hp : e.CountsWholePages) : (q.edit d e).Atomic q := by
  cases e with
  | column e => exact (ColumnEdit.apply_atomic q.projection he).map _
  | grouping e => exact (GroupingEdit.apply_atomic d q.grouping he).map _
  | ordering e => exact (OrderingEdit.apply_atomic q.ordering he).map _
  | window e => exact (WindowEdit.apply_atomic q.window he hp).map _
  | union u => exact Step.atomic_made _
  | source | join | filter | having => exact Step.atomic_ofExcept _
  | commonTable | target | assignment | bind | set => exact Step.atomic_refused _

theorem Insertion.edit_atomic (d : Dialect) (i : Insertion) {e : Edit} (he : e.madePart = none) :
    (i.edit d e).Atomic i := by
  cases e with
  | assignment e =>
    -- Assignments go behind those there are, and a refused edit brings none.
    have h := (AssignmentEdit.assignments_atomic d Phrase.alone he).map fun as =>
      { i with assignments := i.assignments ++ as }
    rw [List.append_nil] at h
    exact h
  | bind column value => exact Step.atomic_ofExcept _
  | _ => exact Step.atomic_refused _

theorem Update.edit_atomic (d : Dialect) (u : Update) {e : Edit} (he : e.madePart = none) :
    (u.edit d e).Atomic u := by
  cases e with
  | assignment e =>
    have h := (AssignmentEdit.assignments_atomic d Phrase.within he).map fun as =>
      { u with items := u.items ++ as.map SetItem.assignment }
    rw [List.map_nil, List.append_nil] at h
    exact h
  | target | set | source | join | filter => exact Step.atomic_ofExcept _
  | _ => exact Step.atomic_refused _

theorem Deletion.edit_atomic (d : Dialect) (x : Deletion) (e : Edit) : (x.edit d e).Atomic x := by
  cases e with
  | target | filter => exact Step.atomic_ofExcept _
  | _ => exact Step.atomic_refused _

theorem Statement.edit_atomic (st : Statement) {e : Edit} (he : e.madePart = none)
    (hp : e.CountsWholePages) : (st.edit e).Atomic st := by
  have hbody : (st.body.edit st.dialect e).Atomic st.body := by
    cases st.body with
    | select q => exact (Query.edit_atomic st.dialect q he hp).map Body.select
    | insert i => exact (Insertion.edit_atomic st.dialect i he).map Body.insert
    | update u => exact (Update.edit_atomic st.dialect u he).map Body.update
    | delete x => exact (Deletion.edit_atomic st.dialect x e).map Body.delete
  cases e with
  | commonTable e => exact Step.atomic_ofExcept _
  | _ => exact hbody.map fun b => { st with body := b }

theorem Query.edit_leaves (d : Dialect) (q : Query) {e part : Edit} (he : e.madePart = some part) :
    (q.edit d e).Leaves q (q.edit d part) := by
  unfold Edit.madePart at he
  split at he <;> cases he
  case h_1 cs => exact (ColumnEdit.columns_leaves q.projection cs).map _
  case h_2 exprs => exact (GroupingEdit.groups_leaves d q.grouping exprs).map _
  case h_3 exprs => exact (OrderingEdit.expressions_leaves q.ordering exprs).map _
  case h_4 es => exact Step.leaves_refused _ _
  case h_5 limit offset => exact (WindowEdit.setBoth_leaves q.window limit offset).map _

theorem Insertion.edit_leaves (d : Dialect) (i : Insertion) {e part : Edit}
    (he : e.madePart = some part) : (i.edit d e).Leaves i (i.edit d part) := by
  unfold Edit.madePart at he
  split at he <;> cases he
  case h_4 es =>
    have h := (AssignmentEdit.entries_leaves d Phrase.alone es).map fun as =>
      { i with assignments := i.assignments ++ as }
    rw [List.append_nil] at h
    exact h
  all_goals exact Step.leaves_refused _ _

theorem Update.edit_leaves (d : Dialect) (u : Update) {e part : Edit}
    (he : e.madePart = some part) : (u.edit d e).Leaves u (u.edit d part) := by
  unfold Edit.madePart at he
  split at he <;> cases he
  case h_4 es =>
    have h := (AssignmentEdit.entries_leaves d Phrase.within es).map fun as =>
      { u with items := u.items ++ as.map SetItem.assignment }
    rw [List.map_nil, List.append_nil] at h
    exact h
  all_goals exact Step.leaves_refused _ _

theorem Deletion.edit_leaves (d : Dialect) (x : Deletion) {e part : Edit}
    (he : e.madePart = some part) : (x.edit d e).Leaves x (x.edit d part) := by
  unfold Edit.madePart at he
  split at he <;> cases he
  all_goals exact Step.leaves_refused _ _

theorem Statement.edit_leaves (st : Statement) {e part : Edit} (he : e.madePart = some part) :
    (st.edit e).Leaves st (st.edit part) := by
  have hbody : (st.body.edit st.dialect e).Leaves st.body (st.body.edit st.dialect part) := by
    cases st.body with
    | select q => exact (Query.edit_leaves st.dialect q he).map Body.select
    | insert i => exact (Insertion.edit_leaves st.dialect i he).map Body.insert
    | update u => exact (Update.edit_leaves st.dialect u he).map Body.update
    | delete x => exact (Deletion.edit_leaves st.dialect x he).map Body.delete
  -- An edit of common tables has no part, so both edits go to the body.
  have h := hbody.map fun b => { st with body := b }
  unfold Edit.madePart at he
  split at he <;> cases he
  all_goals exact h

theorem Store.set_get {s : Store} {id : StatementId} {st : Statement} (h : s.get? id = some st) :
    (⟨s.statements.set id st⟩ : Store) = s := by
  obtain ⟨hid, rfl⟩ := List.getElem?_eq_some_iff.1 h
  rw [List.set_getElem_self]

theorem Store.edit_atomic (s : Store) (id : StatementId) {e : Edit} (he : e.madePart = none)
    (hp : e.CountsWholePages) : (s.edit id e).Atomic s := by
  unfold Store.edit
  cases hst : s.get? id with
  | none => exact Step.atomic_refused _
  | some st =>
    have h := (Statement.edit_atomic st he hp).reported.map fun st => Store.mk (s.statements.set id st)
    rw [Store.set_get hst] at h
    exact h

theorem Store.edit_leaves (s : Store) (id : StatementId) {e part : Edit}
    (he : e.madePart = some part) : (s.edit id e).Leaves s (s.edit id part) := by
  unfold Store.edit
  cases hst : s.get? id with
  | none => exact Step.leaves_refused _ _
  | some st =>
    have h := (Statement.edit_leaves st he).reported.map fun st => Store.mk (s.statements.set id st)
    rw [Store.set_get hst] at h
    exact h

namespace Json.Revision

def call (r : Revision) (c : Change) : Step Revision := .ofExcept r (r.apply c)

end Json.Revision

end SqlComposer
