import Mathlib.Logic.Relation
import SqlComposer.Proofs.Aggregate
import SqlComposer.Proofs.Guard.Condition
import SqlComposer.Proofs.History
import SqlComposer.Proofs.ReadBack.Brought

/-! Forms of one condition. A condition can be asked for by an operator and the values that it takes, or by
an edit made for that operator; the test for the one member of a collection is a comparison with it; and an
aggregate is compared by its parts or by its text. The forms make the same of every statement, whether they
are accepted or refused, so a program may use any of them in any place. -/

namespace SqlComposer
open Relation

/-- The same filter in two forms, the more general one first. -/
inductive FilterEdit.Restates : FilterEdit → FilterEdit → Prop
  | compare {l logic} (hl : Logic.resolve logic = .ok l) (op : Comparison) (column v : Value) :
    Restates (.condition l column [.operator op.operator, v]) (.compare op column v logic)
  | member {l logic} (hl : Logic.resolve logic = .ok l) (negated : Bool) (column vs : Value) :
    Restates (.condition l column [.operator (if negated then .notWithin else .within), vs])
      (.member negated column vs logic)
  | isNull {l logic} (hl : Logic.resolve logic = .ok l) (negated : Bool) (column : Value) :
    Restates (.condition l column [.operator (if negated then .isNotNull else .isNull)])
      (.isNull negated column logic)
  | pattern {l logic} (hl : Logic.resolve logic = .ok l) (negated : Bool) (column : Value) {p : String}
    (hp : ¬ Text.isBlank p) :
    Restates (.condition l column [.operator (if negated then .notLike else .like), .text p])
      (.pattern negated .verbatim column (.text p) logic)
  | single (negated : Bool) (column : Value) {vs v : Value} (hvs : vs.collection? = some [v])
    (logic : Named Logic) :
    Restates (.member negated column vs logic)
      (.compare (if negated then .ne else .eq) column v logic)

inductive HavingEdit.Restates : HavingEdit → HavingEdit → Prop
  | aggregate {l logic} (hl : Logic.resolve logic = .ok l) {function column : Value} {f c : Phrase}
    (hf : requireText "func" function = .ok f) (hc : requireText "column" column = .ok c)
    (op v : Value) :
    Restates (.condition l (.text (f.within ++ "(" ++ c.within ++ ")")) [op, v])
      (.aggregate function column op v logic)

inductive Edit.Restates : Edit → Edit → Prop
  | filter {e e' : FilterEdit} (h : e.Restates e') : Restates (.filter e) (.filter e')
  | having {e e' : HavingEdit} (h : e.Restates e') : Restates (.having e) (.having e')

/-- Forms that lead into each other, in either direction and over others. -/
def Edit.Interchangeable : Edit → Edit → Prop := EqvGen Edit.Restates

inductive Command.Restates : Command → Command → Prop
  | create (c : Creation) : Restates (.create c) (.create c)
  | edit (id : StatementId) {e e' : Edit} (h : e.Interchangeable e') :
    Restates (.edit id e) (.edit id e')

theorem marks_listing (negated : Bool) (column : String) (n : Nat) :
    marks (listing negated column n) = marks column + n := by
  have hbrackets : marks (if negated then " NOT IN (" else " IN (") = 0 ∧ marks ")" = 0 := by
    cases negated <;> decide
  rw [listing, marks_append, marks_append, marks_append, hbrackets.1, hbrackets.2, marks_placeholders]
  rfl

namespace FilterEdit
variable {column values : Value} {c : Phrase} {vs : List Value} {l : Logic} {logic : Named Logic}

theorem membership_of_collection (negated : Bool) (hc : requireText "column" column = .ok c)
    (hvs : values.collection? = some vs) :
    membership (if negated then .notWithin else .within) column values =
      .ok (Predicate.ofMembers negated c.within vs) := by
  have hcollection := decides_requireCollection (if negated then .notWithin else .within) values
  rw [hvs] at hcollection
  obtain ⟨_, hmembers, rfl⟩ := hcollection
  rw [membership_eq_members, members, hc]
  simp only [bind, Except.bind, hmembers]
  rfl

theorem apply_member_nil (d : Dialect) (cs : Conditions) (negated : Bool)
    (hc : requireText "column" column = .ok c) (hvs : values.collection? = some []) :
    (member negated column values logic).apply d cs = .ok cs := by
  rw [apply, membership_of_collection _ hc hvs]
  rfl

theorem apply_member_singleton (d : Dialect) (cs : Conditions) (negated : Bool) {v : Value}
    (hvs : values.collection? = some [v]) :
    (member negated column values logic).apply d cs =
      (compare (if negated then .ne else .eq) column v logic).apply d cs := by
  rw [apply, apply]
  cases hc : requireText "column" column with
  | error f =>
    rw [membership, hc]
    rfl
  | ok c =>
    rw [membership_of_collection _ hc hvs]
    simp only [bind, Except.bind, Operator.predicate_eq_test]
    cases negated <;> rfl

theorem apply_member_of_two_le (d : Dialect) (cs : Conditions) (negated : Bool)
    (hc : requireText "column" column = .ok c) (hvs : values.collection? = some vs)
    (htwo : 2 ≤ vs.length) (hl : Logic.resolve logic = .ok l) :
    (member negated column values logic).apply d cs =
      .ok (cs ++ [⟨l, .text (listing negated c.within vs.length) vs⟩]) := by
  rcases vs with _ | ⟨v, _ | ⟨w, vs⟩⟩
  · exact absurd htwo (Nat.not_succ_le_zero 1)
  · exact absurd htwo (Nat.lt_irrefl 1)
  · rw [apply, membership_of_collection _ hc hvs]
    simp only [bind, Except.bind, Predicate.ofMembers, Conditions.add, hl]
    rfl

theorem apply_condition_of_scalar (d : Dialect) (cs : Conditions) {op : Operator}
    (hop : op.takesCollection = false) (hcount : vs.length = op.valueCount) :
    (condition l column (.operator op :: vs)).apply d cs =
      (requireText "column" column).bind fun c =>
        cs.add (.choice l) (.text (op.predicate c.within) vs) := by
  simp only [apply, Conditions.addExpanded]
  unfold expandCondition
  simp only [hop, Bool.false_eq_true, if_false, hcount, if_true]
  cases requireText "column" column <;> rfl

theorem apply_condition_of_collection (d : Dialect) (cs : Conditions) {op : Operator}
    (hop : op.takesCollection) :
    (condition l column [.operator op, values]).apply d cs =
      (membership op column values).bind fun
        | some p => cs.add (.choice l) p
        | none => .ok cs := by
  rw [apply, Conditions.addExpanded, expandCondition]
  simp only [hop, if_true]
  cases hc : requireText "column" column with
  | error f =>
    rw [membership, hc]
    rfl
  | ok c => rfl

theorem add_of_resolve (cs : Conditions) (hl : Logic.resolve logic = .ok l) :
    cs.add logic = cs.add (.choice l) := by
  funext p
  rw [Conditions.add, Conditions.add, hl]
  rfl

theorem apply_of_restates {e e' : FilterEdit} (h : e.Restates e') (d : Dialect) (cs : Conditions) :
    e'.apply d cs = e.apply d cs := by
  cases h with
  | compare hl op column v =>
    have hop : op.operator.takesCollection = false ∧ [v].length = op.operator.valueCount := by
      cases op <;> exact ⟨rfl, rfl⟩
    rw [apply_condition_of_scalar d cs hop.1 hop.2, apply, add_of_resolve cs hl]
    rfl
  | member hl negated column vs =>
    let op : Operator := if negated then .notWithin else .within
    have hop : op.takesCollection := by cases negated <;> rfl
    rw [apply_condition_of_collection d cs hop, apply, add_of_resolve cs hl]
    rfl
  | isNull hl negated column =>
    let op : Operator := if negated then .isNotNull else .isNull
    have hop : op.takesCollection = false ∧ ([] : List Value).length = op.valueCount := by
      cases negated <;> exact ⟨rfl, rfl⟩
    rw [apply_condition_of_scalar d cs hop.1 hop.2, apply, add_of_resolve cs hl]
    rfl
  | @pattern l logic hl negated column p hp =>
    let op : Operator := if negated then .notLike else .like
    have hop : op.takesCollection = false ∧ [Value.text p].length = op.valueCount := by
      cases negated <;> exact ⟨rfl, rfl⟩
    rw [apply_condition_of_scalar d cs hop.1 hop.2, apply, add_of_resolve cs hl]
    simp only [Value.isAbsent, hp]
    rfl
  | single negated column hvs logic => exact (apply_member_singleton d cs negated hvs).symm

end FilterEdit

theorem HavingEdit.apply_of_restates {e e' : HavingEdit} (h : e.Restates e') (cs : Conditions) :
    e'.apply cs = e.apply cs := by
  cases h with
  | aggregate hl hf hc op v =>
    simp only [apply, aggregateText, hf, hc, hl]
    rfl

theorem Statement.edit_of_restates {e e' : Edit} (h : e.Restates e') (st : Statement) :
    st.edit e' = st.edit e := by
  obtain ⟨d, ts, body⟩ := st
  cases h with
  | filter h =>
    have happly := FilterEdit.apply_of_restates h d
    cases body with
    | insert i => rfl
    | select | update | delete =>
      simp only [edit, Body.edit, Query.edit, Update.edit, Deletion.edit, happly]
  | having h =>
    have happly := HavingEdit.apply_of_restates h
    cases body with
    | select q => simp only [edit, Body.edit, Query.edit, happly]
    | insert | update | delete => rfl

theorem Statement.edit_of_interchangeable {e e' : Edit} (h : e.Interchangeable e') (st : Statement) :
    st.edit e' = st.edit e := by
  induction h with
  | rel e e' h => exact edit_of_restates h st
  | refl e => rfl
  | symm e e' _ ih => exact ih.symm
  | trans e e' e'' _ _ ih ih' => exact ih'.trans ih

namespace Store

theorem edit_of_interchangeable {e e' : Edit} (h : e.Interchangeable e') (s : Store)
    (id : StatementId) : s.edit id e' = s.edit id e := by
  rw [edit, edit]
  cases s.get? id with
  | none => rfl
  | some st => simp only [st.edit_of_interchangeable h]

variable {s : Store} {cs ds : List Command}

theorem perform_of_restates {c c' : Command} (h : c.Restates c') (s : Store) :
    s.perform c' = s.perform c := by
  cases h with
  | create c => rfl
  | edit id h => rw [perform, perform, edit_of_interchangeable h]

theorem foldl_perform_of_restates (h : List.Forall₂ Command.Restates cs ds) (s : Store) :
    ds.foldl perform s = cs.foldl perform s := by
  induction h generalizing s with
  | nil => rfl
  | cons hc _ ih => rw [List.foldl_cons, List.foldl_cons, perform_of_restates hc, ih]

theorem faults_of_restates (h : List.Forall₂ Command.Restates cs ds) (s : Store) (id : StatementId) :
    (s.calls id ds).map Call.fault = (s.calls id cs).map Call.fault := by
  induction h generalizing s with
  | nil => rfl
  | cons hc _ ih =>
    cases hc with
    | create c => exact ih _
    | @edit target e e' h =>
      have hstep := edit_of_interchangeable h s target
      have hrest := ih (s.perform (.edit target e))
      rw [calls, calls, perform_of_restates (.edit target h), hstep]
      split
      · rw [List.map_cons, List.map_cons, hrest]
      · exact hrest

def withCondition (s : Store) (id : StatementId) (st : Statement) (c : Condition) : Store :=
  let body := st.body.withConditions (st.body.conditions ++ [c])
  ⟨s.statements.set id { st with body := body }⟩

theorem edit_member_nil {id : StatementId} {st : Statement} {negated : Bool} {column values : Value}
    {logic : Named Logic} (hst : s.get? id = some st)
    (hfits : (Edit.filter (.member negated column values logic)).fits st.body)
    (hvs : values.collection? = some []) :
    let step := s.edit id (.filter (.member negated column values logic))
    step.state = s ∧ (column.isWritten → step.fault = none) := by
  intro step
  have hstep : step = _ := edit_of_ofExcept hst (Statement.edit_filter hfits)
  rw [hstep]
  rcases checked_requireText "column" column with ⟨hwritten, c, hc⟩ | ⟨hblank, f, hf, -⟩
  · rw [FilterEdit.apply_member_nil st.dialect st.body.conditions negated hc hvs]
    refine ⟨?_, fun _ => rfl⟩
    simp only [Except.map, Step.ofExcept, Step.reported_state, Step.made_state,
      Body.withConditions_conditions]
    exact set_get hst
  · rw [FilterEdit.apply, membership, hf]
    exact ⟨rfl, fun hwritten => absurd hwritten hblank⟩

theorem edit_member_of_two_le {id : StatementId} {st : Statement} {negated : Bool}
    {column values : Value} {logic : Named Logic} (hst : s.get? id = some st)
    (hfits : (Edit.filter (.member negated column values logic)).fits st.body) {c : Phrase}
    (hc : requireText "column" column = .ok c) {vs : List Value} (hvs : values.collection? = some vs)
    (htwo : 2 ≤ vs.length) {l : Logic} (hl : Logic.resolve logic = .ok l) :
    s.edit id (.filter (.member negated column values logic)) =
      .made (s.withCondition id st ⟨l, .text (listing negated c.within vs.length) vs⟩) := by
  rw [edit_of_ofExcept hst (Statement.edit_filter hfits),
    FilterEdit.apply_member_of_two_le st.dialect st.body.conditions negated hc hvs htwo hl]
  rfl

/-- The forms of a condition make the same of every statement, with the same answers, so programs that
differ in such forms alone leave the same statements, whatever is done to them and wherever they are
embedded. Beside these forms, a test for the members of a collection adds one condition with a placeholder
for each of several members, bound in their order, and nothing if there is no member. -/
theorem run_restated :
    (∀ e e' : Edit, e.Interchangeable e' → ∀ (s : Store) (id : StatementId),
      s.edit id e' = s.edit id e) ∧
    (∀ (s : Store) (id : StatementId) (st : Statement) (negated : Bool) (column values : Value)
      (vs : List Value) (logic : Named Logic), s.get? id = some st →
      (Edit.filter (.member negated column values logic)).fits st.body →
      values.collection? = some vs →
      let step := s.edit id (.filter (.member negated column values logic))
      (vs = [] → step.state = s ∧ (column.isWritten → step.fault = none)) ∧
      ∀ c l, requireText "column" column = .ok c → Logic.resolve logic = .ok l → 2 ≤ vs.length →
        marks (listing negated c.within vs.length) = marks c.within + vs.length ∧
        step = .made
          (s.withCondition id st ⟨l, .text (listing negated c.within vs.length) vs⟩)) ∧
    ∀ cs ds : List Command, List.Forall₂ Command.Restates cs ds → run ds = run cs ∧
      ∀ id, (empty.calls id ds).map Call.fault = (empty.calls id cs).map Call.fault := by
  refine ⟨fun e e' h s id => edit_of_interchangeable h s id, ?_, fun cs ds h => ⟨?_, fun id => ?_⟩⟩
  · intro s id st negated column values vs logic hst hfits hvs step
    refine ⟨?_, fun c l hc hl htwo => ⟨marks_listing _ _ _, ?_⟩⟩
    · rintro rfl
      exact edit_member_nil hst hfits hvs
    · exact edit_member_of_two_le hst hfits hc hvs htwo hl
  · exact foldl_perform_of_restates h empty
  · exact faults_of_restates h empty id

theorem conditions_restated_in_embedded_query :
    let tables : List Command :=
      [.create (.select none (.text "t") .null), .create (.select none (.text "v") .null)]
    let general : List Edit := [
      .filter (.condition .and (.text "a") [.operator .eq, .int 1]),
      .filter (.condition .or (.text "b") [.operator .notWithin, .list [.int 2, .null]]),
      .filter (.condition .or (.text "c") [.operator .like, .text "z%"]),
      .filter (.condition .and (.text " ") [.operator .isNull]),
      .having (.condition .and (.text "SUM(n)") [.operator .gt, .int 3])]
    let made : List Edit := [
      .filter (.member false (.text "a") (.list [.int 1]) (.choice .and)),
      .filter (.member true (.text "b") (.list [.int 2, .null]) (.name (.text "or"))),
      .filter (.pattern false .verbatim (.text "c") (.text "z%") (.choice .or)),
      .filter (.isNull false (.text " ") (.choice .and)),
      .having (.aggregate (.text "SUM") (.text "n") (.operator .gt) (.int 3) (.choice .and))]
    let embedding : List Command :=
      [.edit 1 (.filter (.memberOf false (.text "id") (some 0) (.choice .and)))]
    let program (es : List Edit) : List Command := tables ++ es.map (.edit 0) ++ embedding
    let s := run tables
    let st : Statement := ⟨.standard, [], .select { Query.empty with sources := [.table "t" none] }⟩
    (run (program made) = run (program general) ∧
      (empty.calls 0 (program made)).map Call.fault =
        [none, none, none, some (.blankText "column"), none] ∧
      ((run (program made)).sql 1).toOption = some ("SELECT * FROM v WHERE id IN (SELECT * FROM t "
        ++ "WHERE a = ? OR (b NOT IN (?, ?)) OR (c LIKE ?) HAVING SUM(n) > ?)")) ∧
      s.edit 0 made[0] = s.edit 0 general[0] ∧
      s.edit 0 made[1] = .made
        (s.withCondition 0 st ⟨.or, .text (listing true "b" 2) [.int 2, .null]⟩) ∧
      marks (listing true "b" 2) = 2 ∧
      (s.edit 0 (.filter (.member true (.text "b") (.list []) (.name (.text "nor"))))).state = s := by
  intro tables general made embedding program s st
  obtain ⟨hedit, hmember, hrun⟩ := run_restated
  have hcompared : (general[0]).Interchangeable made[0] :=
    .trans _ _ _ (.rel _ _ (.filter (.compare rfl .eq _ _)))
      (.symm _ _ (.rel _ _ (.filter (.single false _ rfl _))))
  have hlisted : (general[1]).Interchangeable made[1] :=
    .rel _ _ (.filter (.member rfl true _ _))
  have hmatched : (general[2]).Interchangeable made[2] :=
    .rel _ _ (.filter (.pattern rfl false _ (by decide)))
  have hrefused : (general[3]).Interchangeable made[3] := .rel _ _ (.filter (.isNull rfl false _))
  have hgrouped : (general[4]).Interchangeable made[4] :=
    .rel _ _ (.having (.aggregate rfl (f := .text "SUM") (c := .text "n") rfl rfl _ _))
  obtain ⟨hsame, hfaults⟩ := hrun (program general) (program made)
    (.cons (.create _) (.cons (.create _) (.cons (.edit 0 hcompared) (.cons (.edit 0 hlisted)
      (.cons (.edit 0 hmatched) (.cons (.edit 0 hrefused) (.cons (.edit 0 hgrouped)
      (.cons (.edit 1 (.refl _)) .nil))))))))
  have htwo := (hmember s 0 st true (.text "b") (.list [.int 2, .null]) _ (.name (.text "or"))
    rfl rfl rfl).2 (.text "b") .or rfl rfl (Nat.le_refl 2)
  have hnone := (hmember s 0 st true (.text "b") (.list []) _ (.name (.text "nor"))
    rfl rfl rfl).1 rfl
  refine ⟨⟨hsame, ?_, by decide +kernel⟩, hedit _ _ hcompared s 0, htwo.2, htwo.1, hnone.1⟩
  rw [hfaults]
  rfl

end Store
end SqlComposer
