import SqlComposer.Proofs.Ensures
import SqlComposer.Proofs.History
import SqlComposer.Proofs.Independence

/-! Conditions of CROSS joins. A join with a table refuses an ON condition beside CROSS. The joins by
columns, NATURAL joins and joins with a query do not look at the kind, so the conditions that CROSS
joins have are those that were asked for in one of these three ways. A NATURAL join has no condition
besides. -/

namespace SqlComposer

/-- Whether the rows are joined on something: by NATURAL, by ON or by USING. -/
def Join.Conditioned (j : Join) : Prop := j.natural ∨ j.conditionText ≠ ""

def Body.joins : Body → List Join
  | select q => q.joins
  | update u => u.joins
  | insert _ | delete _ => []

def Body.canJoin : Body → Bool
  | select _ | update _ => true
  | insert _ | delete _ => false

namespace JoinEdit

def kind : JoinEdit → Named JoinKind
  | table kind .. | columns kind .. | natural kind _ | query kind .. => kind

def withKind (k : Named JoinKind) : JoinEdit → JoinEdit
  | table _ name on asName values => table k name on asName values
  | columns _ name names asName => columns k name names asName
  | natural _ name => natural k name
  | query _ id asName on values => query k id asName on values

def asName : JoinEdit → Value
  | table _ _ _ asName _ | columns _ _ _ asName | query _ _ asName .. => asName
  | natural .. => .null

def isTable : JoinEdit → Bool
  | table .. => true
  | _ => false

def asksCondition : JoinEdit → Bool
  | table _ _ on .. => on.isTrue
  | columns .. | natural .. => true
  | query _ id _ on _ => id.isSome && on.isTrue

/-- The call asks for a CROSS join, by its name or not, and for a condition. -/
def AsksConditionedCross (e : JoinEdit) : Prop :=
  JoinKind.resolve e.kind = .ok .cross ∧ e.asksCondition

variable {e : JoinEdit} {j : Join}

theorem ensures_optionalText_isSome (v : Value) :
    Ensures (optionalText v) fun t => t.isSome = v.isTrue := by
  unfold optionalText
  split
  · next h => exact (ensures_any _).map fun _ _ => h.symm
  · next h => exact ensures_ok (Bool.eq_false_iff.2 h).symm

theorem conditionText_ofText_ne (t : Option String) :
    (JoinCondition.ofText t).text ≠ "" ↔ t.isSome := by
  cases t with
  | none => simp [JoinCondition.ofText, JoinCondition.text]
  | some t => simp [JoinCondition.ofText, JoinCondition.text]

theorem ensures_join (e : JoinEdit) :
    Ensures e.join fun j => JoinKind.resolve e.kind = .ok j.kind ∧
      (j.Conditioned ↔ e.asksCondition) ∧ (j.natural → j.conditionText = "") ∧
      ¬ (e.isTable ∧ e.AsksConditionedCross) := by
  intro j hj
  cases e with
  | table kind name on asName values =>
    obtain ⟨k, hk, hj⟩ := bind_eq_ok.1 hj
    obtain ⟨t, -, hj⟩ := bind_eq_ok.1 hj
    obtain ⟨a, -, hj⟩ := bind_eq_ok.1 hj
    obtain ⟨c, hc, ⟨⟩⟩ := bind_eq_ok.1 hj
    unfold tableCondition at hc
    split at hc
    · cases hc
    · next hallowed =>
      obtain ⟨text, htext, rfl⟩ := map_eq_ok.1 hc
      have hcondition := ensures_optionalText_isSome on text htext
      refine ⟨hk, ?_, nofun, ?_⟩
      · simp [Join.Conditioned, Join.conditionText, conditionText_ofText_ne, asksCondition, hcondition]
      · rintro ⟨-, hcross, hon⟩
        cases hk.symm.trans hcross
        exact hallowed ⟨rfl, hon⟩
  | columns kind name names asName =>
    cases names with
    | nil => cases hj
    | cons n ns =>
      obtain ⟨k, hk, hj⟩ := bind_eq_ok.1 hj
      obtain ⟨t, -, hj⟩ := bind_eq_ok.1 hj
      obtain ⟨a, -, ⟨⟩⟩ := bind_eq_ok.1 hj
      refine ⟨hk, ?_, nofun, fun h => absurd h.1 Bool.false_ne_true⟩
      simp [Join.Conditioned, Join.conditionText, JoinCondition.text, asksCondition]
  | natural kind name =>
    obtain ⟨k, hk, hj⟩ := bind_eq_ok.1 hj
    obtain ⟨t, -, ⟨⟩⟩ := bind_eq_ok.1 hj
    refine ⟨hk, ?_, fun _ => rfl, fun h => absurd h.1 Bool.false_ne_true⟩
    simp [Join.Conditioned, asksCondition]
  | query kind id asName on values =>
    obtain ⟨a, -, hj⟩ := bind_eq_ok.1 hj
    obtain ⟨k, hk, hj⟩ := bind_eq_ok.1 hj
    obtain ⟨text, htext, ⟨⟩⟩ := bind_eq_ok.1 hj
    have hcondition := ensures_optionalText_isSome on text htext
    refine ⟨hk, ?_, nofun, fun h => absurd h.1 Bool.false_ne_true⟩
    cases id with
    | none => simp [Join.Conditioned, Join.conditionText, asksCondition]
    | some id =>
      simp [Join.Conditioned, Join.conditionText, conditionText_ofText_ne, asksCondition, hcondition]

theorem argument?_of_requireText {v : Value} {f : Fault} (h : requireText "table" v = .error f) :
    f.argument? = some "table" := by
  unfold requireText at h
  split at h
  · split at h
    · cases h
      rfl
    · cases h
  · cases h
    rfl

theorem cause_of_optionalText {v : Value} {f : Fault} (h : optionalText v = .error f) :
    f.argument? = some "table" ∨ f = .longInteger ∧ v.obstacle? = some .longInteger := by
  unfold optionalText spell at h
  split at h
  · split at h
    · next why hwhy =>
      cases h
      cases why with
      | joinsWithoutFrom dialect => exact .inl rfl
      | longInteger => exact .inr ⟨rfl, hwhy⟩
    · cases h
  · cases h

theorem join_eq_error (htable : e.isTable) (h : e.AsksConditionedCross) :
    ∃ f, e.join = .error f ∧ (f = .crossJoinCondition ∨ f.argument? = some "table" ∨
      f = .longInteger ∧ e.asName.obstacle? = some .longInteger) := by
  cases e with
  | columns | natural | query => cases htable
  | table kind name on asName values =>
    obtain ⟨hkind, hon⟩ := h
    have hkind : JoinKind.resolve kind = .ok .cross := hkind
    have hcondition : tableCondition .cross on = .error .crossJoinCondition := if_pos ⟨rfl, hon⟩
    cases ht : requireText "table" name with
    | error f =>
      refine ⟨f, ?_, .inr (.inl (argument?_of_requireText ht))⟩
      simp [join, hkind, ht, bind, Except.bind]
    | ok t =>
      cases ha : optionalText asName with
      | error f =>
        refine ⟨f, ?_, .inr (cause_of_optionalText ha)⟩
        simp [join, hkind, ht, ha, bind, Except.bind]
      | ok a =>
        refine ⟨_, ?_, .inl rfl⟩
        simp [join, hkind, ht, ha, hcondition, bind, Except.bind]

theorem isOk_join_withKind (htable : ¬ e.isTable) (hkind : JoinKind.resolve e.kind = .ok .cross)
    (k : JoinKind) : e.join.isOk = (e.withKind (.choice k)).join.isOk := by
  have hchoice : JoinKind.resolve (.choice k) = .ok k := rfl
  cases e with
  | table => exact absurd rfl htable
  | columns kind name names asName =>
    have hcross : JoinKind.resolve kind = .ok .cross := hkind
    cases names with
    | nil => rfl
    | cons n ns =>
      simp only [join, withKind, hcross, hchoice, bind, Except.bind]
      cases requireText "table" name with
      | error f => rfl
      | ok t => cases optionalText asName <;> rfl
  | natural kind name =>
    have hcross : JoinKind.resolve kind = .ok .cross := hkind
    simp only [join, withKind, hcross, hchoice, bind, Except.bind]
    cases requireText "table" name <;> rfl
  | query kind id asName on values =>
    have hcross : JoinKind.resolve kind = .ok .cross := hkind
    simp only [join, withKind, hcross, hchoice, bind, Except.bind]
    cases requireText "alias" asName with
    | error f => rfl
    | ok a => cases optionalText on <;> rfl

end JoinEdit

def Edit.joins : Edit → List Join
  | .join e => e.join.toOption.toList
  | _ => []

def Call.joins (c : Call) : List Join :=
  match c.fault with
  | none => c.edit.joins
  | some _ => []

theorem Call.mem_joins {c : Call} {j : Join} :
    j ∈ c.joins ↔ c.fault = none ∧ ∃ e, c.edit = .join e ∧ e.join = .ok j := by
  obtain ⟨edit, fault⟩ := c
  cases fault with
  | some f => simp [joins]
  | none =>
    cases edit with
    | join e => cases h : e.join <;> simp [joins, Edit.joins, h, Except.toOption, eq_comm]
    | _ => simp [joins, Edit.joins]

theorem Call.joins_eq_nil {e : Edit} (h : e.joins = []) (f : Option Fault) :
    (Call.mk e f).joins = [] := by
  unfold joins
  split
  · exact h
  · rfl

theorem JoinEdit.joins_apply {σ : Type} (joins : σ → List Join) (set : List Join → σ)
    (hset : ∀ js, joins (set js) = js) (before : σ) (e : JoinEdit) :
    joins (Step.ofExcept before ((e.apply (joins before)).map set)).state = joins before ++
      (Call.mk (.join e) (Step.ofExcept before ((e.apply (joins before)).map set)).fault).joins := by
  cases hj : e.join with
  | ok j =>
    have happly : e.apply (joins before) = .ok (joins before ++ [j]) := by
      rw [apply, hj]
      rfl
    simp [happly, Except.map, Step.ofExcept, hset, Call.joins, Edit.joins, hj, Except.toOption]
  | error f =>
    have happly : e.apply (joins before) = .error f := by
      rw [apply, hj]
      rfl
    simp [happly, Except.map, Step.ofExcept, Call.joins]

theorem Body.joins_of_agree {b c : Body} (h : b.Agree .joins c) : b.joins = c.joins := by
  cases h with
  | select h | update h => exact h
  | insert | delete => rfl

theorem Statement.joins_edit (st : Statement) (e : Edit) :
    (st.edit e).state.body.joins = st.body.joins ++ (Call.mk e (st.edit e).fault).joins := by
  by_cases he : e.clause = .joins
  · cases e with
    | join e =>
      obtain ⟨d, ts, body⟩ := st
      cases body with
      | select q => exact e.joins_apply Query.joins (fun js => { q with joins := js }) (fun _ => rfl) q
      | update u => exact e.joins_apply Update.joins (fun js => { u with joins := js }) (fun _ => rfl) u
      | insert | delete => rfl
    | _ => cases he
  · have hnone : e.joins = [] := by
      cases e with
      | join e => exact absurd rfl he
      | _ => rfl
    rw [Call.joins_eq_nil hnone, List.append_nil]
    exact Body.joins_of_agree (st.edit_frame he).2.2

theorem Statement.edit_join_of_error {st : Statement} {e : JoinEdit} {f : Fault}
    (hst : st.body.canJoin) (h : e.join = .error f) : st.edit (.join e) = .refused st f := by
  obtain ⟨d, ts, body⟩ := st
  have happly (joins : List Join) : e.apply joins = .error f := by
    rw [JoinEdit.apply, h]
    rfl
  cases body with
  | select q => simp [edit, Body.edit, Query.edit, happly, Except.map, Step.ofExcept, Step.refused, Step.map]
  | update u =>
    simp [edit, Body.edit, Update.edit, happly, Except.map, Step.ofExcept, Step.refused, Step.map]
  | insert | delete => cases hst

theorem Statement.edit_join_of_ok {st : Statement} {e : JoinEdit} {j : Join}
    (hst : st.body.canJoin) (h : e.join = .ok j) : (st.edit (.join e)).fault = none := by
  obtain ⟨d, ts, body⟩ := st
  have happly (joins : List Join) : e.apply joins = .ok (joins ++ [j]) := by
    rw [JoinEdit.apply, h]
    rfl
  cases body with
  | select q => simp [edit, Body.edit, Query.edit, happly, Except.map, Step.ofExcept]
  | update u => simp [edit, Body.edit, Update.edit, happly, Except.map, Step.ofExcept]
  | insert | delete => cases hst

theorem Statement.fault_join_eq_none {st : Statement} {e : JoinEdit} :
    (st.edit (.join e)).fault = none ↔ st.body.canJoin ∧ e.join.isOk := by
  by_cases hst : st.body.canJoin
  · cases h : e.join with
    | ok j => simp [edit_join_of_ok hst h, hst, Except.isOk, Except.toBool]
    | error f => simp [edit_join_of_error hst h, Except.isOk, Except.toBool]
  · obtain ⟨d, ts, body⟩ := st
    have hfault : (edit ⟨d, ts, body⟩ (.join e)).fault = some .noSuchClause := by
      cases body with
      | select | update => exact absurd rfl hst
      | insert | delete => rfl
    simp [hfault, hst]

namespace Store
variable {cs : List Command} {id : StatementId} {st : Statement}

theorem run_joins (hst : (run cs).get? id = some st) :
    st.body.joins = (empty.calls id cs).flatMap Call.joins ∧
      ∀ c ∈ empty.calls id cs, c.fault = none → ∀ e, c.edit = .join e → e.join.isOk := by
  refine run_recorded (R := fun calls st => st.body.joins = calls.flatMap Call.joins ∧
    ∀ c ∈ calls, c.fault = none → ∀ e, c.edit = .join e → e.join.isOk) ?_ ?_ hst
  · intro st h
    cases h <;> exact ⟨rfl, by simp⟩
  · rintro calls st e ⟨hjoins, hmade⟩
    constructor
    · have hcall : (callOf st e).joins = (Call.mk e (st.edit e).fault).joins := by
        rw [callOf, Call.joins, Call.joins]
        cases (st.edit e).fault <;> rfl
      rw [Statement.joins_edit, hjoins, List.flatMap_append, List.flatMap_singleton, hcall]
    · rw [List.forall_mem_append]
      refine ⟨hmade, List.forall_mem_singleton.2 ?_⟩
      rintro hnone e' ⟨⟩
      have hfault : (st.edit (.join e')).fault = none := by
        simpa [callOf] using hnone
      exact (Statement.fault_join_eq_none.1 hfault).2

/-- Only the call for a join with a table looks for a condition beside CROSS. A statement has CROSS joins
with a condition exactly if it was asked for one in another way, which is answered like the call for any
other kind. -/
theorem crossJoins_of_run (cs : List Command) (id : StatementId) (st : Statement)
    (hst : (run cs).get? id = some st) :
    (∀ j ∈ st.body.joins, j.natural → j.conditionText = "") ∧
    ((∃ j ∈ st.body.joins, j.kind = .cross ∧ j.Conditioned) ↔
      ∃ c ∈ empty.calls id cs, c.fault = none ∧
        ∃ e, c.edit = .join e ∧ ¬ e.isTable ∧ e.AsksConditionedCross) ∧
    (st.body.canJoin → ∀ e : JoinEdit, e.AsksConditionedCross →
      (e.isTable → ∃ f, st.edit (.join e) = .refused st f ∧
        (f = .crossJoinCondition ∨ f.argument? = some "table" ∨
          f = .longInteger ∧ e.asName.obstacle? = some .longInteger)) ∧
      (¬ e.isTable → ∀ k, ((st.edit (.join e)).fault = none ↔
        (st.edit (.join (e.withKind (.choice k)))).fault = none))) := by
  obtain ⟨hjoins, hmade⟩ := run_joins hst
  have hfrom (j : Join) : j ∈ st.body.joins ↔ ∃ c ∈ empty.calls id cs, c.fault = none ∧
      ∃ e, c.edit = .join e ∧ e.join = .ok j := by
    rw [hjoins, List.mem_flatMap]
    simp only [Call.mem_joins]
  refine ⟨fun j hj => ?_, ⟨?_, ?_⟩, fun hcan e he => ⟨fun htable => ?_, fun htable k => ?_⟩⟩
  · obtain ⟨c, -, -, e, -, he⟩ := (hfrom j).1 hj
    exact (e.ensures_join j he).2.2.1
  · rintro ⟨j, hj, hcross, hcondition⟩
    obtain ⟨c, hc, hnone, e, hedit, he⟩ := (hfrom j).1 hj
    obtain ⟨hkind, hasks, -, htable⟩ := e.ensures_join j he
    have hcalled : e.AsksConditionedCross := ⟨hcross ▸ hkind, hasks.1 hcondition⟩
    exact ⟨c, hc, hnone, e, hedit, fun h => htable ⟨h, hcalled⟩, hcalled⟩
  · rintro ⟨c, hc, hnone, e, hedit, -, hkind, hasks⟩
    obtain ⟨j, hj⟩ : ∃ j, e.join = .ok j := by
      have hok := hmade c hc hnone e hedit
      cases hj : e.join with
      | ok j => exact ⟨j, rfl⟩
      | error f =>
        rw [hj] at hok
        cases hok
    obtain ⟨hkind', hasks', -, -⟩ := e.ensures_join j hj
    refine ⟨j, (hfrom j).2 ⟨c, hc, hnone, e, hedit, hj⟩, ?_, hasks'.2 hasks⟩
    exact Except.ok.inj (hkind'.symm.trans hkind)
  · obtain ⟨f, hf, hcause⟩ := JoinEdit.join_eq_error htable he
    exact ⟨f, Statement.edit_join_of_error hcan hf, hcause⟩
  · rw [Statement.fault_join_eq_none, Statement.fault_join_eq_none,
      JoinEdit.isOk_join_withKind htable he.1 k]

/-- None of the three joins that do not go by a text is refused. -/
theorem cross_joins_with_conditions :
    ∃ (cs : List Command) (st : Statement), (run cs).get? 0 = some st ∧ st.body.joins.length = 3 ∧
      (∀ j ∈ st.body.joins, j.kind = .cross ∧ j.Conditioned) ∧
      ((run cs).sql 0).toOption = some ("SELECT * FROM a CROSS JOIN b USING (id) NATURAL CROSS JOIN c"
        ++ " CROSS JOIN (SELECT * FROM v) AS s ON s.id = a.id") := by
  refine ⟨[.create (.select none (.text "a") .null),
    .create (.select none (.text "v") .null),
    .edit 0 (.join (.columns (.choice .cross) (.text "b") [.text "id"] .null)),
    .edit 0 (.join (.natural (.choice .cross) (.text "c"))),
    .edit 0 (.join (.query (.choice .cross) (some 1) (.text "s") (.text "s.id = a.id") []))],
    _, rfl, rfl, ?_, by decide +kernel⟩
  intro j hj
  rcases hj with _ | ⟨_, _ | ⟨_, _ | ⟨_, hnone⟩⟩⟩
  · exact ⟨rfl, .inr (by decide)⟩
  · exact ⟨rfl, .inl rfl⟩
  · exact ⟨rfl, .inr (by decide)⟩
  · cases hnone

theorem cross_join_with_text_refused :
    let cs : List Command := [
      .create (.update none (.text "a") .null),
      .edit 0 (.source (.table (.text "c") .null)),
      .edit 0 (.join (.table (.name (.text "cross")) (.text "b") (.text "b.id = a.id") .null [])),
      .edit 0 (.join (.natural (.choice .left) (.text "d"))),
      .edit 0 (.join (.natural (.choice .cross) (.text "b")))]
    ∃ st, (run cs).get? 0 = some st ∧
      (∃ j ∈ st.body.joins, j.kind = .cross ∧ j.Conditioned) ∧
      ((run cs).sql 0).toOption =
        some "UPDATE a FROM c NATURAL LEFT JOIN d NATURAL CROSS JOIN b" ∧
      ∃ f, st.edit (.join (.table (.choice .cross) (.text "b") (.text "b.id = a.id") .null [])) =
        .refused st f := by
  intro cs
  have hst : (run cs).get? 0 = some ⟨.standard, [], .update ⟨[⟨"a", none⟩], [], [.table "c" none],
      [⟨true, .left, .table "d" none, .none, []⟩, ⟨true, .cross, .table "b" none, .none, []⟩], []⟩⟩ := rfl
  obtain ⟨-, hcross, hnew⟩ := crossJoins_of_run cs 0 _ hst
  refine ⟨_, hst, hcross.2 ?_, by decide +kernel, ?_⟩
  · refine ⟨⟨.join (.natural (.choice .cross) (.text "b")), none⟩, ?_, rfl, _, rfl, by decide, rfl, rfl⟩
    exact .tail _ (.tail _ (.tail _ (.head _)))
  · obtain ⟨f, hf, -⟩ := (hnew rfl (.table (.choice .cross) (.text "b") (.text "b.id = a.id") .null [])
      ⟨rfl, by decide⟩).1 rfl
    exact ⟨f, hf⟩

end Store
end SqlComposer
