import Mathlib.Data.List.Forall2
import SqlComposer.Proofs.History
import SqlComposer.Proofs.Independence
import SqlComposer.Proofs.ReadBack.Brought

/-! Collecting conditions. Calls put what they bring behind the conditions that are there, under the
connective that they ask for; a call that is refused brings nothing. So a list holds what its calls have
brought, in the order of the calls. -/

namespace SqlComposer

namespace ConditionsEdit

def logic : ConditionsEdit → Named Logic
  | text l _ _ | query l _ _ _ | tautology l => l

/-- A text as it is given; an operator is written with its full name unless its condition is the first. -/
def written (isFirst : Bool) (v : Value) : Option String :=
  match v.phrase? with
  | some p => some (if isFirst then p.alone else p.within)
  | none => (spell v).toOption

/-- The condition that a call brings, if it is accepted and brings one. -/
def condition? (isFirst : Bool) (e : ConditionsEdit) : Option Condition := do
  let l ← (Logic.resolve e.logic).toOption
  match e with
  | text _ t values => return ⟨l, .text (← written isFirst t) values⟩
  | query _ before none _ => return ⟨l, .query (← written isFirst before) none ""⟩
  | query _ before (some id) after =>
    return ⟨l, .query (← (spell before).toOption) (some id) (← (spell after).toOption)⟩
  | tautology _ => if l = .or then some ⟨.or, .text "1=1" []⟩ else none

def perform (cs : Conditions) (e : ConditionsEdit) : Conditions :=
  match e.apply cs with
  | .ok after => after
  | .error _ => cs

/-- What calls bring one after the other to a list that is empty, or is not. -/
def brought : Bool → List ConditionsEdit → Conditions
  | _, [] => []
  | isFirst, e :: es =>
    match e.condition? isFirst with
    | some c => c :: brought false es
    | none => brought isFirst es

theorem toOption_place (cs : Conditions) (v : Value) : (place cs v).toOption = written cs.isEmpty v := by
  unfold place written
  cases v.phrase? with
  | none => rfl
  | some p => cases cs <;> rfl

theorem add_choice (cs : Conditions) (l : Logic) (p : Predicate) :
    cs.add (.choice l) p = .ok (cs ++ [⟨l, p⟩]) := rfl

theorem perform_eq_append (cs : Conditions) (e : ConditionsEdit) :
    perform cs e = cs ++ (e.condition? cs.isEmpty).toList := by
  cases e with
  | text logic t values =>
    simp only [perform, apply, condition?, ConditionsEdit.logic, ← toOption_place]
    cases Logic.resolve logic with
    | error f => simp [bind, Except.bind, Except.toOption]
    | ok l => cases place cs t <;> simp [bind, Except.bind, Except.toOption, add_choice]
  | query logic before id after =>
    cases id with
    | none =>
      simp only [perform, apply, condition?, ConditionsEdit.logic, ← toOption_place]
      cases Logic.resolve logic with
      | error f => simp [bind, Except.bind, Except.toOption]
      | ok l => cases place cs before <;> simp [bind, Except.bind, Except.toOption, add_choice]
    | some id =>
      simp only [perform, apply, condition?, ConditionsEdit.logic]
      cases Logic.resolve logic with
      | error f => simp [bind, Except.bind, Except.toOption]
      | ok l =>
        cases spell before <;> cases spell after <;>
          simp [bind, Except.bind, Except.toOption, add_choice]
  | tautology logic =>
    simp only [perform, apply, condition?, ConditionsEdit.logic, Conditions.addTautology]
    cases Logic.resolve logic with
    | error f => simp [bind, Except.bind, Except.toOption]
    | ok l => cases l <;> simp [bind, Except.bind, Except.toOption, pure, Except.pure, SqlComposer.tautology]

theorem foldl_perform (cs : Conditions) (es : List ConditionsEdit) :
    es.foldl perform cs = cs ++ brought cs.isEmpty es := by
  induction es generalizing cs with
  | nil => exact (List.append_nil cs).symm
  | cons e es ih =>
    rw [List.foldl_cons, ih, perform_eq_append, brought]
    cases e.condition? cs.isEmpty with
    | none => simp
    | some c =>
      have hne : (cs ++ [c]).isEmpty = false := by cases cs <;> rfl
      simp [hne, List.append_assoc]

end ConditionsEdit

def Body.conditions : Body → Conditions
  | select q => q.conditions
  | insert _ => []
  | update u => u.conditions
  | delete x => x.conditions

def Body.having : Body → Conditions
  | select q => q.having
  | insert _ | update _ | delete _ => []

/-- A change of a list of conditions: the connective that it asks for, what it does, and what it brings to a
list that is empty, or is not. -/
structure ListChange where
  logic : Named Logic
  apply : Conditions → Except Fault Conditions
  brings : Bool → Except Fault Conditions

theorem Body.Agree.conditions_eq {b c : Body} (h : b.Agree .conditions c) : b.conditions = c.conditions := by
  cases h with
  | select h | update h | delete h => exact h
  | insert => rfl

theorem Body.Agree.having_eq {b c : Body} (h : b.Agree .having c) : b.having = c.having := by
  cases h with
  | select h => exact h
  | insert | update | delete => rfl

def FilterEdit.change (d : Dialect) (e : FilterEdit) : ListChange :=
  ⟨e.logic, e.apply d, fun isFirst => e.brings d isFirst⟩

def HavingEdit.change (e : HavingEdit) : ListChange :=
  ⟨e.logic, e.apply, fun isFirst => e.brings isFirst⟩

def Edit.whereChange? (d : Dialect) : Edit → Option ListChange
  | filter e => some (e.change d)
  | _ => none

def Edit.havingChange? : Edit → Option ListChange
  | having e => some e.change
  | _ => none

/-- An accepted change of the list brings the conditions that are its own, under the connective that it asks
for, to every list that is empty, or is not. Any other call brings nothing. -/
def Call.Brings (change? : Edit → Option ListChange) (isFirst : Bool) (call : Call) (new : Conditions) :
    Prop :=
  match call.fault, change? call.edit with
  | none, some change =>
    change.brings isFirst = .ok new ∧ (∀ c ∈ new, Logic.resolve change.logic = .ok c.logic) ∧
      ∀ cs : Conditions, cs.isEmpty = isFirst → change.apply cs = .ok (cs ++ new)
  | _, _ => new = []

inductive Collected (change? : Edit → Option ListChange) : List Call → Conditions → Prop
  | nil : Collected change? [] []
  | concat {calls : List Call} {cs new : Conditions} {call : Call} (h : Collected change? calls cs)
      (hcall : call.Brings change? cs.isEmpty new) : Collected change? (calls ++ [call]) (cs ++ new)

theorem Call.brings_nothing {change? : Edit → Option ListChange} {isFirst : Bool} {call : Call}
    (h : call.fault = none → change? call.edit = none) : call.Brings change? isFirst [] := by
  unfold Brings
  split
  · next hfault hchange =>
    rw [h hfault] at hchange
    cases hchange
  · rfl

theorem ListChange.ofExcept {σ : Type} (change : ListChange) (list : σ → Conditions)
    (set : Conditions → σ) (hset : ∀ cs, list (set cs) = cs) (before : σ)
    (h : Conditions.Appends change.logic (list before).isEmpty change.apply (change.brings (list before).isEmpty))
    {change? : Edit → Option ListChange} {e : Edit} (he : change? e = some change) {step : Step σ}
    (hstep : step = Step.ofExcept before ((change.apply (list before)).map set)) :
    ∃ new, list step.state = list before ++ new ∧
      (Call.mk e (step.fault.map Fault.reported)).Brings change? (list before).isEmpty new := by
  subst hstep
  rw [h.behind _ rfl]
  cases hnew : change.brings (list before).isEmpty with
  | error f => exact ⟨[], (List.append_nil _).symm, Call.brings_nothing nofun⟩
  | ok new =>
    refine ⟨new, hset _, ?_⟩
    simp only [Call.Brings, Except.map, Step.ofExcept, Step.made, Option.map_none, he]
    exact ⟨hnew, h.under new hnew, fun cs hcs => by rw [h.behind cs hcs, hnew]; rfl⟩

namespace Statement

theorem conditions_edit (st : Statement) (e : Edit) :
    ∃ new, (st.edit e).state.body.conditions = st.body.conditions ++ new ∧
      (Store.callOf st e).Brings (Edit.whereChange? st.dialect) st.body.conditions.isEmpty new := by
  by_cases he : e.clause = .conditions
  · cases e with
    | filter e =>
      obtain ⟨d, ts, body⟩ := st
      cases body with
      | select q =>
        exact (e.change d).ofExcept Query.conditions (fun cs => { q with conditions := cs }) (fun _ => rfl)
          q (e.appends_apply d _) (e := .filter e) rfl rfl
      | update u =>
        exact (e.change d).ofExcept Update.conditions (fun cs => { u with conditions := cs }) (fun _ => rfl)
          u (e.appends_apply d _) (e := .filter e) rfl rfl
      | delete x =>
        exact (e.change d).ofExcept Deletion.conditions (fun cs => { x with conditions := cs }) (fun _ => rfl)
          x (e.appends_apply d _) (e := .filter e) rfl rfl
      | insert i => exact ⟨[], rfl, Call.brings_nothing nofun⟩
    | _ => cases he
  · have hsame : (st.edit e).state.body.conditions = st.body.conditions :=
      (st.edit_frame he).2.2.conditions_eq
    refine ⟨[], by rw [hsame, List.append_nil], Call.brings_nothing fun _ => ?_⟩
    cases e with
    | filter e => exact absurd rfl he
    | _ => rfl

theorem having_edit (st : Statement) (e : Edit) :
    ∃ new, (st.edit e).state.body.having = st.body.having ++ new ∧
      (Store.callOf st e).Brings Edit.havingChange? st.body.having.isEmpty new := by
  by_cases he : e.clause = .having
  · cases e with
    | having e =>
      obtain ⟨d, ts, body⟩ := st
      cases body with
      | select q =>
        exact e.change.ofExcept Query.having (fun cs => { q with having := cs }) (fun _ => rfl)
          q (e.appends_apply _) (e := .having e) rfl rfl
      | insert | update | delete => exact ⟨[], rfl, Call.brings_nothing nofun⟩
    | _ => cases he
  · have hsame : (st.edit e).state.body.having = st.body.having := (st.edit_frame he).2.2.having_eq
    refine ⟨[], by rw [hsame, List.append_nil], Call.brings_nothing fun _ => ?_⟩
    cases e with
    | having e => exact absurd rfl he
    | _ => rfl

end Statement

theorem Store.run_collected {cs : List Command} {id : StatementId} {st : Statement}
    (hst : (run cs).get? id = some st) :
    Collected (Edit.whereChange? st.dialect) (empty.calls id cs) st.body.conditions ∧
      Collected Edit.havingChange? (empty.calls id cs) st.body.having := by
  refine run_recorded (R := fun calls st =>
    Collected (Edit.whereChange? st.dialect) calls st.body.conditions ∧
      Collected Edit.havingChange? calls st.body.having) ?_ ?_ hst
  · intro st h
    cases h <;> exact ⟨.nil, .nil⟩
  · rintro calls st e ⟨hwhere, hhaving⟩
    obtain ⟨new, hnew, hbrings⟩ := st.conditions_edit e
    obtain ⟨new', hnew', hbrings'⟩ := st.having_edit e
    rw [hnew, hnew', st.dialect_edit]
    exact ⟨hwhere.concat hbrings, hhaving.concat hbrings'⟩

end SqlComposer
