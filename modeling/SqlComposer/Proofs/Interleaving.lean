import SqlComposer.Proofs.Program
import SqlComposer.Proofs.Renaming.Statement
import Mathlib.Logic.Equiv.Basic

/-! Interleaving of calls. What a program leaves of a statement is what the edits sent to it make of
it as it was created, whatever is done to others in between; and of those edits only the order within
each clause matters. So programs that create the same statements, in whatever order, and send the same
calls to each clause are answered alike and leave statements that read alike. A statement handed over
as a plain value belongs to the call as the value it is when the call is made. -/

namespace SqlComposer

def Command.edit? (id : StatementId) : Command → Option Edit
  | .create _ => none
  | .edit target e => if target = id then some e else none

def editsTo (id : StatementId) (cs : List Command) : List Edit := cs.filterMap (Command.edit? id)

namespace Store

def births : Store → List Command → List Statement
  | _, [] => []
  | s, .create c :: cs => (s.statementOf c).toOption.toList ++ (s.perform (.create c)).births cs
  | s, .edit id e :: cs => (s.perform (.edit id e)).births cs

def Scoped : Store → List Command → Prop
  | _, [] => True
  | s, .create c :: cs => (s.perform (.create c)).Scoped cs
  | s, .edit id e :: cs => id < s.size ∧ (s.perform (.edit id e)).Scoped cs

def answers (id : StatementId) (k : ClauseName) : Store → List Command → List (Option Fault)
  | _, [] => []
  | s, .create c :: cs => (s.perform (.create c)).answers id k cs
  | s, .edit target e :: cs =>
    let rest := (s.perform (.edit target e)).answers id k cs
    if target = id ∧ e.clause = k then (s.edit target e).fault :: rest else rest

/-- The statements there are and those that a program will create, none of them edited by it. -/
def unedited (s : Store) (cs : List Command) : List Statement := s.statements ++ s.births cs

variable {s : Store} {cs : List Command} {id : StatementId} {st : Statement}

theorem unedited_create (s : Store) (c : Creation) (cs : List Command) :
    (s.perform (.create c)).unedited cs = s.unedited (.create c :: cs) := by
  rw [unedited, unedited, births, perform, create]
  cases s.statementOf c with
  | ok st => exact List.append_assoc s.statements [st] _
  | error f => rfl

theorem get?_unedited (h : id < s.size) (cs : List Command) : (s.unedited cs)[id]? = s.get? id :=
  List.getElem?_append_left h

theorem unedited_edit {target : StatementId} (h : target < s.size) (e : Edit) (cs : List Command)
    (id : StatementId) :
    ((s.perform (.edit target e)).unedited cs)[id]? =
      ((s.unedited (.edit target e :: cs))[id]?).map fun st =>
        if target = id then (st.edit e).state else st := by
  have hlt : target < s.statements.length := h
  have hst : s.get? target = some s.statements[target] := List.getElem?_eq_getElem hlt
  have hunedited : (s.perform (.edit target e)).unedited cs =
      (s.unedited (.edit target e :: cs)).set target (s.statements[target].edit e).state := by
    rw [unedited, unedited, births, List.set_append_left _ _ hlt, perform, edit_eq_of_get? hst]
    rfl
  have hget := (get?_unedited h (.edit target e :: cs)).trans hst
  rw [hunedited]
  by_cases htarget : target = id
  · subst htarget
    rw [List.getElem?_set_self', hget]
    simp
  · rw [List.getElem?_set_ne htarget]
    simp [htarget]

theorem editsTo_edit (id target : StatementId) (e : Edit) (cs : List Command) :
    editsTo id (.edit target e :: cs) =
      if target = id then e :: editsTo id cs else editsTo id cs := by
  rw [editsTo, editsTo, List.filterMap_cons, Command.edit?]
  split <;> simp_all

theorem get?_foldl_perform (h : s.Scoped cs) (id : StatementId) :
    (cs.foldl perform s).get? id = ((s.unedited cs)[id]?).map (·.editAll (editsTo id cs)) := by
  induction cs generalizing s with
  | nil =>
    rw [unedited, births, List.append_nil]
    exact Option.map_id_apply.symm
  | cons c cs ih =>
    rw [List.foldl_cons]
    cases c with
    | create c =>
      rw [ih h, unedited_create]
      rfl
    | edit target e =>
      obtain ⟨htarget, hrest⟩ := h
      rw [ih hrest, unedited_edit htarget, Option.map_map, editsTo_edit]
      split <;> rfl

theorem answers_eq (h : s.Scoped cs) (id : StatementId) (k : ClauseName) :
    s.answers id k cs =
      (((s.unedited cs)[id]?).map (·.answers k (editsTo id cs))).getD [] := by
  induction cs generalizing s with
  | nil =>
    cases (s.unedited [])[id]? <;> rfl
  | cons c cs ih =>
    cases c with
    | create c =>
      rw [answers, ih h, unedited_create]
      rfl
    | edit target e =>
      obtain ⟨htarget, hrest⟩ := h
      have hlt : target < s.statements.length := htarget
      have hst : s.get? target = some s.statements[target] := List.getElem?_eq_getElem hlt
      have hget := (get?_unedited htarget (.edit target e :: cs)).trans hst
      rw [answers, ih hrest, unedited_edit htarget, Option.map_map, editsTo_edit]
      by_cases hid : target = id
      · subst hid
        simp only [hget, edit_eq_of_get? hst, true_and, if_true]
        rfl
      · simp only [hid, false_and, if_false]
        rfl

/-- Only the order of the calls within each clause of each statement matters. The programs may name the
statements differently, as they may create them in a different order. -/
theorem run_interleaved (cs ds : List Command) (ρ : Equiv.Perm StatementId)
    (hcs : empty.Scoped cs) (hds : empty.Scoped ds)
    (hbirths : ∀ id, (empty.births ds)[ρ id]? = ((empty.births cs)[id]?).map (Statement.rename ρ))
    (hcalls : ∀ id k, Statement.editsOf k (editsTo (ρ id) ds) =
      (Statement.editsOf k (editsTo id cs)).map (Edit.rename ρ)) :
    (∀ id k, empty.answers (ρ id) k ds = empty.answers id k cs) ∧
      ∀ id, (run ds).sql (ρ id) = (run cs).sql id ∧
        (run ds).parameters (ρ id) = (run cs).parameters id ∧
        (run ds).countSql (ρ id) = (run cs).countSql id ∧
        (run ds).countParameters (ρ id) = (run cs).countParameters id := by
  have hunedited (id : StatementId) :
      (empty.unedited ds)[ρ id]? = ((empty.unedited cs)[id]?).map (Statement.rename ρ) := hbirths id
  have hedits (id : StatementId) (k : ClauseName) : Statement.editsOf k (editsTo (ρ id) ds) =
      Statement.editsOf k ((editsTo id cs).map (Edit.rename ρ)) := by
    rw [hcalls, Statement.editsOf_rename]
  have hrenamed : Renamed ρ (run cs) (run ds) := by
    intro id
    rw [run, run, get?_foldl_perform hcs, get?_foldl_perform hds, hunedited]
    cases (empty.unedited cs)[id]? with
    | none => rfl
    | some st =>
      have hst := Statement.editAll_eq (st.rename ρ) (hedits id)
      exact congrArg some (hst.trans (st.editAll_rename ρ _))
  have hanswers (id : StatementId) (k : ClauseName) :
      empty.answers (ρ id) k ds = empty.answers id k cs := by
    rw [answers_eq hcs, answers_eq hds, hunedited]
    cases (empty.unedited cs)[id]? with
    | none => rfl
    | some st =>
      have hst := (Statement.editAll_agree (st.rename ρ) (hedits id k)).2
      exact hst.trans (st.answers_rename ρ k _)
  refine ⟨hanswers, fun id => ⟨?_, ?_, ?_, ?_⟩⟩
  · exact congrArg (Except.map chunksSql) (hrenamed.chunks_eq id)
  · exact congrArg (Except.map chunksParameters) (hrenamed.chunks_eq id)
  · exact congrArg (Except.map chunksSql) (hrenamed.countChunks_eq id)
  · exact congrArg (Except.map chunksParameters) (hrenamed.countChunks_eq id)

theorem query_finished_once_embedded :
    let first : List Command := [
      .create (.select none (.text "t") .null),
      .create (.select none (.text "v") .null),
      .edit 0 (.filter (.compare .gt (.text "n") (.int 5) (.choice .and))),
      .edit 0 (.ordering (.columns true [.text "n"])),
      .edit 1 (.window (.limit (.text "x"))),
      .edit 1 (.filter (.memberOf false (.text "id") (some 0) (.choice .and)))]
    let second : List Command := [
      .create (.select none (.text "v") .null),
      .create (.select none (.text "t") .null),
      .edit 0 (.filter (.memberOf false (.text "id") (some 1) (.choice .and))),
      .edit 1 (.ordering (.columns true [.text "n"])),
      .edit 1 (.filter (.compare .gt (.text "n") (.int 5) (.choice .and))),
      .edit 0 (.window (.limit (.text "x")))]
    let ρ : Equiv.Perm StatementId := Equiv.swap 0 1
    ((∀ id k, empty.answers (ρ id) k second = empty.answers id k first) ∧
      ∀ id, (run second).sql (ρ id) = (run first).sql id ∧
        (run second).parameters (ρ id) = (run first).parameters id ∧
        (run second).countSql (ρ id) = (run first).countSql id ∧
        (run second).countParameters (ρ id) = (run first).countParameters id) ∧
      empty.answers 1 .window first = [some (.limitRange (.text "x"))] ∧
      ((run first).sql 1).toOption =
        some "SELECT * FROM v WHERE id IN (SELECT * FROM t WHERE n > ? ORDER BY n ASC)" := by
  intro first second ρ
  have hothers (id : Nat) : ρ (id + 2) = id + 2 :=
    Equiv.swap_apply_of_ne_of_ne (Nat.succ_ne_zero _) (by simp)
  refine ⟨run_interleaved first second ρ ?_ ?_ ?_ ?_, rfl, by decide +kernel⟩
  · exact ⟨by decide, by decide, by decide, by decide, trivial⟩
  · exact ⟨by decide, by decide, by decide, by decide, trivial⟩
  · intro id
    match id with
    | 0 => rfl
    | 1 => rfl
    | id + 2 =>
      rw [hothers]
      rfl
  · intro id k
    match id with
    | 0 => cases k <;> rfl
    | 1 => cases k <;> rfl
    | id + 2 =>
      rw [hothers]
      simp [first, second, editsTo, Command.edit?]
      rfl

end Store
end SqlComposer
