import SqlComposer.Proofs.Interleaving
import SqlComposer.Proofs.Dialect.Reading
import SqlComposer.Proofs.Identifier.Clause
import SqlComposer.Proofs.Placeholder.Argument

/-! Assignments that INSERT and UPDATE share. The calls that both of them take are answered alike and
bring the same assignments, which the one lists apart and the other side by side. Only an operator in
the place of a text is written in two ways: by its name in INSERT, by its full name in UPDATE. -/

namespace SqlComposer

inductive SharedCall where
  | assignment (e : AssignmentEdit)
  /-- Binds a value to a column whose text holds no placeholder. -/
  | bind (column value : Value) (unmarked : column.Unmarked)

namespace SharedCall

def onInsert : SharedCall → Edit
  | assignment e => .assignment e
  | bind column value _ => .bind column value

def onUpdate : SharedCall → Edit
  | assignment e => .assignment e
  | bind column value _ => .set (.raw column [value])

def answer (d : Dialect) (reading : Phrase → String) : SharedCall → Step (List Assignment)
  | assignment e => e.assignments d reading
  | bind column value _ => AssignmentEdit.one (AssignmentEdit.assign reading column placeholder [value])

/-- What calls assign in their order, a call that fails part-way what it has assigned until then. -/
def assigned (d : Dialect) (reading : Phrase → String) (calls : List SharedCall) : List Assignment :=
  calls.flatMap fun c => (c.answer d reading).state

def written : SharedCall → List Value
  | assignment (.expression column text _) => [column, text]
  | assignment e => e.columns
  | bind column _ _ => [column]

/-- None of the texts that the call writes is given as an operator. -/
def Textual (c : SharedCall) : Prop := ∀ op, .operator op ∉ c.written

end SharedCall

/-- The same assignment, but for the two ways of writing an operator. -/
structure Assignment.Alike (a b : Assignment) : Prop where
  column : ∃ p : Phrase, a.column = p.alone ∧ b.column = p.within
  value : a.value = b.value ∨ ∃ (q : Phrase) (vs : List Value),
    a.value = .expression q.alone vs ∧ b.value = .expression q.within vs

/-- Causes of the same kind: the argument that holds no text may be called differently. -/
def Fault.SameKind (f g : Fault) : Prop :=
  f = g ∨ f = .blankText "column" ∧ g = .blankText "expr"

theorem Fault.sameKind_reported {f g : Option Fault} (h : Option.Rel SameKind f g) :
    Option.Rel SameKind (f.map Fault.reported) (g.map Fault.reported) := by
  cases h with
  | none => exact .none
  | some h =>
    rcases h with rfl | ⟨rfl, rfl⟩
    · exact .some (.inl rfl)
    · exact .some (.inr ⟨rfl, rfl⟩)

theorem requireText_cases (v : Value) (argument argument' : String) :
    (∃ p, v.phrase? = some p ∧ requireText argument v = .ok p ∧ requireText argument' v = .ok p) ∨
      requireText argument v = .error (.blankText argument) ∧
        requireText argument' v = .error (.blankText argument') := by
  simp only [requireText]
  cases v.phrase? with
  | none => exact .inr ⟨rfl, rfl⟩
  | some p =>
    by_cases hblank : Text.isBlank p.alone = true
    · exact .inr ⟨if_pos hblank, if_pos hblank⟩
    · exact .inl ⟨p, rfl, if_neg hblank, if_neg hblank⟩

namespace AssignmentEdit

theorem alike_one {α : Type} (x : Except Fault α) {f g : α → Except Fault Assignment}
    (h : ∀ a, (one (f a)).Alike (List.Forall₂ Assignment.Alike) (one (g a))) :
    (one (x >>= f)).Alike (List.Forall₂ Assignment.Alike) (one (x >>= g)) := by
  cases x with
  | ok a => exact h a
  | error f => exact Step.alike_refused .nil f

theorem alike_assign (column : Value) (text : String) (values : List Value) :
    (one (assign Phrase.alone column text values)).Alike (List.Forall₂ Assignment.Alike)
      (one (assign Phrase.within column text values)) :=
  alike_one _ fun c => ⟨rfl, .cons ⟨⟨c, rfl, rfl⟩, .inl rfl⟩ .nil⟩

theorem alike_leadingEntries (n : Naming) (es : List (String × Value)) :
    (leadingEntries n es).Alike (List.Forall₂ Assignment.Alike) (leadingEntries n es) := by
  refine ⟨rfl, List.forall₂_same.2 fun a ha => ?_⟩
  exact ⟨⟨.text a.column, rfl, rfl⟩, .inl rfl⟩

theorem assignments_alike (d : Dialect) (e : AssignmentEdit) :
    (e.assignments d Phrase.alone).Alike (List.Forall₂ Assignment.Alike)
      (e.assignments d Phrase.within) := by
  cases e with
  | expression column text values =>
    refine alike_one _ fun c => alike_one _ fun t => ⟨rfl, .cons ?_ .nil⟩
    exact ⟨⟨c, rfl, rfl⟩, .inr ⟨t, values, rfl, rfl⟩⟩
  | entries es =>
    cases es with
    | none => exact Step.alike_refused .nil _
    | some es => exact alike_leadingEntries d.naming es
  | now column | null column | default column => exact alike_assign column _ []
  | document storage column value => exact alike_assign column _ [value]
  | bytes column value => exact alike_assign column _ [value]
  | array column values =>
    simp only [assignments]
    cases values.elements? with
    | some vs => exact alike_one _ fun text => alike_assign column text vs
    | none => exact Step.alike_refused .nil _
  | uuid column => exact alike_one _ fun text => alike_assign column text []
  | nextValue column sequence =>
    exact alike_one _ fun s => alike_one _ fun text => alike_assign column text []
  | query column id =>
    exact alike_one _ fun c => ⟨rfl, .cons ⟨⟨c, rfl, rfl⟩, .inl rfl⟩ .nil⟩

theorem within_eq_alone {argument : String} {v : Value} (hv : ∀ op, v ≠ .operator op) {p : Phrase}
    (h : requireText argument v = .ok p) : p.within = p.alone := by
  cases p with
  | text s => rfl
  | operator op =>
    have hphrase := requireText_eq_ok h
    cases v <;> cases hphrase
    exact absurd rfl (hv op)

theorem assign_eq {column : Value} (h : ∀ op, column ≠ .operator op) (text : String)
    (values : List Value) :
    assign Phrase.within column text values = assign Phrase.alone column text values := by
  unfold assign
  cases hc : requireText "column" column with
  | ok c => simp only [bind, Except.bind, within_eq_alone h hc]
  | error f => rfl

theorem assignments_eq (d : Dialect) {e : AssignmentEdit}
    (h : (SharedCall.assignment e).Textual) :
    e.assignments d Phrase.within = e.assignments d Phrase.alone := by
  have htextual (v : Value) (hv : v ∈ (SharedCall.assignment e).written) (op : Operator) :
      v ≠ .operator op := by
    rintro rfl
    exact h op hv
  cases e with
  | expression column text values =>
    simp only [assignments]
    cases hc : requireText "column" column with
    | error f => rfl
    | ok c =>
      cases ht : requireText "expr" text with
      | error f => rfl
      | ok t =>
        have hcolumn := within_eq_alone (htextual column (by simp [SharedCall.written])) hc
        have htext := within_eq_alone (htextual text (by simp [SharedCall.written])) ht
        simp only [bind, Except.bind, hcolumn, htext]
  | entries es => cases es <;> rfl
  | array column values =>
    have hcolumn := htextual column (by simp [SharedCall.written, columns])
    simp only [assignments, assign_eq hcolumn]
  | query column id =>
    simp only [assignments]
    cases hc : requireText "column" column with
    | error f => rfl
    | ok c =>
      simp only [bind, Except.bind, within_eq_alone (htextual column (by simp [SharedCall.written, columns])) hc]
  | now column | null column | default column | document _ column _ | bytes column _ | uuid column
  | nextValue column _ =>
    simp only [assignments, assign_eq (htextual column (by simp [SharedCall.written, columns]))]

end AssignmentEdit

namespace SharedCall

theorem answer_alike (d : Dialect) (c : SharedCall) :
    (c.answer d Phrase.alone).Alike (List.Forall₂ Assignment.Alike) (c.answer d Phrase.within) := by
  cases c with
  | assignment e => exact AssignmentEdit.assignments_alike d e
  | bind column value _ => exact AssignmentEdit.alike_assign column _ [value]

theorem answer_eq (d : Dialect) {c : SharedCall} (h : c.Textual) :
    c.answer d Phrase.within = c.answer d Phrase.alone := by
  cases c with
  | assignment e => exact AssignmentEdit.assignments_eq d h
  | bind column value _ =>
    have hcolumn (op : Operator) : column ≠ .operator op := by
      rintro rfl
      exact h op (List.mem_singleton_self _)
    simp only [answer, AssignmentEdit.assign_eq hcolumn]

theorem assigned_alike (d : Dialect) (calls : List SharedCall) :
    List.Forall₂ Assignment.Alike (assigned d Phrase.alone calls) (assigned d Phrase.within calls) := by
  induction calls with
  | nil => exact .nil
  | cons c calls ih => exact List.rel_append (c.answer_alike d).2 ih

theorem assigned_eq (d : Dialect) {calls : List SharedCall} (h : ∀ c ∈ calls, c.Textual) :
    assigned d Phrase.within calls = assigned d Phrase.alone calls :=
  List.flatMap_congr fun c hc => congrArg Step.state (answer_eq d (h c hc))

theorem edit_insertion (d : Dialect) (i : Insertion) (c : SharedCall) :
    i.edit d c.onInsert =
      (c.answer d Phrase.alone).map fun as => { i with assignments := i.assignments ++ as } := by
  cases c with
  | assignment e => rfl
  | bind column value _ =>
    simp only [onInsert, Insertion.edit, answer]
    cases AssignmentEdit.assign Phrase.alone column placeholder [value] with
    | ok a => rfl
    | error f =>
      have hkept : i.assignments = i.assignments ++ [] := (List.append_nil _).symm
      exact congrArg (fun as => Step.mk { i with assignments := as } (some f)) hkept

theorem edit_update (d : Dialect) (u : Update) (c : SharedCall) :
    (u.edit d c.onUpdate).state =
        { u with items := u.items ++ (c.answer d Phrase.within).state.map .assignment } ∧
      Option.Rel Fault.SameKind (c.answer d Phrase.within).fault (u.edit d c.onUpdate).fault := by
  cases c with
  | assignment e =>
    refine ⟨rfl, ?_⟩
    simp only [onUpdate, Update.edit, answer, Step.map_fault]
    cases (e.assignments d Phrase.within).fault with
    | none => exact .none
    | some f => exact .some (.inl rfl)
  | bind column value unmarked =>
    obtain ⟨p, hphrase, hcolumn, hexpr⟩ | ⟨hcolumn, hexpr⟩ := requireText_cases column "column" "expr"
    · have hmark : ¬ p.alone.toList.contains '?' = true := by
        simpa using (marks_eq_zero_iff _).1 (unmarked p hphrase)
      have hitems : (SetEdit.raw column [value]).items d =
          .ok [.assignment ⟨p.within, .expression placeholder [value]⟩] := by
        have hitem : SetEdit.rawItem p [value] =
            .assignment ⟨p.within, .expression placeholder [value]⟩ := if_neg hmark
        rw [SetEdit.items, hexpr, ← hitem]
        rfl
      have hassign : AssignmentEdit.assign Phrase.within column placeholder [value] =
          .ok ⟨p.within, .expression placeholder [value]⟩ := by
        rw [AssignmentEdit.assign, hcolumn]
        rfl
      rw [onUpdate, Update.edit, hitems, answer, hassign]
      exact ⟨rfl, .none⟩
    · have hitems : (SetEdit.raw column [value]).items d = .error (.blankText "expr") := by
        rw [SetEdit.items, hexpr]
        rfl
      have hassign : AssignmentEdit.assign Phrase.within column placeholder [value] =
          .error (.blankText "column") := by
        rw [AssignmentEdit.assign, hcolumn]
        rfl
      have hkept : u.items = u.items ++ [].map SetItem.assignment := (List.append_nil _).symm
      rw [onUpdate, Update.edit, hitems, answer, hassign]
      exact ⟨congrArg (fun items => { u with items := items }) hkept, .some (.inr ⟨rfl, rfl⟩)⟩

theorem editAll_insertion (d : Dialect) (table : String) (as : List Assignment)
    (calls : List SharedCall) :
    let st : Statement := ⟨d, [], .insert ⟨table, as⟩⟩
    st.editAll (calls.map onInsert) = ⟨d, [], .insert ⟨table, as ++ assigned d Phrase.alone calls⟩⟩ ∧
      st.answers .assignments (calls.map onInsert) =
        calls.map fun c => (c.answer d Phrase.alone).reported.fault := by
  intro st
  induction calls generalizing as with
  | nil => exact ⟨by simp [assigned, Statement.editAll, st], rfl⟩
  | cons c calls ih =>
    have hedit : st.edit c.onInsert = (c.answer d Phrase.alone).map fun bs =>
        ⟨d, [], .insert ⟨table, as ++ bs⟩⟩ := by
      have h := congrArg (Step.map fun i => (⟨d, [], .insert i⟩ : Statement))
        (edit_insertion d ⟨table, as⟩ c)
      cases c <;> exact h
    obtain ⟨hstate, hanswers⟩ := ih (as ++ (c.answer d Phrase.alone).state)
    have hclause : c.onInsert.clause = .assignments := by cases c <;> rfl
    constructor
    · rw [List.map_cons, Statement.editAll, List.foldl_cons, hedit]
      rw [assigned, List.flatMap_cons, ← List.append_assoc]
      exact hstate
    · rw [List.map_cons, Statement.answers, hclause, if_pos rfl, hedit]
      exact congrArg₂ List.cons rfl hanswers

theorem editAll_update (d : Dialect) (target : Target) (items : List SetItem)
    (calls : List SharedCall) :
    let st : Statement := ⟨d, [], .update ⟨[target], items, [], [], []⟩⟩
    st.editAll (calls.map onUpdate) = ⟨d, [], .update ⟨[target],
        items ++ (assigned d Phrase.within calls).map .assignment, [], [], []⟩⟩ ∧
      List.Forall₂ (Option.Rel Fault.SameKind)
        (calls.map fun c => (c.answer d Phrase.within).reported.fault)
        (st.answers .assignments (calls.map onUpdate)) := by
  intro st
  induction calls generalizing items with
  | nil => exact ⟨by simp [assigned, Statement.editAll, st], .nil⟩
  | cons c calls ih =>
    obtain ⟨hupdate, hfault⟩ := edit_update d ⟨[target], items, [], [], []⟩ c
    have hstate : (st.edit c.onUpdate).state = ⟨d, [], .update ⟨[target],
        items ++ (c.answer d Phrase.within).state.map .assignment, [], [], []⟩⟩ := by
      have h := congrArg (fun u => (⟨d, [], .update u⟩ : Statement)) hupdate
      cases c <;> exact h
    have hanswer : Option.Rel Fault.SameKind (c.answer d Phrase.within).reported.fault
        (st.edit c.onUpdate).reported.fault := by
      have hbody : (st.edit c.onUpdate).fault =
          ((⟨[target], items, [], [], []⟩ : Update).edit d c.onUpdate).fault := by
        cases c <;> rfl
      simp only [Step.reported, hbody]
      exact Fault.sameKind_reported hfault
    obtain ⟨hrest, hanswers⟩ := ih (items ++ (c.answer d Phrase.within).state.map .assignment)
    have hclause : c.onUpdate.clause = .assignments := by cases c <;> rfl
    constructor
    · rw [List.map_cons, Statement.editAll, List.foldl_cons, hstate]
      rw [assigned, List.flatMap_cons, List.map_append, ← List.append_assoc]
      exact hrest
    · rw [List.map_cons, List.map_cons, Statement.answers, hclause, if_pos rfl, hstate]
      exact .cons hanswer hanswers

end SharedCall

def Insertion.text (d : Dialect) (i : Insertion) (expressions : List String) : String :=
  "INSERT INTO " ++ i.table ++
    if i.assignments.isEmpty then d.family.emptyInsertValues
    else " (" ++ ", ".intercalate (i.assignments.map (·.column)) ++ ") VALUES ("
      ++ ", ".intercalate expressions ++ ")"

def Target.text (t : Target) (as : List Assignment) (expressions : List String) : String :=
  "UPDATE " ++ aliased t.table t.asName ++
    if as.isEmpty then ""
    else " SET " ++ ", ".intercalate (List.zipWith (fun a e => a.column ++ " = " ++ e) as expressions)

section Reading
variable (expand : StatementId → Except Fault (List Chunk))

def sqlOf (ps : List Part) : Except Fault String := (expandParts expand ps).map chunksSql

theorem sqlOf_nil : sqlOf expand [] = .ok "" := rfl

theorem sqlOf_text (s : String) (ps : List Part) :
    sqlOf expand (.text s :: ps) = (sqlOf expand ps).map (s ++ ·) := by
  rw [sqlOf, sqlOf, Part.text, expandParts]
  cases expandParts expand ps <;> rfl

theorem sqlOf_append (ps qs : List Part) :
    sqlOf expand (ps ++ qs) = do
      let a ← sqlOf expand ps
      let b ← sqlOf expand qs
      return a ++ b := by
  rw [sqlOf, sqlOf, sqlOf, expandParts_append]
  cases expandParts expand ps with
  | error f => rfl
  | ok as =>
    cases expandParts expand qs with
    | error f => rfl
    | ok bs => exact congrArg Except.ok (chunksSql_append as bs)

theorem sqlOf_separated (separator : String) (items : List (List Part)) :
    sqlOf expand (Part.separated separator items) =
      (items.mapM (sqlOf expand)).map separator.intercalate := by
  induction items with
  | nil => rfl
  | cons item items ih =>
    cases items with
    | nil =>
      rw [Part.separated, List.mapM_cons, List.mapM_nil]
      cases sqlOf expand item with
      | error f => rfl
      | ok t => exact congrArg Except.ok String.intercalate_singleton.symm
    | cons next items =>
      have hstep : Part.separated separator (item :: next :: items) =
          item ++ .text separator :: Part.separated separator (next :: items) := rfl
      rw [hstep, sqlOf_append, sqlOf_text, ih, List.mapM_cons (l := next :: items)]
      cases sqlOf expand item with
      | error f => rfl
      | ok t =>
        cases hrest : (next :: items).mapM (sqlOf expand) with
        | error f => rfl
        | ok ts =>
          -- There is another item, so its text stands behind the separator.
          rw [List.mapM_cons] at hrest
          obtain ⟨t', -, hrest⟩ := bind_eq_ok.1 hrest
          obtain ⟨ts', -, ⟨⟩⟩ := bind_eq_ok.1 hrest
          refine congrArg Except.ok ?_
          rw [String.intercalate_cons_cons, String.append_assoc]

theorem mapM_map {α β γ : Type} (f : α → Except Fault β) (g : α → β → γ) (xs : List α) :
    (xs.mapM fun x => (f x).map (g x)) = (xs.mapM f).map (List.zipWith g xs) := by
  induction xs with
  | nil => rfl
  | cons x xs ih =>
    rw [List.mapM_cons, List.mapM_cons, ih]
    cases f x with
    | error e => rfl
    | ok y => cases xs.mapM f <;> rfl

theorem sqlOf_insertion (d : Dialect) (i : Insertion) :
    sqlOf expand (i.parts d) =
      (i.assignments.mapM fun a => sqlOf expand a.value.parts).map (i.text d) := by
  obtain ⟨table, as⟩ := i
  cases as with
  | nil =>
    simp only [Insertion.parts, List.isEmpty_nil, if_true, sqlOf_text, sqlOf_nil, List.mapM_nil]
    exact congrArg Except.ok (by simp [Insertion.text])
  | cons a as =>
    have hvalues : ((a :: as).map (·.value.parts)).mapM (sqlOf expand) =
        (a :: as).mapM fun a => sqlOf expand a.value.parts := List.mapM_map
    simp only [Insertion.parts, List.isEmpty_cons, if_neg Bool.false_ne_true, List.cons_append,
      sqlOf_text, sqlOf_append, sqlOf_separated, sqlOf_nil, hvalues]
    cases (a :: as).mapM fun a => sqlOf expand a.value.parts with
    | error f => rfl
    | ok es => exact congrArg Except.ok (by simp [Insertion.text, String.append_assoc])

theorem sqlOf_update (d : Dialect) (target : Target) (as : List Assignment) :
    ∃ ps, (⟨[target], as.map .assignment, [], [], []⟩ : Update).parts d = .ok ps ∧
      sqlOf expand ps = (as.mapM fun a => sqlOf expand a.value.parts).map (target.text as) := by
  let items := Part.clause " SET " ", " (as.map Assignment.parts)
  refine ⟨.text "UPDATE " :: .text (aliased target.table target.asName) :: items, ?_, ?_⟩
  · have hitems : (as.map SetItem.assignment).map SetItem.parts = as.map Assignment.parts :=
      List.map_map
    unfold Update.parts
    cases d.family.updateStyle with
    | joinedTargets => simp [Part.clause, Conditions.clause, Part.separated, Target.parts, items, hitems]
    | fromClause => simp [Part.clause, Conditions.clause, Part.separated, Target.parts, items, hitems]
  · have hvalues : (as.map Assignment.parts).mapM (sqlOf expand) =
        (as.mapM fun a => sqlOf expand a.value.parts).map
          (List.zipWith (fun a e => a.column ++ " = " ++ e) as) := by
      rw [List.mapM_map, ← mapM_map]
      exact congrArg (as.mapM ·) (funext fun a => sqlOf_text expand _ _)
    cases as with
    | nil =>
      simp only [items, List.map_nil, Part.clause, sqlOf_text, sqlOf_nil, List.mapM_nil]
      exact congrArg Except.ok (by simp [Target.text])
    | cons a as =>
      have hclause : items = .text " SET " :: Part.separated ", " ((a :: as).map Assignment.parts) := rfl
      simp only [hclause, sqlOf_text, sqlOf_separated, hvalues]
      cases (a :: as).mapM fun a => sqlOf expand a.value.parts with
      | error f => rfl
      | ok es => exact congrArg Except.ok (by simp [Target.text, String.append_assoc])

end Reading

theorem Assignment.Alike.bindings {a b : Assignment} (h : a.Alike b) : a.bindings = b.bindings := by
  unfold Assignment.bindings
  rcases h.value with hvalue | ⟨q, vs, ha, hb⟩
  · rw [hvalue]
  · rw [ha, hb]
    rfl

theorem bindings_of_alike {as bs : List Assignment} (h : List.Forall₂ Assignment.Alike as bs) :
    as.flatMap Assignment.bindings = bs.flatMap Assignment.bindings := by
  induction h with
  | nil => rfl
  | cons hab _ ih => rw [List.flatMap_cons, List.flatMap_cons, hab.bindings, ih]

theorem Update.bindings_assignments {d : Dialect} {target : Target} {as : List Assignment}
    {ps : List Part} (h : (⟨[target], as.map .assignment, [], [], []⟩ : Update).parts d = .ok ps) :
    bindingsOf ps = as.flatMap Assignment.bindings := by
  have hitem (a : Assignment) : SetItem.bindings (.assignment a) = a.bindings := rfl
  have hbindings := Update.bindings_parts h
  simpa [Conditions.clause, List.flatMap_map, hitem] using hbindings

namespace Store
variable {s : Store} {id : StatementId} {st : Statement} {ps : List Part}

def assignedSql (s : Store) (v : AssignedValue) : Except Fault String :=
  sqlOf (s.expandAt (s.size - 1)) v.parts

theorem size_eq_succ (hst : s.get? id = some st) : s.size = s.size - 1 + 1 := by
  have hlt : id < s.size := (s.isSome_get? id).1 (by rw [hst, Option.isSome_some])
  exact (Nat.sub_add_cancel (Nat.one_le_of_lt hlt)).symm

theorem sql_eq_sqlOf (hst : s.get? id = some st) (hps : st.parts = .ok ps) (hw : st.isWritable) :
    s.sql id = sqlOf (s.expandAt (s.size - 1)) ps := by
  rw [sql, chunks, size_eq_succ hst, expandAt, find_eq_ok.2 hst]
  simp only [bind, Except.bind, hps, Statement.whenWritable, hw, if_true]
  rw [Nat.add_sub_cancel, sqlOf]
  cases expandParts (s.expandAt (s.size - 1)) ps <;> rfl

theorem parameters_eq_of_bindings {j : StatementId} {st' : Statement} {qs : List Part}
    (hst : s.get? id = some st) (hps : st.parts = .ok ps) (hst' : s.get? j = some st')
    (hqs : st'.parts = .ok qs) (hw : st.isWritable = st'.isWritable)
    (h : bindingsOf ps = bindingsOf qs) : s.parameters id = s.parameters j := by
  rw [parameters_eq_valuesAt, parameters_eq_valuesAt, size_eq_succ hst, valuesAt_succ hst hps,
    valuesAt_succ hst' hqs, h, funext (Statement.whenWritable_congr hw)]

/-- A fresh INSERT and a fresh UPDATE that take the same calls answer them alike, write the same columns
with the same expressions, and bind the same values. -/
theorem run_shared_assignments (cs : List Command) (hcs : empty.Scoped cs) {i u : StatementId}
    {d : Dialect} {table : String} {target : Target}
    (hi : (empty.births cs)[i]? = some ⟨d, [], .insert ⟨table, []⟩⟩)
    (hu : (empty.births cs)[u]? = some ⟨d, [], .update ⟨[target], [], [], [], []⟩⟩)
    (calls : List SharedCall) (hinsert : editsTo i cs = calls.map SharedCall.onInsert)
    (hupdate : editsTo u cs = calls.map SharedCall.onUpdate) :
    let s := run cs
    let as := SharedCall.assigned d Phrase.alone calls
    let bs := SharedCall.assigned d Phrase.within calls
    List.Forall₂ (Option.Rel Fault.SameKind) (empty.answers i .assignments cs)
        (empty.answers u .assignments cs) ∧
      List.Forall₂ Assignment.Alike as bs ∧
      ((∀ c ∈ calls, c.Textual) → bs = as) ∧
      s.sql i = (as.mapM fun a => s.assignedSql a.value).map (Insertion.text d ⟨table, as⟩) ∧
      s.sql u = (bs.mapM fun b => s.assignedSql b.value).map (target.text bs) ∧
      s.parameters i = s.parameters u := by
  intro s as bs
  have hi : (empty.unedited cs)[i]? = _ := hi
  have hu : (empty.unedited cs)[u]? = _ := hu
  obtain ⟨hinsertion, hanswered⟩ := SharedCall.editAll_insertion d table [] calls
  obtain ⟨hassigning, hrelated⟩ := SharedCall.editAll_update d target [] calls
  have hst : s.get? i = some ⟨d, [], .insert ⟨table, as⟩⟩ := by
    refine (get?_foldl_perform hcs i).trans ?_
    rw [hi, hinsert]
    exact congrArg some hinsertion
  have hst' : s.get? u = some ⟨d, [], .update ⟨[target], bs.map .assignment, [], [], []⟩⟩ := by
    refine (get?_foldl_perform hcs u).trans ?_
    rw [hu, hupdate]
    exact congrArg some hassigning
  have halike : List.Forall₂ Assignment.Alike as bs := SharedCall.assigned_alike d calls
  obtain ⟨ps, hps, hsql⟩ := sqlOf_update (s.expandAt (s.size - 1)) d target bs
  have hps' : Statement.parts ⟨d, [], .update ⟨[target], bs.map .assignment, [], [], []⟩⟩ = .ok ps := by
    simp [Statement.parts, Body.parts, hps, CommonTable.clause]
  have hparts : Statement.parts ⟨d, [], .insert ⟨table, as⟩⟩ = .ok (Insertion.parts d ⟨table, as⟩) := rfl
  refine ⟨?_, halike, SharedCall.assigned_eq d, ?_, ?_, ?_⟩
  · rw [answers_eq hcs, answers_eq hcs, hi, hu, hinsert, hupdate]
    have hsame : (calls.map fun c => (c.answer d Phrase.alone).reported.fault) =
        calls.map fun c => (c.answer d Phrase.within).reported.fault :=
      List.map_congr_left fun c _ => congrArg (Option.map Fault.reported) (c.answer_alike d).1
    rw [← hsame, ← hanswered] at hrelated
    exact hrelated
  · rw [sql_eq_sqlOf hst hparts rfl, sqlOf_insertion]
    rfl
  · rw [sql_eq_sqlOf hst' hps' rfl, hsql]
    rfl
  · refine parameters_eq_of_bindings hst hparts hst' hps' rfl ?_
    rw [Update.bindings_assignments hps, Insertion.bindings_parts]
    exact bindings_of_alike halike

theorem entries_value_and_query_shared :
    let calls : List SharedCall := [
      .assignment (.entries (some [("aB", .int 1), (" ", .int 2), ("c", .int 3)])),
      .bind (.text "n") (.int 5) (Value.unmarked_text (by decide)),
      .assignment (.query (.text "q") (some 2)),
      .assignment (.now (.text "at"))]
    let cs : List Command := [
      .create (.insert none (.text "t")),
      .create (.update none (.text "t") .null),
      .create (.select none (.text "v") .null)]
      ++ calls.map (fun c => .edit 0 c.onInsert)
      ++ [.edit 2 (.filter (.compare .gt (.text "m") (.int 7) (.choice .and)))]
      ++ calls.map (fun c => .edit 1 c.onUpdate)
    let s := run cs
    let as := SharedCall.assigned .standard Phrase.alone calls
    let target : Target := ⟨"t", none⟩
    (List.Forall₂ (Option.Rel Fault.SameKind) (empty.answers 0 .assignments cs)
        (empty.answers 1 .assignments cs) ∧
      s.sql 0 = (as.mapM fun a => s.assignedSql a.value).map (Insertion.text .standard ⟨"t", as⟩) ∧
      s.sql 1 = (as.mapM fun a => s.assignedSql a.value).map (target.text as) ∧
      s.parameters 0 = s.parameters 1) ∧
      empty.answers 0 .assignments cs = [some (.blankText "column"), none, none, none] ∧
      (s.sql 0).toOption = some
        "INSERT INTO t (a_b, n, q, at) VALUES (?, ?, (SELECT * FROM v WHERE m > ?), now())" ∧
      (s.sql 1).toOption = some
        "UPDATE t SET a_b = ?, n = ?, q = (SELECT * FROM v WHERE m > ?), at = now()" := by
  intro calls cs s as target
  have hscoped : empty.Scoped cs :=
    ⟨by decide, by decide, by decide, by decide, by decide, by decide, by decide, by decide, by decide,
      trivial⟩
  have hinsertion : (empty.births cs)[0]? = some ⟨.standard, [], .insert ⟨"t", []⟩⟩ := rfl
  have hassigning : (empty.births cs)[1]? = some ⟨.standard, [], .update ⟨[target], [], [], [], []⟩⟩ := rfl
  obtain ⟨hanswers, -, hequal, hinsert, hupdate, hvalues⟩ :=
    run_shared_assignments cs hscoped hinsertion hassigning calls rfl rfl
  have htextual : ∀ c ∈ calls, c.Textual := by
    simp [calls, SharedCall.Textual, SharedCall.written, AssignmentEdit.columns]
  rw [hequal htextual] at hupdate
  exact ⟨⟨hanswers, hinsert, hupdate, hvalues⟩, rfl, by decide +kernel, by decide +kernel⟩

/-- An operator given as a column is written in two ways. -/
theorem operator_assigned_apart :
    let equals : Edit := .assignment (.expression (.operator .eq) (.text "1") [])
    let s := run [
      .create (.insert none (.text "t")), .create (.update none (.text "t") .null),
      .edit 0 equals, .edit 1 equals]
    ¬ ∃ column expression,
        s.sql 0 = .ok ("INSERT INTO t (" ++ column ++ ") VALUES (" ++ expression ++ ")") ∧
        s.sql 1 = .ok ("UPDATE t SET " ++ column ++ " = " ++ expression) := by
  intro equals s
  rintro ⟨column, expression, hinsert, hupdate⟩
  have hinserted : s.sql 0 = .ok "INSERT INTO t (EQ) VALUES (1)" :=
    eq_ok_of_toOption (by decide +kernel)
  have hupdated : s.sql 1 = .ok "UPDATE t SET Oper.EQ = 1" := eq_ok_of_toOption (by decide +kernel)
  -- The one text leaves three characters for column and expression, the other one eight.
  have hthree := congrArg String.length (Except.ok.inj (hinserted.symm.trans hinsert))
  have height := congrArg String.length (Except.ok.inj (hupdated.symm.trans hupdate))
  simp only [String.length_append] at hthree height
  have hconstants : "INSERT INTO t (EQ) VALUES (1)".length = 29 ∧ "INSERT INTO t (".length = 15 ∧
      ") VALUES (".length = 10 ∧ ")".length = 1 ∧ "UPDATE t SET Oper.EQ = 1".length = 24 ∧
      "UPDATE t SET ".length = 13 ∧ " = ".length = 3 := by decide
  omega

end Store
end SqlComposer
