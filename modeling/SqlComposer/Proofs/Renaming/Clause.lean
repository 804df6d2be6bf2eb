import SqlComposer.Edit
import SqlComposer.Proofs.Ensures

/-! Renaming in clauses. A clause knows the statements that it embeds by their places in the store
only, and no edit looks at a place. So renaming the places commutes with reading a clause and with
every edit of one. -/

namespace SqlComposer

variable (ρ : StatementId → StatementId)

namespace Part

def rename : Part → Part
  | chunk c => .chunk c
  | statement id => .statement (ρ id)

theorem map_rename_embedded (before : String) (query : Option StatementId) (after : String) :
    (embedded before query after).map (rename ρ) = embedded before (query.map ρ) after := by
  cases query <;> rfl

theorem map_rename_separated (separator : String) (items : List (List Part)) :
    (separated separator items).map (rename ρ) =
      separated separator (items.map (List.map (rename ρ))) := by
  induction items with
  | nil => rfl
  | cons item items ih =>
    cases items with
    | nil => rfl
    | cons item' items =>
      rw [separated, List.map_append, List.map_cons, ih]
      · rfl
      · exact List.cons_ne_nil _ _

theorem map_rename_clause (keyword separator : String) (items : List (List Part)) :
    (clause keyword separator items).map (rename ρ) =
      clause keyword separator (items.map (List.map (rename ρ))) := by
  cases items with
  | nil => rfl
  | cons item items => exact congrArg (_ :: ·) (map_rename_separated ρ separator (item :: items))

end Part

def CommonTable.rename (t : CommonTable) : CommonTable := { t with query := t.query.map ρ }

def Column.rename : Column → Column
  | expression t => .expression t
  | query id asName => .query (id.map ρ) asName

def Projection.rename (p : Projection) : Projection :=
  { p with columns := p.columns.map (Column.rename ρ) }

def Source.rename : Source → Source
  | table name asName => .table name asName
  | query id asName => .query (id.map ρ) asName

def Join.rename (j : Join) : Join := { j with source := j.source.rename ρ }

def Predicate.rename : Predicate → Predicate
  | text t values => .text t values
  | query before id after => .query before (id.map ρ) after

def Condition.rename (c : Condition) : Condition := { c with predicate := c.predicate.rename ρ }

def Conditions.rename (cs : Conditions) : Conditions := cs.map (Condition.rename ρ)

def UnionBranch.rename (u : UnionBranch) : UnionBranch := { u with query := u.query.map ρ }

def AssignedValue.rename : AssignedValue → AssignedValue
  | expression t values => .expression t values
  | query id => .query (id.map ρ)

def Assignment.rename (a : Assignment) : Assignment := { a with value := a.value.rename ρ }

def SetItem.rename : SetItem → SetItem
  | assignment a => .assignment (a.rename ρ)
  | raw t values => .raw t values

theorem CommonTable.parts_rename (t : CommonTable) :
    (t.rename ρ).parts = t.parts.map (Part.rename ρ) :=
  (Part.map_rename_embedded ρ _ t.query _).symm

theorem CommonTable.clause_rename (ts : List CommonTable) :
    clause (ts.map (rename ρ)) = (clause ts).map (Part.rename ρ) := by
  have hkeyword : keyword (ts.map (rename ρ)) = keyword ts := by
    simp only [keyword, List.any_map]
    rfl
  have hparts : parts ∘ rename ρ = List.map (Part.rename ρ) ∘ parts := funext (parts_rename ρ)
  cases ts with
  | nil => rfl
  | cons t ts =>
    rw [clause, clause, hkeyword]
    simp [Part.map_rename_clause, hparts, parts_rename]
    rfl

theorem Column.parts_rename (c : Column) : (c.rename ρ).parts = c.parts.map (Part.rename ρ) := by
  cases c with
  | expression t => rfl
  | query id asName => exact (Part.map_rename_embedded ρ _ id _).symm

theorem Projection.parts_rename (p : Projection) :
    (p.rename ρ).parts = p.parts.map (Part.rename ρ) := by
  have hparts : Column.parts ∘ Column.rename ρ = List.map (Part.rename ρ) ∘ Column.parts :=
    funext (Column.parts_rename ρ)
  have hempty : (p.rename ρ).columns.isEmpty = p.columns.isEmpty := List.isEmpty_map
  rw [parts, parts, hempty, List.map_cons]
  refine congrArg (_ :: ·) ?_
  split
  · rfl
  · rw [Part.map_rename_separated, rename, List.map_map, List.map_map, hparts]

theorem Source.parts_rename (s : Source) : (s.rename ρ).parts = s.parts.map (Part.rename ρ) := by
  cases s with
  | table name asName => rfl
  | query id asName => exact (Part.map_rename_embedded ρ _ id _).symm

theorem Join.parts_rename (j : Join) : (j.rename ρ).parts = j.parts.map (Part.rename ρ) := by
  have htext : (j.rename ρ).conditionText = j.conditionText := by
    obtain ⟨natural, kind, source, condition, values⟩ := j
    cases source with
    | table name asName => rfl
    | query id asName => cases id <;> rfl
  simp only [parts, htext, List.map_append, List.map_cons, List.map_nil]
  rw [← Source.parts_rename]
  rfl

theorem Predicate.parts_rename (p : Predicate) :
    (p.rename ρ).parts = p.parts.map (Part.rename ρ) := by
  cases p with
  | text t values => rfl
  | query before id after => exact (Part.map_rename_embedded ρ _ id _).symm

theorem Predicate.isClosed_rename (p : Predicate) : (p.rename ρ).isClosed = p.isClosed := by
  cases p with
  | text t values => rfl
  | query before id after => cases id <;> rfl

theorem Conditions.laterParts_rename (c : Condition) :
    laterParts (c.rename ρ) = (laterParts c).map (Part.rename ρ) := by
  have hclosed : (c.rename ρ).predicate.isClosed = c.predicate.isClosed :=
    Predicate.isClosed_rename ρ c.predicate
  have hparts : (c.rename ρ).predicate.parts = c.predicate.parts.map (Part.rename ρ) :=
    Predicate.parts_rename ρ c.predicate
  simp only [laterParts, hclosed, hparts, List.map_append, List.map_cons]
  split <;> rfl

theorem Conditions.clause_rename (keyword : String) (cs : Conditions) :
    clause keyword (cs.rename ρ) = (clause keyword cs).map (Part.rename ρ) := by
  cases cs with
  | nil => rfl
  | cons c cs =>
    have hfirst : (c.rename ρ).predicate.parts = c.predicate.parts.map (Part.rename ρ) :=
      Predicate.parts_rename ρ c.predicate
    have hlater : laterParts ∘ Condition.rename ρ = List.map (Part.rename ρ) ∘ laterParts :=
      funext (laterParts_rename ρ)
    simp only [rename, List.map_cons, clause, hfirst, List.map_append, List.flatMap_map,
      List.map_flatMap, laterParts_rename]
    rfl

theorem UnionBranch.parts_rename (u : UnionBranch) :
    (u.rename ρ).parts = u.parts.map (Part.rename ρ) :=
  (Part.map_rename_embedded ρ _ u.query _).symm

theorem AssignedValue.parts_rename (a : AssignedValue) :
    (a.rename ρ).parts = a.parts.map (Part.rename ρ) := by
  cases a with
  | expression t values => rfl
  | query id => exact (Part.map_rename_embedded ρ _ id _).symm

theorem Assignment.parts_rename (a : Assignment) :
    (a.rename ρ).parts = a.parts.map (Part.rename ρ) :=
  congrArg (_ :: ·) (AssignedValue.parts_rename ρ a.value)

theorem SetItem.parts_rename (i : SetItem) : (i.rename ρ).parts = i.parts.map (Part.rename ρ) := by
  cases i with
  | assignment a => exact Assignment.parts_rename ρ a
  | raw t values => rfl

theorem Grouping.clause_rename (g : Grouping) : g.clause.map (Part.rename ρ) = g.clause := by
  cases g with
  | all => rfl
  | groups exprs =>
    rw [clause, Part.map_rename_clause, List.map_map]
    rfl

theorem orderingClause_rename (items : List String) :
    (orderingClause items).map (Part.rename ρ) = orderingClause items := by
  rw [orderingClause, Part.map_rename_clause, List.map_map]
  rfl

theorem Window.clause_rename (d : Dialect) (w : Window) :
    (w.clause d).map (Part.rename ρ) = w.clause d := by
  unfold clause
  split <;> rfl

def CommonTableEdit.rename (e : CommonTableEdit) : CommonTableEdit := { e with query := e.query.map ρ }

def ColumnEdit.rename : ColumnEdit → ColumnEdit
  | query id asName => .query (id.map ρ) asName
  | e => e

def SourceEdit.rename : SourceEdit → SourceEdit
  | query id asName => .query (id.map ρ) asName
  | e => e

def JoinEdit.rename : JoinEdit → JoinEdit
  | query kind id asName on values => .query kind (id.map ρ) asName on values
  | e => e

def FilterEdit.rename : FilterEdit → FilterEdit
  | memberOf negated column query logic => .memberOf negated column (query.map ρ) logic
  | anyOf column query logic => .anyOf column (query.map ρ) logic
  | hasRows negated query logic => .hasRows negated (ρ query) logic
  | e => e

def AssignmentEdit.rename : AssignmentEdit → AssignmentEdit
  | query column id => .query column (id.map ρ)
  | e => e

theorem map_bind_eq {α β γ : Type} (x : Except Fault α) (f : α → Except Fault β) (g : β → γ) :
    (x >>= f).map g = x >>= fun a => (f a).map g := by
  cases x <;> rfl

theorem append_rename {α : Type} (rename : α → α) (x : Except Fault α) (items : List α) :
    (do return items.map rename ++ [← x.map rename]) =
      (do return items ++ [← x] : Except Fault (List α)).map (List.map rename) := by
  cases x with
  | ok a =>
    have h : (items ++ [a]).map rename = items.map rename ++ [rename a] := List.map_append
    exact congrArg Except.ok h.symm
  | error f => rfl

theorem CommonTableEdit.apply_rename (d : Dialect) (e : CommonTableEdit) (ts : List CommonTable) :
    (e.rename ρ).apply d (ts.map (CommonTable.rename ρ)) =
      (e.apply d ts).map (List.map (CommonTable.rename ρ)) := by
  have htable : (e.rename ρ).table d = (e.table d).map (CommonTable.rename ρ) := by
    simp only [table, map_bind_eq]
    rfl
  rw [apply, htable]
  exact append_rename _ _ ts

theorem ColumnEdit.apply_rename (e : ColumnEdit) (p : Projection) :
    (e.rename ρ).apply (p.rename ρ) = (e.apply p).map (Projection.rename ρ) := by
  -- Every edit adds columns, and all of them but one add texts.
  have hadd (cs : List Column) :
      (p.rename ρ).add (cs.map (Column.rename ρ)) = (p.add cs).rename ρ := by
    simp only [Projection.add, Projection.rename, List.map_append]
  have htext (text : Except Fault String) :
      addText (p.rename ρ) text = (addText p text).map (Projection.rename ρ) := by
    cases text with
    | ok t => exact congrArg Step.made (hadd [.expression t])
    | error f => rfl
  cases e with
  | columns cs =>
    have hexpression : Column.rename ρ ∘ Column.expression = Column.expression := rfl
    have htexts := hadd ((leadingTexts "column" cs).state.map .expression)
    rw [List.map_map, hexpression] at htexts
    exact congrArg (Step.mk · _) htexts
  | distinct => rfl
  | query id asName =>
    simp only [rename, apply]
    cases requireText "alias" asName with
    | ok a => exact congrArg Step.made (hadd [.query id a.within])
    | error f => rfl
  | columnAs | star | aggregate | count | countDistinct => exact htext _

theorem SourceEdit.apply_rename (e : SourceEdit) (ss : List Source) :
    (e.rename ρ).apply (ss.map (Source.rename ρ)) =
      (e.apply ss).map (List.map (Source.rename ρ)) := by
  have hsource : (e.rename ρ).source = e.source.map (Source.rename ρ) := by
    cases e <;> (simp only [rename, source, map_bind_eq]; rfl)
  rw [apply, hsource]
  exact append_rename _ _ ss

theorem JoinEdit.apply_rename (e : JoinEdit) (js : List Join) :
    (e.rename ρ).apply (js.map (Join.rename ρ)) = (e.apply js).map (List.map (Join.rename ρ)) := by
  have hjoin : (e.rename ρ).join = e.join.map (Join.rename ρ) := by
    cases e with
    | columns kind name names asName =>
      cases names with
      | nil => rfl
      | cons n names =>
        simp only [rename, join, map_bind_eq]
        rfl
    | _ =>
      simp only [rename, join, map_bind_eq]
      rfl
  rw [apply, hjoin]
  exact append_rename _ _ js

namespace Conditions

theorem reading_rename (cs : Conditions) : (cs.rename ρ).reading = cs.reading := by
  cases cs <;> rfl

theorem concat_rename (cs : Conditions) (c : Condition) :
    cs.rename ρ ++ [c.rename ρ] = Conditions.rename ρ (cs ++ [c]) := by
  rw [rename, rename, List.map_append]
  rfl

theorem add_rename (cs : Conditions) (logic : Named Logic) (p : Predicate) :
    (cs.rename ρ).add logic (p.rename ρ) = (cs.add logic p).map (rename ρ) := by
  unfold add
  cases Logic.resolve logic with
  | ok l => exact congrArg Except.ok (concat_rename ρ cs ⟨l, p⟩)
  | error f => rfl

theorem addTautology_rename (cs : Conditions) (logic : Named Logic) :
    (cs.rename ρ).addTautology logic = (cs.addTautology logic).map (rename ρ) := by
  unfold addTautology
  cases Logic.resolve logic with
  | ok l =>
    cases l with
    | and => rfl
    | or => exact congrArg Except.ok (concat_rename ρ cs ⟨.or, tautology⟩)
  | error f => rfl

end Conditions

def TextIfAny (p : Option Predicate) : Prop := ∀ q ∈ p, ∃ t values, q = .text t values

theorem textIfAny_text (t : String) (values : List Value) : TextIfAny (some (.text t values)) := by
  rintro _ ⟨⟩
  exact ⟨t, values, rfl⟩

theorem ensures_membership_text (op : Operator) (column values : Value) :
    Ensures (membership op column values) TextIfAny := by
  refine (ensures_any _).bind fun c _ => (ensures_any _).bind fun vs _ => ?_
  split
  · exact ensures_ok nofun
  · exact ensures_ok (textIfAny_text _ _)
  · exact ensures_ok (textIfAny_text _ _)

theorem ensures_expandCondition_text (reading : Phrase → String) (expr : Value)
    (values : List Value) : Ensures (expandCondition reading expr values) TextIfAny := by
  unfold expandCondition
  split
  · refine (ensures_any _).bind fun c _ => ?_
    split
    · split
      · exact ensures_membership_text _ _ _
      · exact ensures_error _
    · split
      · exact ensures_ok (textIfAny_text _ _)
      · exact ensures_error _
  · refine (ensures_any _).bind fun p _ => ?_
    exact ensures_ok (textIfAny_text _ _)

namespace Conditions

theorem add_if_any_rename (cs : Conditions) (logic : Named Logic) {x : Except Fault (Option Predicate)}
    (h : Ensures x TextIfAny) :
    (do match ← x with
      | some p => (cs.rename ρ).add logic p
      | none => return cs.rename ρ) =
    (do match ← x with
      | some p => cs.add logic p
      | none => return cs : Except Fault Conditions).map (rename ρ) := by
  cases x with
  | error f => rfl
  | ok p =>
    cases p with
    | none => rfl
    | some p =>
      obtain ⟨t, values, rfl⟩ := h _ rfl p rfl
      exact add_rename ρ cs logic (.text t values)

theorem addExpanded_rename (cs : Conditions) (logic : Logic) (expr : Value) (values : List Value) :
    (cs.rename ρ).addExpanded logic expr values =
      (cs.addExpanded logic expr values).map (rename ρ) := by
  rw [addExpanded, reading_rename]
  exact add_if_any_rename ρ cs (.choice logic) (ensures_expandCondition_text cs.reading expr values)

end Conditions

theorem HavingEdit.apply_rename (e : HavingEdit) (cs : Conditions) :
    e.apply (cs.rename ρ) = (e.apply cs).map (Conditions.rename ρ) := by
  cases e with
  | condition logic expr values => exact Conditions.addExpanded_rename ρ cs logic expr values
  | aggregate function column op value logic =>
    simp only [apply, map_bind_eq, Conditions.addExpanded_rename]

namespace FilterEdit
variable (cs : Conditions)

theorem acrossColumns_rename (quantifier : Quantifier) (columns : Value) (op : Operator)
    (value : Value) (logic : Named Logic) :
    acrossColumns (cs.rename ρ) quantifier columns op value logic =
      (acrossColumns cs quantifier columns op value logic).map (Conditions.rename ρ) := by
  have hadd (t : String) (values : List Value) := Conditions.add_rename ρ cs logic (.text t values)
  unfold acrossColumns
  cases columnNames columns with
  | error f => rfl
  | ok names =>
    simp only [bind, Except.bind]
    split
    · rfl
    · split
      · exact hadd _ _
      · exact hadd _ _
      · split
        · split
          · exact Conditions.addTautology_rename ρ cs logic
          · exact hadd _ _
        · exact hadd _ _

theorem addBound_rename (op : Operator) (column : String) (v : Value) :
    addBound (cs.rename ρ) op column v = Conditions.rename ρ (addBound cs op column v) := by
  unfold addBound
  split
  · rfl
  · exact Conditions.concat_rename ρ cs ⟨.and, .text (op.predicate column) [v]⟩

theorem apply_rename (d : Dialect) (e : FilterEdit) :
    (e.rename ρ).apply d (cs.rename ρ) = (e.apply d cs).map (Conditions.rename ρ) := by
  have htext (logic : Named Logic) (t : String) (values : List Value) :=
    Conditions.add_rename ρ cs logic (.text t values)
  have hquery (logic : Named Logic) (before : String) (query : Option StatementId) (after : String) :=
    Conditions.add_rename ρ cs logic (.query before query after)
  cases e with
  | condition logic expr values => exact Conditions.addExpanded_rename ρ cs logic expr values
  | compare op column value logic =>
    simp only [rename, apply, map_bind_eq]
    exact congrArg _ (funext fun c => htext logic _ _)
  | member negated column values logic =>
    exact Conditions.add_if_any_rename ρ cs logic (ensures_membership_text _ column values)
  | memberOf negated column query logic =>
    simp only [rename, apply, map_bind_eq]
    exact congrArg _ (funext fun c => hquery logic _ _ _)
  | between column first last =>
    simp only [rename, apply, map_bind_eq, addBound_rename]
    rfl
  | isNull negated column logic =>
    simp only [rename, apply, map_bind_eq]
    exact congrArg _ (funext fun c => htext logic _ _)
  | pattern negated shape column value logic =>
    simp only [rename, apply, map_bind_eq]
    refine congrArg _ (funext fun c => ?_)
    split
    · exact Conditions.addTautology_rename ρ cs logic
    · rw [map_bind_eq]
      exact congrArg _ (funext fun s => htext logic _ _)
  | regexp negated column expr logic =>
    simp only [rename, apply, map_bind_eq]
    refine congrArg _ (funext fun c => congrArg _ (funext fun t => ?_))
    split
    · exact Conditions.addTautology_rename ρ cs logic
    · exact htext logic t _
  | across quantifier columns op value logic => exact acrossColumns_rename ρ cs _ _ _ _ _
  | acrossPattern shape columns value logic =>
    simp only [rename, apply]
    split
    · exact Conditions.addTautology_rename ρ cs logic
    · rw [map_bind_eq]
      exact congrArg _ (funext fun s => acrossColumns_rename ρ cs _ _ _ _ _)
  | anyOf column query logic =>
    simp only [rename, apply, map_bind_eq]
    exact congrArg _ (funext fun c => hquery logic _ _ _)
  | hasRows negated query logic => exact hquery logic _ (some query) _
  | hasRowsText negated query logic =>
    simp only [rename, apply, map_bind_eq]
    exact congrArg _ (funext fun q => htext logic _ _)

end FilterEdit

namespace AssignmentEdit

theorem ensures_assign_rename (reading : Phrase → String) (column : Value) (text : String)
    (values : List Value) :
    Ensures (assign reading column text values) fun a => a.rename ρ = a :=
  (ensures_any _).bind fun _ _ => ensures_ok rfl

theorem one_rename {x : Except Fault Assignment} (h : Ensures x fun a => a.rename ρ = a) :
    one x = (one x).map (List.map (Assignment.rename ρ)) := by
  cases x with
  | ok a => exact congrArg (fun a => Step.made [a]) (h a rfl).symm
  | error f => rfl

theorem leadingEntries_rename (n : Naming) (es : List (String × Value)) :
    leadingEntries n es = (leadingEntries n es).map (List.map (Assignment.rename ρ)) := by
  induction es with
  | nil => rfl
  | cons e es ih =>
    obtain ⟨key, v⟩ := e
    unfold leadingEntries
    split
    · exact congrArg (Step.map (⟨n.convert key, .expression placeholder [v]⟩ :: ·)) ih
    · rfl

theorem assignments_rename (d : Dialect) (reading : Phrase → String) (e : AssignmentEdit) :
    (e.rename ρ).assignments d reading =
      (e.assignments d reading).map (List.map (Assignment.rename ρ)) := by
  have hassign := ensures_assign_rename ρ reading
  cases e with
  | query column id =>
    simp only [rename, assignments]
    cases requireText "column" column <;> rfl
  | entries es =>
    cases es with
    | none => rfl
    | some es => exact leadingEntries_rename ρ d.naming es
  | expression column text values =>
    exact one_rename ρ ((ensures_any _).bind fun c _ => (ensures_any _).bind fun t _ => ensures_ok rfl)
  | now | null | default | document | bytes => exact one_rename ρ (hassign _ _ _)
  | array column values =>
    refine one_rename ρ ?_
    split
    · exact (ensures_any _).bind fun t _ => hassign _ _ _
    · exact ensures_error _
  | uuid column => exact one_rename ρ ((ensures_any _).bind fun t _ => hassign _ _ _)
  | nextValue column sequence =>
    exact one_rename ρ ((ensures_any _).bind fun s _ => (ensures_any _).bind fun t _ => hassign _ _ _)

end AssignmentEdit

theorem SetEdit.items_rename (d : Dialect) (e : SetEdit) :
    (e.items d).map (List.map (SetItem.rename ρ)) = e.items d := by
  -- Every item is a text or assigns an expression.
  have hitem {x : Except Fault SetItem} (h : Ensures x fun i => i.rename ρ = i) :
      (do return [← x] : Except Fault (List SetItem)).map (List.map (SetItem.rename ρ)) =
        do return [← x] := by
    cases x with
    | ok i => exact congrArg (fun i => Except.ok [i]) (h i rfl)
    | error f => rfl
  have hassign (column : Value) (expression : String → String) (value : Value) :
      Ensures (assign column expression value) fun i => i.rename ρ = i :=
    (ensures_any _).bind fun t _ => (ensures_any _).bind fun c _ => ensures_ok rfl
  have hgated (column : Value) (expression : String → Except Fault String) (value : Value) :
      Ensures (assignGated column expression value) fun i => i.rename ρ = i :=
    (ensures_any _).bind fun t _ => (ensures_any _).bind fun _ _ => (ensures_any _).bind fun c _ =>
      ensures_ok rfl
  cases e with
  | raw text values =>
    simp only [items, map_bind_eq]
    refine congrArg _ (funext fun t => ?_)
    unfold rawItem
    split
    · split <;> rfl
    · rfl
  | arithmetic | concat | append | prepend | coalesce => exact hitem (hassign _ _ _)
  | arrayAppend | arrayRemove => exact hitem (hgated _ _ _)
  | revise storage column changes =>
    simp only [items, map_bind_eq]
    refine congrArg _ (funext fun c => congrArg _ (funext fun r => ?_))
    split <;> rfl

end SqlComposer
