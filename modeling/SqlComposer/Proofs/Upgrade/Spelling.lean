import SqlComposer.Proofs.Binding
import SqlComposer.Proofs.Independence
import SqlComposer.Proofs.Program
import Mathlib.Data.List.Forall2

/-! The spelling of UUID expressions. PostgreSQL has made UUIDs with one function after another. To assign
a UUID is to assign the expression of the version at hand, and no other change looks at what is assigned
already. So statements whose UUID expressions are spelled differently stay so under every edit, and they
are read alike up to the spelling. -/

namespace SqlComposer

def uuidFunctions : List String := ["uuid_generate_v4()", "gen_random_uuid()", "uuidv7()"]

def Dialect.uuidText (d : Dialect) : String := d.uuidFunction.toOption.getD ""

def AssignmentEdit.spell (text : String) : AssignmentEdit → AssignmentEdit
  | uuid column => expression column (.text text) []
  | e => e

def Edit.spell (text : String) : Edit → Edit
  | assignment e => assignment (e.spell text)
  | e => e

def Command.spell (textOf : StatementId → String) : Command → Command
  | create c => create c
  | edit id e => edit id (e.spell (textOf id))

inductive SameAnswer {α β : Type} (R : α → β → Prop) : Except Fault α → Except Fault β → Prop
  | ok {a : α} {b : β} (h : R a b) : SameAnswer R (.ok a) (.ok b)
  | error (f : Fault) : SameAnswer R (.error f) (.error f)

namespace SameAnswer
variable {α β γ δ : Type} {R : α → β → Prop} {S : γ → δ → Prop} {x : Except Fault α} {y : Except Fault β}

theorem bind (h : SameAnswer R x y) {f : α → Except Fault γ} {g : β → Except Fault δ}
    (hfg : ∀ a b, R a b → SameAnswer S (f a) (g b)) : SameAnswer S (x >>= f) (y >>= g) := by
  cases h with
  | ok h => exact hfg _ _ h
  | error f => exact .error f

theorem map (h : SameAnswer R x y) {f : α → γ} {g : β → δ} (hfg : ∀ a b, R a b → S (f a) (g b)) :
    SameAnswer S (x.map f) (y.map g) := by
  cases h with
  | ok h => exact .ok (hfg _ _ h)
  | error f => exact .error f

theorem map_eq (h : SameAnswer R x y) {f : α → γ} {g : β → γ} (hfg : ∀ a b, R a b → f a = g b) :
    x.map f = y.map g := by
  cases h with
  | ok h => exact congrArg Except.ok (hfg _ _ h)
  | error f => rfl

theorem refl {R : α → α → Prop} (h : ∀ a, R a a) (x : Except Fault α) : SameAnswer R x x := by
  cases x with
  | ok a => exact .ok (h a)
  | error f => exact .error f

theorem ofExcept {σ τ : Type} {R : σ → τ → Prop} {x : Except Fault σ} {y : Except Fault τ} {b : σ}
    {c : τ} (h : SameAnswer R x y) (hbc : R b c) : (Step.ofExcept b x).Alike R (.ofExcept c y) := by
  cases h with
  | ok h => exact ⟨rfl, h⟩
  | error f => exact ⟨rfl, hbc⟩

end SameAnswer

def AssignedValue.Respelled (v v' : AssignedValue) : Prop :=
  v = v' ∨ ∃ t ∈ uuidFunctions, ∃ t' ∈ uuidFunctions, v = .expression t [] ∧ v' = .expression t' []

structure Assignment.Respelled (a b : Assignment) : Prop where
  column : a.column = b.column
  value : a.value.Respelled b.value

inductive SetItem.Respelled : SetItem → SetItem → Prop
  | assignment {a b : Assignment} (h : a.Respelled b) : Respelled (.assignment a) (.assignment b)
  | raw (text : String) (values : List Value) : Respelled (.raw text values) (.raw text values)

inductive Body.Respelled : Body → Body → Prop
  | select (q : Query) : Respelled (.select q) (.select q)
  | insert {i : Insertion} {as : List Assignment}
    (h : List.Forall₂ Assignment.Respelled i.assignments as) :
    Respelled (.insert i) (.insert { i with assignments := as })
  | update {u : Update} {is : List SetItem} (h : List.Forall₂ SetItem.Respelled u.items is) :
    Respelled (.update u) (.update { u with items := is })
  | delete (x : Deletion) : Respelled (.delete x) (.delete x)

structure Statement.Respelled (st st' : Statement) : Prop where
  dialect : st.dialect = st'.dialect
  commonTables : st.commonTables = st'.commonTables
  body : st.body.Respelled st'.body

theorem Assignment.respelled_refl (a : Assignment) : a.Respelled a := ⟨rfl, .inl rfl⟩

theorem SetItem.respelled_refl (i : SetItem) : i.Respelled i := by
  cases i with
  | assignment a => exact .assignment a.respelled_refl
  | raw text values => exact .raw text values

theorem Body.respelled_refl (b : Body) : b.Respelled b := by
  cases b with
  | select q => exact .select q
  | insert i => exact .insert (List.forall₂_same.2 fun a _ => a.respelled_refl)
  | update u => exact .update (List.forall₂_same.2 fun i _ => i.respelled_refl)
  | delete x => exact .delete x

theorem Statement.respelled_refl (st : Statement) : st.Respelled st := ⟨rfl, rfl, st.body.respelled_refl⟩

section Edits
variable {d : Dialect} {text : String}

theorem uuidFunction_eq (hd : d.family = .postgresql) : d.uuidFunction = .ok d.uuidText := by
  simp [Dialect.uuidText, Dialect.uuidFunction, hd, Except.toOption]

theorem uuidText_mem (hd : d.family = .postgresql) : d.uuidText ∈ uuidFunctions := by
  simp only [Dialect.uuidText, Dialect.uuidFunction, hd, Except.toOption, Option.getD_some]
  split
  · decide
  · split <;> decide

theorem requireText_uuid (htext : text ∈ uuidFunctions) (argument : String) :
    requireText argument (.text text) = .ok (.text text) := by
  have hblank : ∀ t ∈ uuidFunctions, Text.isBlank t = false := by decide
  simp [requireText, Value.phrase?, hblank text htext]

namespace AssignmentEdit
variable (reading : Phrase → String)

theorem uuid_eq_expression (hreading : ∀ s, reading (.text s) = s) (hd : d.family = .postgresql)
    (column : Value) :
    (uuid column).assignments d reading =
      (expression column (.text d.uuidText) []).assignments d reading := by
  simp only [assignments, uuidFunction_eq hd, requireText_uuid (uuidText_mem hd), assign, bind,
    Except.bind, pure, Except.pure]
  cases requireText "column" column with
  | ok c => simp only [hreading]
  | error f => rfl

theorem respelled_assignments (hreading : ∀ s, reading (.text s) = s) (hd : d.family = .postgresql)
    (htext : text ∈ uuidFunctions) (e : AssignmentEdit) :
    (e.assignments d reading).Alike (List.Forall₂ Assignment.Respelled)
      ((e.spell text).assignments d reading) := by
  have hself (as : List Assignment) : List.Forall₂ Assignment.Respelled as as :=
    List.forall₂_same.2 fun a _ => a.respelled_refl
  cases e with
  | uuid column =>
    rw [uuid_eq_expression reading hreading hd]
    refine SameAnswer.ofExcept (SameAnswer.map ?_ fun a b h => .cons h .nil) (hself [])
    refine (SameAnswer.refl (R := Eq) (fun _ => rfl) (requireText "column" column)).bind ?_
    rintro c _ rfl
    rw [requireText_uuid (uuidText_mem hd), requireText_uuid htext]
    refine .ok ⟨rfl, .inr ⟨_, uuidText_mem hd, _, htext, ?_, ?_⟩⟩ <;> rw [hreading]
  | _ => exact ⟨rfl, hself _⟩

end AssignmentEdit

theorem Insertion.respelled_edit (hd : d.family = .postgresql) (htext : text ∈ uuidFunctions)
    {i : Insertion} {as : List Assignment} (h : List.Forall₂ Assignment.Respelled i.assignments as)
    (e : Edit) :
    ((i.edit d e).map Body.insert).Alike Body.Respelled
      ((({ i with assignments := as } : Insertion).edit d (e.spell text)).map Body.insert) := by
  cases e with
  | assignment e =>
    obtain ⟨hfault, hadded⟩ :=
      e.respelled_assignments Phrase.alone (fun _ => rfl) hd htext
    exact ⟨hfault, .insert (List.rel_append h hadded)⟩
  | bind column value =>
    simp only [edit, Edit.spell]
    cases AssignmentEdit.assign Phrase.alone column placeholder [value] with
    | ok a => exact ⟨rfl, .insert (List.rel_append h (.cons a.respelled_refl .nil))⟩
    | error f => exact ⟨rfl, .insert h⟩
  | _ => exact ⟨rfl, .insert h⟩

theorem Update.respelled_edit (hd : d.family = .postgresql) (htext : text ∈ uuidFunctions)
    {u : Update} {is : List SetItem} (h : List.Forall₂ SetItem.Respelled u.items is) (e : Edit) :
    ((u.edit d e).map Body.update).Alike Body.Respelled
      ((({ u with items := is } : Update).edit d (e.spell text)).map Body.update) := by
  cases e with
  | assignment e =>
    obtain ⟨hfault, hadded⟩ :=
      e.respelled_assignments Phrase.within (fun _ => rfl) hd htext
    refine ⟨hfault, .update (List.rel_append h ?_)⟩
    exact List.rel_map (fun _ _ => .assignment) hadded
  | set e =>
    simp only [edit, Edit.spell]
    cases e.items d with
    | ok added =>
      exact ⟨rfl, .update (List.rel_append h (List.forall₂_same.2 fun i _ => i.respelled_refl))⟩
    | error f => exact ⟨rfl, .update h⟩
  | target table asName =>
    simp only [edit, Edit.spell]
    cases targetOf table asName <;> exact ⟨rfl, .update h⟩
  | source e =>
    simp only [edit, Edit.spell]
    cases e.apply u.sources <;> exact ⟨rfl, .update h⟩
  | join e =>
    simp only [edit, Edit.spell]
    cases e.apply u.joins <;> exact ⟨rfl, .update h⟩
  | filter e =>
    simp only [edit, Edit.spell]
    cases e.apply d u.conditions <;> exact ⟨rfl, .update h⟩
  | _ => exact ⟨rfl, .update h⟩

theorem Query.edit_spell (q : Query) (e : Edit) : q.edit d (e.spell text) = q.edit d e := by
  cases e <;> rfl

theorem Deletion.edit_spell (x : Deletion) (e : Edit) : x.edit d (e.spell text) = x.edit d e := by
  cases e <;> rfl

theorem Body.Respelled.edit (hd : d.family = .postgresql) (htext : text ∈ uuidFunctions) {b c : Body}
    (h : b.Respelled c) (e : Edit) : (b.edit d e).Alike Body.Respelled (c.edit d (e.spell text)) := by
  cases h with
  | select q =>
    rw [Body.edit, Body.edit, q.edit_spell]
    exact Step.alike_map _ fun q => .select q
  | insert h => exact Insertion.respelled_edit hd htext h e
  | update h => exact Update.respelled_edit hd htext h e
  | delete x =>
    rw [Body.edit, Body.edit, x.edit_spell]
    exact Step.alike_map _ fun x => .delete x

theorem Statement.Respelled.edit {st st' : Statement} (h : st.Respelled st')
    (hd : st.dialect.family = .postgresql) (htext : text ∈ uuidFunctions) (e : Edit) :
    (st.edit e).Alike Statement.Respelled (st'.edit (e.spell text)) := by
  obtain ⟨d, ts, b⟩ := st
  obtain ⟨d', ts', b'⟩ := st'
  obtain ⟨rfl, rfl, hbody⟩ := h
  have hedited := hbody.edit hd htext e
  cases e with
  | commonTable e =>
    simp only [Statement.edit, Edit.spell]
    cases e.apply d ts <;> exact ⟨rfl, rfl, rfl, hbody⟩
  | _ => exact ⟨hedited.1, rfl, rfl, hedited.2⟩

end Edits

def Chunk.Respelled (c c' : Chunk) : Prop :=
  c = c' ∨ ∃ t ∈ uuidFunctions, ∃ t' ∈ uuidFunctions, c = ⟨t, []⟩ ∧ c' = ⟨t', []⟩

inductive Part.Respelled : Part → Part → Prop
  | chunk {c c' : Chunk} (h : c.Respelled c') : Respelled (.chunk c) (.chunk c')
  | statement (id : StatementId) : Respelled (.statement id) (.statement id)

abbrev RespelledParts : List Part → List Part → Prop := List.Forall₂ Part.Respelled

theorem Part.respelled_refl (p : Part) : p.Respelled p := by
  cases p with
  | chunk c => exact .chunk (.inl rfl)
  | statement id => exact .statement id

theorem respelledParts_refl (ps : List Part) : RespelledParts ps ps :=
  List.forall₂_same.2 fun p _ => p.respelled_refl

theorem respelled_separated {separator : String} {items items' : List (List Part)}
    (h : List.Forall₂ RespelledParts items items') :
    RespelledParts (Part.separated separator items) (Part.separated separator items') := by
  induction h with
  | nil => exact .nil
  | cons hitem hitems ih =>
    cases hitems with
    | nil => exact hitem
    | cons => exact List.rel_append hitem (.cons (Part.respelled_refl _) ih)

theorem respelled_clause (keyword separator : String) {items items' : List (List Part)}
    (h : List.Forall₂ RespelledParts items items') :
    RespelledParts (Part.clause keyword separator items) (Part.clause keyword separator items') := by
  cases h with
  | nil => exact .nil
  | cons hitem hitems => exact .cons (Part.respelled_refl _) (respelled_separated (.cons hitem hitems))

theorem AssignedValue.Respelled.parts {v v' : AssignedValue} (h : v.Respelled v') :
    RespelledParts v.parts v'.parts := by
  rcases h with rfl | ⟨t, ht, t', ht', rfl, rfl⟩
  · exact respelledParts_refl _
  · exact .cons (.chunk (.inr ⟨t, ht, t', ht', rfl, rfl⟩)) .nil

theorem SetItem.Respelled.parts {i i' : SetItem} (h : i.Respelled i') :
    RespelledParts i.parts i'.parts := by
  cases h with
  | @assignment a b h =>
    rw [SetItem.parts, SetItem.parts, Assignment.parts, Assignment.parts, h.column]
    exact .cons (Part.respelled_refl _) h.value.parts
  | raw text values => exact respelledParts_refl _

theorem Insertion.respelled_parts (d : Dialect) {i : Insertion} {as : List Assignment}
    (h : List.Forall₂ Assignment.Respelled i.assignments as) :
    RespelledParts (i.parts d) (({ i with assignments := as } : Insertion).parts d) := by
  obtain ⟨table, assignments⟩ := i
  have hcolumns : assignments.map (·.column) = as.map (·.column) := by
    have heq : List.Forall₂ Eq (assignments.map (·.column)) (as.map (·.column)) :=
      List.rel_map (fun _ _ h => h.column) h
    rwa [List.forall₂_eq_eq_eq] at heq
  have hempty : assignments.isEmpty = as.isEmpty := by cases h <;> rfl
  simp only [parts, hcolumns, hempty]
  refine .cons (Part.respelled_refl _) ?_
  split
  · exact respelledParts_refl _
  · refine .cons (Part.respelled_refl _) ?_
    refine List.rel_append (respelled_separated ?_) (respelledParts_refl _)
    exact List.rel_map (fun _ _ h => h.value.parts) h

theorem Update.respelled_parts (d : Dialect) {u : Update} {is : List SetItem}
    (h : List.Forall₂ SetItem.Respelled u.items is) :
    SameAnswer RespelledParts (u.parts d) (({ u with items := is } : Update).parts d) := by
  have hitems : RespelledParts (Part.clause " SET " ", " (u.items.map SetItem.parts))
      (Part.clause " SET " ", " (is.map SetItem.parts)) :=
    respelled_clause " SET " ", " (List.rel_map (fun _ _ h => h.parts) h)
  have hself := respelledParts_refl
  unfold parts
  split
  · exact .ok (List.rel_append (List.rel_append (hself _) hitems) (hself _))
  · simp only
    split
    · exact .error _
    · refine .ok (List.rel_append (List.rel_append (List.rel_append ?_ (hself _)) (hself _)) (hself _))
      exact List.rel_append (hself _) hitems

theorem Statement.Respelled.parts {st st' : Statement} (h : st.Respelled st') :
    SameAnswer RespelledParts st.parts st'.parts := by
  obtain ⟨d, ts, b⟩ := st
  obtain ⟨d', ts', b'⟩ := st'
  obtain ⟨rfl, rfl, hbody⟩ := h
  have hown : SameAnswer RespelledParts (b.parts d) (b'.parts d) := by
    cases hbody with
    | select q => exact .ok (respelledParts_refl _)
    | insert h => exact .ok (Insertion.respelled_parts d h)
    | update h => exact Update.respelled_parts d h
    | delete x => exact .ok (respelledParts_refl _)
  exact hown.bind fun ps qs h => .ok (List.rel_append (respelledParts_refl _) h)

theorem Statement.Respelled.isWritable_eq {st st' : Statement} (h : st.Respelled st') :
    st'.isWritable = st.isWritable := by
  obtain ⟨d, ts, b⟩ := st
  obtain ⟨d', ts', b'⟩ := st'
  obtain ⟨rfl, rfl, hbody⟩ := h
  cases hbody <;> rfl

theorem Statement.Respelled.countParts_eq {st st' : Statement} (h : st.Respelled st') :
    st'.countParts = st.countParts := by
  obtain ⟨d, ts, b⟩ := st
  obtain ⟨d', ts', b'⟩ := st'
  obtain ⟨rfl, rfl, hbody⟩ := h
  cases hbody <;> rfl

theorem respelled_expandParts {expand expand' : StatementId → Except Fault (List Chunk)}
    (h : ∀ id, SameAnswer (List.Forall₂ Chunk.Respelled) (expand id) (expand' id)) {ps qs : List Part}
    (hparts : RespelledParts ps qs) :
    SameAnswer (List.Forall₂ Chunk.Respelled) (expandParts expand ps) (expandParts expand' qs) := by
  induction hparts with
  | nil => exact .ok .nil
  | cons hp _ ih =>
    cases hp with
    | chunk hc => exact ih.bind fun cs ds h => .ok (.cons hc h)
    | statement id =>
      exact (h id).bind fun inner inner' hinner => ih.bind fun cs ds h => .ok (List.rel_append hinner h)

theorem Chunk.Respelled.values_eq {c c' : Chunk} (h : c.Respelled c') : c.values = c'.values := by
  rcases h with rfl | ⟨t, -, t', -, rfl, rfl⟩ <;> rfl

theorem respelled_parameters {cs ds : List Chunk} (h : List.Forall₂ Chunk.Respelled cs ds) :
    chunksParameters cs = chunksParameters ds := by
  have hvalues : List.Forall₂ Eq (cs.map Chunk.values) (ds.map Chunk.values) :=
    List.rel_map (fun _ _ hc => hc.values_eq) h
  rw [List.forall₂_eq_eq_eq] at hvalues
  rw [chunksParameters_eq, chunksParameters_eq, List.flatMap_def, List.flatMap_def, hvalues]

end SqlComposer
