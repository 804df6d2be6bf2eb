import SqlComposer.Proofs.Expansion
import SqlComposer.Proofs.Gate.Edit
import SqlComposer.Proofs.Identifier.Clause
import SqlComposer.Proofs.Refusal

/-! Names that are refused. Where a name is asked for, anything but a text that shows something is refused
with the argument that is to blame, unless the dialect is asked first and has not got what the edit
needs. -/

namespace SqlComposer

def SourceEdit.required : SourceEdit → Value
  | table name _ => name
  | query _ asName => asName

def JoinEdit.required : JoinEdit → Value
  | table _ name _ _ _ | columns _ name _ _ | natural _ name => name
  | query _ _ asName _ _ => asName

def SetEdit.required : SetEdit → Value
  | raw text _ => text
  | arithmetic _ column _ | concat column _ | append column _ | prepend column _ => column
  | coalesce column _ | arrayAppend column _ | arrayRemove column _ | revise _ column _ => column

def Edit.required : Edit → List Value
  | commonTable e => [e.name]
  | target table _ => [table]
  | column (.query _ asName) => [asName]
  | source e => [e.required]
  | join e => [e.required]
  | ordering (.collate _ collation _) => [collation]
  | assignment e => e.columns
  | bind name _ => [name]
  | set e => [e.required]
  | _ => []

def Creation.required : Creation → List Value
  | select _ .null _ => []
  | select _ table _ | insert _ table | update _ table _ | delete _ table _ => [table]
  | selectFrom _ _ asName => [asName]

/-- A cause that blames an argument, a long integer in the place of a name, or a feature that the dialect
has not. -/
def Fault.Declines (d : Dialect) (fs : List Feature) (names : List Value) (f : Fault) : Prop :=
  f.argument?.isSome ∨ (f = .longInteger ∧ ∃ v ∈ names, v.obstacle? = some .longInteger) ∨
    ∃ g ∈ fs, ¬ d.Supports g ∧ f = g.refusal d

def Declined {α : Type} (d : Dialect) (fs : List Feature) (names : List Value) (x : Except Fault α) :
    Prop :=
  ∃ f, x = .error f ∧ f.Declines d fs names

section Declined
variable {α β σ : Type} {d : Dialect} {fs : List Feature} {names : List Value} {x : Except Fault α}
  {v : Value}

theorem declined_error {f : Fault} (h : f.argument?.isSome) : Declined d fs names (.error f : Except Fault α) :=
  ⟨f, rfl, .inl h⟩

theorem declined_requireText (argument : String) (h : ¬ v.isWritten) :
    Declined d fs names (requireText argument v) := by
  unfold Value.isWritten at h
  unfold requireText
  split
  · next p hp =>
    rw [hp] at h
    have hblank : Text.isBlank p.alone = true := by simpa using h
    rw [if_pos hblank]
    exact declined_error rfl
  · exact declined_error rfl

theorem Declined.bind (h : Declined d fs names x) (g : α → Except Fault β) : Declined d fs names (x >>= g) := by
  obtain ⟨f, rfl, hf⟩ := h
  exact ⟨f, rfl, hf⟩

theorem declined_bind {g : α → Except Fault β} (hx : ∀ f, x = .error f → f.Declines d fs names)
    (hg : ∀ a, Declined d fs names (g a)) : Declined d fs names (x >>= g) := by
  cases x with
  | ok a => exact hg a
  | error f => exact ⟨f, rfl, hx f rfl⟩

theorem Gated.declines {f : Fault} (hx : Gated d fs x) (hf : x = .error f) : f.Declines d fs names := by
  rcases hx with ⟨-, a, ha⟩ | ⟨g, hg, hmissing, herror⟩
  · rw [hf] at ha
    cases ha
  · cases hf.symm.trans herror
    exact .inr (.inr ⟨g, hg, hmissing, rfl⟩)

theorem declines_requireText {argument : String} {f : Fault} (hf : requireText argument v = .error f) :
    f.Declines d fs names := by
  unfold requireText at hf
  split at hf
  · split at hf
    · cases hf
      exact .inl rfl
    · cases hf
  · cases hf
    exact .inl rfl

theorem declines_spell (hv : v ∈ names) {f : Fault} (hf : spell v = .error f) : f.Declines d fs names := by
  unfold spell at hf
  split at hf
  · next why hwhy =>
    cases hf
    cases why with
    | joinsWithoutFrom dialect => exact .inl rfl
    | longInteger => exact .inr (.inl ⟨rfl, v, hv, hwhy⟩)
  · cases hf

theorem declines_resolve {k : Named JoinKind} {f : Fault} (hf : JoinKind.resolve k = .error f) :
    f.Declines d fs names := by
  unfold JoinKind.resolve at hf
  split at hf
  · cases hf
  · split at hf
    · cases hf
    · cases hf
      exact .inl rfl

theorem Declined.fault {x : Except Fault σ} (h : Declined d fs names x) (before : σ) :
    ∃ f, (Step.ofExcept before x).fault = some f ∧ f.Declines d fs names := by
  obtain ⟨f, rfl, hf⟩ := h
  exact ⟨f, rfl, hf⟩

theorem Declined.map (h : Declined d fs names x) (g : α → β) : Declined d fs names (x.map g) := by
  obtain ⟨f, rfl, hf⟩ := h
  exact ⟨f, rfl, hf⟩

end Declined

section Clauses
variable {d : Dialect} {fs : List Feature} {names : List Value} {v : Value}

theorem declined_targetOf (asName : Value) (h : ¬ v.isWritten) : Declined d fs names (targetOf v asName) :=
  (declined_requireText _ h).bind _

theorem SourceEdit.declined_source (e : SourceEdit) (h : ¬ e.required.isWritten) :
    Declined d fs names e.source := by
  cases e with
  | table | query => exact (declined_requireText _ h).bind _

theorem JoinEdit.declined_join (e : JoinEdit) (h : ¬ e.required.isWritten) :
    Declined d fs names e.join := by
  have hname {α : Type} {v : Value} (h : ¬ v.isWritten) (k : Named JoinKind)
      (g : JoinKind → Phrase → Except Fault α) :
      Declined d fs names (do
        let k ← JoinKind.resolve k
        let t ← requireText "table" v
        g k t) :=
    declined_bind (fun _ => declines_resolve) fun _ => (declined_requireText _ h).bind _
  cases e with
  | table kind name on asName values => exact hname h kind _
  | columns kind name columns asName =>
    cases columns with
    | nil => exact declined_error rfl
    | cons p columns => exact hname h kind _
  | natural kind name => exact hname h kind _
  | query kind id asName on values => exact (declined_requireText _ h).bind _

namespace AssignmentEdit

theorem declined_assign (reading : Phrase → String) (text : String) (values : List Value)
    (h : ¬ v.isWritten) : Declined d fs names (assign reading v text values) :=
  (declined_requireText _ h).bind _

theorem leadingEntries_of_blank (n : Naming) {es : List (String × Value)}
    (h : ∃ e ∈ es, Text.isBlank e.1) : (leadingEntries n es).fault = some (.blankText "column") := by
  induction es with
  | nil => simp at h
  | cons e es ih =>
    obtain ⟨key, value⟩ := e
    by_cases hkey : Text.isBlank key = true
    · simp [leadingEntries, requireText, Value.phrase?, hkey]
    · have hrest : ∃ e ∈ es, Text.isBlank e.1 = true := by simpa [hkey] using h
      simpa [leadingEntries, requireText, Value.phrase?, hkey] using ih hrest

theorem declined_assignments (reading : Phrase → String) (e : AssignmentEdit)
    (h : ∃ v ∈ e.columns, ¬ v.isWritten) :
    ∃ f, (e.assignments d reading).fault = some f ∧ f.Declines d (Edit.assignment e).features names := by
  obtain ⟨v, hv, h⟩ := h
  have hone {x : Except Fault Assignment} (hx : Declined d (Edit.assignment e).features names x) :
      ∃ f, (one x).fault = some f ∧ f.Declines d (Edit.assignment e).features names := (hx.map _).fault []
  cases e with
  | entries es =>
    cases es with
    | none => exact absurd hv List.not_mem_nil
    | some es =>
      obtain ⟨entry, hentry, rfl⟩ := List.mem_map.1 hv
      have hblank : Text.isBlank entry.1 = true := by simpa [Value.isWritten, Value.phrase?] using h
      exact ⟨_, leadingEntries_of_blank d.naming ⟨entry, hentry, hblank⟩, .inl rfl⟩
  | array column values =>
    cases List.mem_singleton.1 hv
    refine hone ?_
    split
    · next vs _ =>
      exact declined_bind (fun _ => (d.gated_arrayLiteral vs.length).declines) fun text =>
        declined_assign reading text vs h
    · exact declined_error rfl
  | uuid column =>
    cases List.mem_singleton.1 hv
    exact hone (declined_bind (fun _ => d.gated_uuidFunction.declines) fun text =>
      declined_assign reading text [] h)
  | nextValue column sequence =>
    cases List.mem_singleton.1 hv
    refine hone (declined_bind (fun _ => declines_requireText) fun s => ?_)
    exact declined_bind (fun _ => (d.gated_nextValue s).declines) fun text =>
      declined_assign reading text [] h
  | expression | now | null | default | document | bytes | query =>
    cases List.mem_singleton.1 hv
    exact hone ((declined_requireText _ h).bind _)

end AssignmentEdit

theorem SetEdit.declined_items (e : SetEdit) (h : ¬ e.required.isWritten) :
    Declined d (Edit.set e).features [e.required] (e.items d) := by
  have hassign {v : Value} (h : ¬ v.isWritten) (expression : String → String) (value : Value) :
      Declined d [] [v] (assign v expression value) :=
    declined_bind (fun _ => declines_spell (List.mem_singleton_self v)) fun _ =>
      (declined_requireText _ h).bind _
  have hgated {v : Value} (h : ¬ v.isWritten) {expression : String → Except Fault String}
      (hexpression : ∀ column, Gated d [.array] (expression column)) (value : Value) :
      Declined d [.array] [v] (assignGated v expression value) :=
    declined_bind (fun _ => (hexpression v.plain).declines) fun _ =>
      declined_bind (fun _ => declines_spell (List.mem_singleton_self v)) fun _ =>
        (declined_requireText _ h).bind _
  cases e with
  | raw | revise => exact (declined_requireText _ h).bind _
  | arithmetic | concat | append | prepend | coalesce => exact (hassign h _ _).bind _
  | arrayAppend column value => exact (hgated h d.gated_arrayAppend value).bind _
  | arrayRemove column value => exact (hgated h d.gated_arrayRemove value).bind _

end Clauses

theorem Statement.declined_edit (st : Statement) {e : Edit} (hfits : e.fits st.body)
    (h : ∃ v ∈ e.required, ¬ v.isWritten) :
    ∃ f, (st.edit e).fault = some f ∧ f.Declines st.dialect e.features e.required := by
  obtain ⟨d, ts, body⟩ := st
  obtain ⟨v, hv, h⟩ := h
  cases e with
  | commonTable e =>
    cases List.mem_singleton.1 hv
    have htable : Declined d (Edit.commonTable e).features [e.name] (e.table d) :=
      (declined_requireText _ h).bind _
    exact ((htable.bind _).map _).fault _
  | target table asName =>
    cases List.mem_singleton.1 hv
    have htarget : Declined d [] [v] (targetOf v asName) := declined_targetOf asName h
    cases body with
    | update u => exact (htarget.map _).fault u
    | delete x => exact (htarget.map _).fault x
    | select | insert => cases hfits
  | column e =>
    cases e with
    | query id asName =>
      cases List.mem_singleton.1 hv
      cases body with
      | select q => exact ((declined_requireText _ h).bind _).fault q.projection
      | insert | update | delete => cases hfits
    | _ => exact absurd hv List.not_mem_nil
  | source e =>
    cases List.mem_singleton.1 hv
    have hsource {sources : List Source} : Declined d [] [e.required] (e.apply sources) :=
      (e.declined_source h).bind _
    cases body with
    | select q => exact (hsource.map _).fault q
    | update u => exact (hsource.map _).fault u
    | insert | delete => cases hfits
  | join e =>
    cases List.mem_singleton.1 hv
    have hjoin {joins : List Join} : Declined d [] [e.required] (e.apply joins) := (e.declined_join h).bind _
    cases body with
    | select q => exact (hjoin.map _).fault q
    | update u => exact (hjoin.map _).fault u
    | insert | delete => cases hfits
  | ordering e =>
    cases e with
    | collate column collation ascending =>
      cases List.mem_singleton.1 hv
      cases body with
      | select q => exact (((declined_requireText _ h).bind _).map _).fault q.ordering
      | insert | update | delete => cases hfits
    | _ => exact absurd hv List.not_mem_nil
  | assignment e =>
    cases body with
    | insert i => exact e.declined_assignments Phrase.alone ⟨v, hv, h⟩
    | update u => exact e.declined_assignments Phrase.within ⟨v, hv, h⟩
    | select | delete => cases hfits
  | bind column value =>
    cases List.mem_singleton.1 hv
    cases body with
    | insert i => exact ((AssignmentEdit.declined_assign _ _ _ h).bind _).fault i
    | select | update | delete => cases hfits
  | set e =>
    cases List.mem_singleton.1 hv
    cases body with
    | update u => exact ((e.declined_items h).map _).fault u
    | select | insert | delete => cases hfits
  | filter | grouping | having | union | window => exact absurd hv List.not_mem_nil

theorem Store.declined_statementOf (s : Store) (c : Creation)
    (hfound : ∀ d query asName, c = .selectFrom d query asName → query < s.size)
    (h : ∃ v ∈ c.required, ¬ v.isWritten) : ∃ f, s.statementOf c = .error f ∧ f.argument?.isSome := by
  obtain ⟨v, hv, h⟩ := h
  have hblamed {α : Type} {x : Except Fault α} (hx : Declined .standard [] [] x) :
      ∃ f, x = .error f ∧ f.argument?.isSome := by
    obtain ⟨f, hf, hblames | ⟨-, w, hw, -⟩ | ⟨g, hg, -⟩⟩ := hx
    · exact ⟨f, hf, hblames⟩
    · exact absurd hw List.not_mem_nil
    · exact absurd hg List.not_mem_nil
  have htext {argument : String} : Declined .standard [] [] (requireText argument v) :=
    declined_requireText argument h
  cases c with
  | select d table asName =>
    cases table with
    | null => exact absurd hv List.not_mem_nil
    | _ =>
      cases List.mem_singleton.1 hv
      exact hblamed ((htext.bind _).bind _)
  | selectFrom d query asName =>
    cases List.mem_singleton.1 hv
    obtain ⟨st, hst⟩ := Option.isSome_iff_exists.1 ((s.isSome_get? query).2 (hfound d query v rfl))
    rw [statementOf, find_eq_ok.2 hst]
    exact hblamed ((htext.bind _).bind _)
  | insert d table =>
    cases List.mem_singleton.1 hv
    exact hblamed (htext.bind _)
  | update d table asName | delete d table asName =>
    cases List.mem_singleton.1 hv
    exact hblamed ((htext.bind _).bind _)

end SqlComposer
