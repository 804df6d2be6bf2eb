import SqlComposer.Proofs.Ensures
import SqlComposer.Proofs.Gate.Feature
import SqlComposer.Proofs.Json.Nesting

/-! Gated edits: those that ask the dialect for a feature. An edit that is made has all the features that
it asks for. With its other arguments in order it is made exactly if they are there, and otherwise
refused for one that is missing, which leaves the statement as it was. -/

namespace SqlComposer

def Json.Change.features (storage : Storage) (c : Change) : List Feature :=
  match c.action with
  | .ok (.wrap op _) => [.json storage op]
  | _ => []

namespace Edit

def features : Edit → List Feature
  | commonTable e =>
    match Hint.ofValue e.hint with
    | .ok h => h.features
    | .error _ => []
  | filter (.regexp ..) => [.regexp]
  | grouping .all => [.groupByAll]
  | assignment (.array ..) | set (.arrayAppend ..) | set (.arrayRemove ..) => [.array]
  | assignment (.uuid _) => [.uuid]
  | assignment (.nextValue ..) => [.sequence]
  | set (.revise storage _ changes) => changes.flatMap (·.features storage)
  | _ => []

/-- A gated edit whose arguments are in order, whatever the dialect has. -/
def Ready : Edit → Prop
  | .commonTable e => (requireText "name" e.name).isOk ∧ (Hint.ofValue e.hint).isOk
  | .filter (.regexp _ name _ logic) => (requireText "column" name).isOk ∧ (Logic.resolve logic).isOk
  | .grouping .all => True
  | .assignment (.array name values) =>
    (requireText "column" name).isOk ∧ values.elements?.isSome
  | .assignment (.uuid name) => (requireText "column" name).isOk
  | .assignment (.nextValue name sequence) =>
    (requireText "column" name).isOk ∧ (requireText "sequence" sequence).isOk
  | .set (.arrayAppend name _) | .set (.arrayRemove name _) => (requireText "column" name).isOk
  | .set (.revise _ name changes) =>
    (requireText "column" name).isOk ∧ ∀ c ∈ changes, ∃ a, c.action = .ok a ∧ a.isWritable
  | _ => False

def fits : Edit → Body → Bool
  | .commonTable _, _ => true
  | .column _, .select _ | .grouping _, .select _ | .having _, .select _ | .union _, .select _
  | .ordering _, .select _ | .window _, .select _ => true
  | .source _, .select _ | .source _, .update _ | .join _, .select _ | .join _, .update _ => true
  | .filter _, .select _ | .filter _, .update _ | .filter _, .delete _ => true
  | .target .., .update _ | .target .., .delete _ => true
  | .assignment _, .insert _ | .assignment _, .update _ => true
  | .bind .., .insert _ | .set _, .update _ => true
  | _, _ => false

end Edit

theorem exists_of_isOk {α : Type} {x : Except Fault α} (h : x.isOk) : ∃ a, x = .ok a := by
  cases x with
  | ok a => exact ⟨a, rfl⟩
  | error f => cases h

theorem spell_of_requireText {argument : String} {v : Value} {p : Phrase}
    (h : requireText argument v = .ok p) : ∃ t, spell v = .ok t := by
  cases v with
  | text | operator => exact ⟨_, rfl⟩
  | _ => cases h

theorem Gated.ensures {α : Type} {d : Dialect} {fs : List Feature} {x : Except Fault α}
    (hx : Gated d fs x) : Ensures x fun _ => ∀ f ∈ fs, d.Supports f := fun _ ha => hx.supports ha

/-- A step that is made if the dialect has all of the features, and otherwise refused for one that it has
not, with nothing done. -/
def Step.Gated {σ : Type} (d : Dialect) (fs : List Feature) (before : σ) (s : Step σ) : Prop :=
  ((∀ f ∈ fs, d.Supports f) ∧ s.fault = none) ∨
    ∃ f ∈ fs, ¬ d.Supports f ∧ s = .refused before (f.refusal d)

theorem Gated.step {α σ : Type} {d : Dialect} {fs : List Feature} {x : Except Fault α}
    (hx : Gated d fs x) (before : σ) (g : α → σ) :
    (Step.ofExcept before (x.map g)).Gated d fs before := by
  rcases hx with ⟨hfs, a, rfl⟩ | ⟨f, hf, hmissing, rfl⟩
  · exact .inl ⟨hfs, rfl⟩
  · exact .inr ⟨f, hf, hmissing, rfl⟩

theorem Step.exists_of_ofExcept {σ : Type} {before : σ} {x : Except Fault σ}
    (h : (ofExcept before x).fault = none) : ∃ a, x = .ok a := by
  cases x with
  | ok a => exact ⟨a, rfl⟩
  | error f => cases h

theorem Step.Gated.map {σ τ : Type} {d : Dialect} {fs : List Feature} {before : σ} {s : Step σ}
    (hs : s.Gated d fs before) (g : σ → τ) : (s.map g).Gated d fs (g before) := by
  rcases hs with ⟨hfs, hnone⟩ | ⟨f, hf, hmissing, rfl⟩
  · exact .inl ⟨hfs, hnone⟩
  · exact .inr ⟨f, hf, hmissing, rfl⟩

namespace CommonTableEdit
variable {e : CommonTableEdit}

theorem gated_apply (d : Dialect) (h : (Edit.commonTable e).Ready) (ts : List CommonTable) :
    Gated d (Edit.commonTable e).features (e.apply d ts) := by
  obtain ⟨hname, hhint⟩ := h
  obtain ⟨name, hname⟩ := exists_of_isOk hname
  obtain ⟨hint, hhint⟩ := exists_of_isOk hhint
  simp only [Edit.features, hhint, apply, table, hname]
  exact ((gated_checkHint d hint).bind_ok fun _ _ => ⟨_, rfl⟩).bind_ok fun _ _ => ⟨_, rfl⟩

theorem ensures_apply (d : Dialect) (e : CommonTableEdit) (ts : List CommonTable) :
    Ensures (e.apply d ts) fun _ => ∀ f ∈ (Edit.commonTable e).features, d.Supports f := by
  refine Ensures.bind (P := fun _ => ∀ f ∈ (Edit.commonTable e).features, d.Supports f) ?_
    fun t ht => ensures_ok ht
  refine (ensures_any _).bind fun name _ => ?_
  intro t ht
  obtain ⟨hint, hhint, ht⟩ := bind_eq_ok.1 ht
  obtain ⟨_, hcheck, -⟩ := bind_eq_ok.1 ht
  simp only [Edit.features, hhint]
  exact (gated_checkHint d hint).supports hcheck

end CommonTableEdit

namespace FilterEdit
variable {negated : Bool} {column expr : Value} {logic : Named Logic}

theorem gated_apply (d : Dialect) (h : (Edit.filter (.regexp negated column expr logic)).Ready)
    (cs : Conditions) : Gated d [.regexp] ((regexp negated column expr logic).apply d cs) := by
  obtain ⟨hcolumn, hlogic⟩ := h
  obtain ⟨c, hcolumn⟩ := exists_of_isOk hcolumn
  obtain ⟨l, hlogic⟩ := exists_of_isOk hlogic
  simp only [apply, hcolumn]
  refine (d.gated_regexp negated c.within).bind_ok fun text _ => ?_
  split
  · cases l with
    | and => exact ⟨cs, by simp only [Conditions.addTautology, hlogic]; rfl⟩
    | or => exact ⟨_, by simp only [Conditions.addTautology, hlogic]; rfl⟩
  · exact ⟨_, by simp only [Conditions.add, hlogic]; rfl⟩

theorem ensures_regexp (d : Dialect) (cs : Conditions) :
    Ensures ((regexp negated column expr logic).apply d cs)
      fun _ => ∀ f ∈ [.regexp], d.Supports f := by
  refine (ensures_any _).bind fun c _ => ?_
  exact (d.gated_regexp negated c.within).ensures.bind fun _ h _ _ => h

end FilterEdit

namespace AssignmentEdit

theorem assign_eq_ok {reading : Phrase → String} {column : Value} (h : (requireText "column" column).isOk)
    (text : String) (values : List Value) : ∃ a, assign reading column text values = .ok a := by
  obtain ⟨c, hcolumn⟩ := exists_of_isOk h
  exact ⟨_, by simp only [assign, hcolumn]; rfl⟩

theorem gated_assignments (d : Dialect) (reading : Phrase → String) {e : AssignmentEdit}
    (h : (Edit.assignment e).Ready) :
    (e.assignments d reading).Gated d (Edit.assignment e).features [] := by
  cases e with
  | array column values =>
    obtain ⟨hcolumn, hvalues⟩ := h
    obtain ⟨vs, hvalues⟩ := Option.isSome_iff_exists.1 hvalues
    simp only [assignments, hvalues]
    refine Gated.step (Gated.bind_ok (d.gated_arrayLiteral vs.length) fun text _ => ?_) _ _
    exact assign_eq_ok hcolumn text vs
  | uuid column =>
    exact Gated.step (d.gated_uuidFunction.bind_ok fun text _ => assign_eq_ok h text []) _ _
  | nextValue column sequence =>
    obtain ⟨hcolumn, hsequence⟩ := h
    obtain ⟨s, hsequence⟩ := exists_of_isOk hsequence
    have hgated : Gated d [.sequence] (do
        let text ← d.nextValue s
        assign reading column text []) :=
      (d.gated_nextValue s).bind_ok fun text _ => assign_eq_ok hcolumn text []
    simp only [assignments, hsequence]
    exact hgated.step _ _
  | _ => exact absurd h id

theorem supports_of_assignments (d : Dialect) (reading : Phrase → String) (e : AssignmentEdit)
    (h : (e.assignments d reading).fault = none) :
    ∀ f ∈ (Edit.assignment e).features, d.Supports f := by
  cases e with
  | array column values =>
    obtain ⟨_, h⟩ := Step.exists_of_ofExcept h
    obtain ⟨_, h, -⟩ := map_eq_ok.1 h
    split at h
    · obtain ⟨text, htext, -⟩ := bind_eq_ok.1 h
      exact (d.gated_arrayLiteral _).supports htext
    · cases h
  | uuid column =>
    obtain ⟨_, h⟩ := Step.exists_of_ofExcept h
    obtain ⟨_, h, -⟩ := map_eq_ok.1 h
    obtain ⟨text, htext, -⟩ := bind_eq_ok.1 h
    exact d.gated_uuidFunction.supports htext
  | nextValue column sequence =>
    obtain ⟨_, h⟩ := Step.exists_of_ofExcept h
    obtain ⟨_, h, -⟩ := map_eq_ok.1 h
    obtain ⟨s, -, h⟩ := bind_eq_ok.1 h
    obtain ⟨text, htext, -⟩ := bind_eq_ok.1 h
    exact (d.gated_nextValue s).supports htext
  | _ => exact fun f hf => absurd hf List.not_mem_nil

end AssignmentEdit

namespace Json.Revision
variable {r : Revision} {d : Dialect}

theorem gated_template (hr : r.family = d.family) {c : Change}
    (h : ∃ a, c.action = .ok a ∧ a.isWritable) : Gated d (c.features r.storage) (r.template c) := by
  obtain ⟨a, ha, hwritable⟩ := h
  simp only [template, ha, Change.features]
  cases a with
  | replace v => exact gated_ok _
  | wrap op vs =>
    have hgated := d.gated_jsonExpression r.storage slot hwritable
    rw [← hr] at hgated
    exact hgated.bind_ok fun _ _ => ⟨_, rfl⟩

theorem gated_applyAll (hr : r.family = d.family) {cs : List Change}
    (h : ∀ c ∈ cs, ∃ a, c.action = .ok a ∧ a.isWritable) :
    Gated d (cs.flatMap (·.features r.storage)) (r.applyAll cs) := by
  induction cs generalizing r with
  | nil => exact gated_ok r
  | cons c cs ih =>
    obtain ⟨hc, hcs⟩ := List.forall_mem_cons.1 h
    have hstep : Gated d (c.features r.storage) (r.apply c) :=
      (gated_template hr hc).bind_ok fun _ _ => ⟨_, rfl⟩
    rw [applyAll, List.foldlM_cons, List.flatMap_cons]
    refine hstep.bind fun after hafter => ?_
    obtain ⟨hfamily, hstorage⟩ := apply_family hafter
    rw [← hstorage]
    exact ih (hfamily.trans hr) hcs

theorem supports_of_template (hr : r.family = d.family) {c : Change} {t : Template}
    (h : r.template c = .ok t) : ∀ f ∈ c.features r.storage, d.Supports f := by
  obtain ⟨a, ha, h⟩ := bind_eq_ok.1 h
  simp only [Change.features, ha]
  cases a with
  | replace v => exact fun f hf => absurd hf List.not_mem_nil
  | wrap op vs =>
    obtain ⟨text, htext, -⟩ := bind_eq_ok.1 h
    rw [Action.expression, hr] at htext
    exact List.forall_mem_singleton.2 (Dialect.supports_of_jsonExpression htext)

theorem supports_of_applyAll (hr : r.family = d.family) {cs : List Change} {r' : Revision}
    (h : r.applyAll cs = .ok r') : ∀ f ∈ cs.flatMap (·.features r.storage), d.Supports f := by
  induction cs generalizing r with
  | nil => exact fun f hf => absurd hf List.not_mem_nil
  | cons c cs ih =>
    rw [applyAll, List.foldlM_cons] at h
    obtain ⟨after, hafter, hrest⟩ := bind_eq_ok.1 h
    obtain ⟨hfamily, hstorage⟩ := apply_family hafter
    have hcs := ih (hfamily.trans hr) hrest
    rw [hstorage] at hcs
    obtain ⟨t, ht, -⟩ := bind_eq_ok.1 hafter
    rw [List.flatMap_cons]
    exact List.forall_mem_append.2 ⟨supports_of_template hr ht, hcs⟩

end Json.Revision

namespace SetEdit

theorem gated_items (d : Dialect) {e : SetEdit} (h : (Edit.set e).Ready) :
    Gated d (Edit.set e).features (e.items d) := by
  have hassign {fs : List Feature} {expression : String → Except Fault String}
      (hexpression : ∀ c, Gated d fs (expression c)) {column : Value}
      (hcolumn : (requireText "column" column).isOk) (value : Value) :
      Gated d fs (assignGated column expression value) := by
    obtain ⟨c, hcolumn⟩ := exists_of_isOk hcolumn
    obtain ⟨t, hspelled⟩ := spell_of_requireText hcolumn
    refine (hexpression column.plain).bind_ok fun text _ => ?_
    exact ⟨_, bind_eq_ok.2 ⟨t, hspelled, bind_eq_ok.2 ⟨c, hcolumn, rfl⟩⟩⟩
  cases e with
  | arrayAppend column value => exact (hassign d.gated_arrayAppend h value).bind_ok fun _ _ => ⟨_, rfl⟩
  | arrayRemove column value => exact (hassign d.gated_arrayRemove h value).bind_ok fun _ _ => ⟨_, rfl⟩
  | revise storage column changes =>
    obtain ⟨hcolumn, hchanges⟩ := h
    obtain ⟨c, hcolumn⟩ := exists_of_isOk hcolumn
    simp only [items, hcolumn]
    have hgated := Json.Revision.gated_applyAll (d := d) (r := .start d.family storage c.alone) rfl hchanges
    refine Gated.bind_ok hgated fun r _ => ?_
    split <;> exact ⟨_, rfl⟩
  | _ => exact absurd h id

theorem supports_of_items (d : Dialect) (e : SetEdit) {items : List SetItem}
    (h : e.items d = .ok items) : ∀ f ∈ (Edit.set e).features, d.Supports f := by
  cases e with
  | arrayAppend column value =>
    obtain ⟨item, h, -⟩ := bind_eq_ok.1 h
    obtain ⟨text, htext, -⟩ := bind_eq_ok.1 h
    exact (d.gated_arrayAppend _).supports htext
  | arrayRemove column value =>
    obtain ⟨item, h, -⟩ := bind_eq_ok.1 h
    obtain ⟨text, htext, -⟩ := bind_eq_ok.1 h
    exact (d.gated_arrayRemove _).supports htext
  | revise storage column changes =>
    obtain ⟨c, -, h⟩ := bind_eq_ok.1 h
    obtain ⟨r, hr, -⟩ := bind_eq_ok.1 h
    exact Json.Revision.supports_of_applyAll (r := .start d.family storage c.alone) rfl hr
  | _ => exact fun f hf => absurd hf List.not_mem_nil

end SetEdit

end SqlComposer
