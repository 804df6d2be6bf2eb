import SqlComposer.Edit
import SqlComposer.Proofs.Ensures

/-! Independence of clauses. An edit reads the dialect and the clause that it changes, and nothing
else. So what a sequence of edits makes of a clause, and how the edits of that clause are answered,
depends on those edits alone and not on the edits of other clauses between them. -/

namespace SqlComposer

inductive ClauseName where
  | commonTables
  | targets
  | columns
  | sources
  | joins
  | conditions
  | grouping
  | having
  | unions
  | ordering
  | window
  | assignments
  deriving DecidableEq, Repr

def Edit.clause : Edit → ClauseName
  | commonTable _ => .commonTables
  | target .. => .targets
  | column _ => .columns
  | source _ => .sources
  | join _ => .joins
  | filter _ => .conditions
  | grouping _ => .grouping
  | having _ => .having
  | union _ => .unions
  | ordering _ => .ordering
  | window _ => .window
  | assignment _ | bind .. | set _ => .assignments

def Step.Alike {σ τ : Type} (R : σ → τ → Prop) (s : Step σ) (t : Step τ) : Prop :=
  s.fault = t.fault ∧ R s.state t.state

namespace Step
variable {σ τ α : Type} {R : σ → τ → Prop}

theorem alike_refused {q : σ} {r : τ} (h : R q r) (f : Fault) :
    (refused q f).Alike R (refused r f) := ⟨rfl, h⟩

theorem alike_map (s : Step α) {f : α → σ} {g : α → τ} (h : ∀ a, R (f a) (g a)) :
    (s.map f).Alike R (s.map g) := ⟨rfl, h s.state⟩

theorem alike_ofExcept {q : σ} {r : τ} (h : R q r) (x : Except Fault α) {f : α → σ} {g : α → τ}
    (hfg : ∀ a, R (f a) (g a)) :
    (ofExcept q (x.map f)).Alike R (ofExcept r (x.map g)) := by
  cases x with
  | ok a => exact ⟨rfl, hfg a⟩
  | error e => exact ⟨rfl, h⟩

end Step

variable {k : ClauseName}

namespace Query

def Agree (k : ClauseName) (q r : Query) : Prop :=
  match k with
  | .columns => q.projection = r.projection
  | .sources => q.sources = r.sources
  | .joins => q.joins = r.joins
  | .conditions => q.conditions = r.conditions
  | .grouping => q.grouping = r.grouping
  | .having => q.having = r.having
  | .unions => q.unions = r.unions
  | .ordering => q.ordering = r.ordering
  | .window => q.window = r.window
  | .commonTables | .targets | .assignments => True

variable {q r : Query}

theorem agree_refl (k : ClauseName) (q : Query) : q.Agree k q := by
  cases k <;> first | exact rfl | exact trivial

theorem agree_of_agree {p : Query} (h : q.Agree k p) (h' : r.Agree k p) : q.Agree k r := by
  cases k <;> first | exact Eq.trans h (Eq.symm h') | exact trivial

theorem eq_of_agree (h : ∀ k, q.Agree k r) : q = r := by
  have hcolumns : q.projection = r.projection := h .columns
  have hsources : q.sources = r.sources := h .sources
  have hjoins : q.joins = r.joins := h .joins
  have hconditions : q.conditions = r.conditions := h .conditions
  have hgrouping : q.grouping = r.grouping := h .grouping
  have hhaving : q.having = r.having := h .having
  have hunions : q.unions = r.unions := h .unions
  have hordering : q.ordering = r.ordering := h .ordering
  have hwindow : q.window = r.window := h .window
  cases q
  cases r
  simp_all

theorem edit_frame (d : Dialect) (q : Query) {e : Edit} (he : e.clause ≠ k) :
    (q.edit d e).state.Agree k q := by
  cases e with
  | source | join | filter | having =>
    refine Step.ofExcept_keeps (P := (Agree k · q)) (agree_refl k q) ((ensures_any _).map fun a _ => ?_)
    cases k <;> first | exact rfl | exact trivial | exact absurd rfl he
  | column | grouping | union | ordering | window =>
    cases k <;> first | exact rfl | exact trivial | exact absurd rfl he
  | commonTable | target | assignment | bind | set => exact agree_refl k q

theorem edit_alike (d : Dialect) {e : Edit} (h : q.Agree e.clause r) :
    (q.edit d e).Alike (Agree e.clause) (r.edit d e) := by
  cases e with
  | column e =>
    have h : q.projection = r.projection := h
    simp only [edit, h]
    exact Step.alike_map _ fun p => rfl
  | source e =>
    have hs : q.sources = r.sources := h
    simp only [edit, hs]
    exact Step.alike_ofExcept h _ fun s => rfl
  | join e =>
    have hj : q.joins = r.joins := h
    simp only [edit, hj]
    exact Step.alike_ofExcept h _ fun j => rfl
  | filter e =>
    have hc : q.conditions = r.conditions := h
    simp only [edit, hc]
    exact Step.alike_ofExcept h _ fun c => rfl
  | grouping e =>
    have h : q.grouping = r.grouping := h
    simp only [edit, h]
    exact Step.alike_map _ fun g => rfl
  | having e =>
    have hc : q.having = r.having := h
    simp only [edit, hc]
    exact Step.alike_ofExcept h _ fun c => rfl
  | union u =>
    have h : q.unions = r.unions := h
    exact ⟨rfl, congrArg (· ++ [u]) h⟩
  | ordering e =>
    have h : q.ordering = r.ordering := h
    simp only [edit, h]
    exact Step.alike_map _ fun o => rfl
  | window e =>
    have h : q.window = r.window := h
    simp only [edit, h]
    exact Step.alike_map _ fun w => rfl
  | commonTable | target | assignment | bind | set => exact Step.alike_refused h _

end Query

namespace Insertion

def Agree (k : ClauseName) (i j : Insertion) : Prop :=
  match k with
  | .targets => i.table = j.table
  | .assignments => i.assignments = j.assignments
  | _ => True

variable {i j : Insertion}

theorem agree_refl (k : ClauseName) (i : Insertion) : i.Agree k i := by
  cases k <;> first | exact rfl | exact trivial

theorem agree_of_agree {p : Insertion} (h : i.Agree k p) (h' : j.Agree k p) : i.Agree k j := by
  cases k <;> first | exact Eq.trans h (Eq.symm h') | exact trivial

theorem eq_of_agree (h : ∀ k, i.Agree k j) : i = j := by
  have htable : i.table = j.table := h .targets
  have hassignments : i.assignments = j.assignments := h .assignments
  cases i
  cases j
  simp_all

theorem edit_frame (d : Dialect) (i : Insertion) {e : Edit} (he : e.clause ≠ k) :
    (i.edit d e).state.Agree k i := by
  cases e with
  | assignment e => cases k <;> first | exact rfl | exact trivial | exact absurd rfl he
  | bind column value =>
    simp only [edit]
    cases AssignmentEdit.assign Phrase.alone column placeholder [value] with
    | ok a => cases k <;> first | exact rfl | exact trivial | exact absurd rfl he
    | error f => exact agree_refl k i
  | _ => exact agree_refl k i

theorem edit_alike (d : Dialect) {e : Edit} (h : i.Agree e.clause j) :
    (i.edit d e).Alike (Agree e.clause) (j.edit d e) := by
  cases e with
  | assignment e =>
    have h : i.assignments = j.assignments := h
    simp only [edit, h]
    exact Step.alike_map _ fun as => rfl
  | bind column value =>
    have ha : i.assignments = j.assignments := h
    simp only [edit]
    cases AssignmentEdit.assign Phrase.alone column placeholder [value] with
    | ok a => exact ⟨rfl, congrArg (· ++ [a]) ha⟩
    | error f => exact Step.alike_refused h f
  | _ => exact Step.alike_refused h _

end Insertion

namespace Update

def Agree (k : ClauseName) (u v : Update) : Prop :=
  match k with
  | .targets => u.targets = v.targets
  | .assignments => u.items = v.items
  | .sources => u.sources = v.sources
  | .joins => u.joins = v.joins
  | .conditions => u.conditions = v.conditions
  | _ => True

variable {u v : Update}

theorem agree_refl (k : ClauseName) (u : Update) : u.Agree k u := by
  cases k <;> first | exact rfl | exact trivial

theorem agree_of_agree {p : Update} (h : u.Agree k p) (h' : v.Agree k p) : u.Agree k v := by
  cases k <;> first | exact Eq.trans h (Eq.symm h') | exact trivial

theorem eq_of_agree (h : ∀ k, u.Agree k v) : u = v := by
  have htargets : u.targets = v.targets := h .targets
  have hitems : u.items = v.items := h .assignments
  have hsources : u.sources = v.sources := h .sources
  have hjoins : u.joins = v.joins := h .joins
  have hconditions : u.conditions = v.conditions := h .conditions
  cases u
  cases v
  simp_all

theorem edit_frame (d : Dialect) (u : Update) {e : Edit} (he : e.clause ≠ k) :
    (u.edit d e).state.Agree k u := by
  cases e with
  | target | set | source | join | filter =>
    refine Step.ofExcept_keeps (P := (Agree k · u)) (agree_refl k u) ((ensures_any _).map fun a _ => ?_)
    cases k <;> first | exact rfl | exact trivial | exact absurd rfl he
  | assignment e => cases k <;> first | exact rfl | exact trivial | exact absurd rfl he
  | _ => exact agree_refl k u

theorem edit_alike (d : Dialect) {e : Edit} (h : u.Agree e.clause v) :
    (u.edit d e).Alike (Agree e.clause) (v.edit d e) := by
  cases e with
  | target table asName =>
    have ht : u.targets = v.targets := h
    simp only [edit, ht]
    exact Step.alike_ofExcept h _ fun t => rfl
  | assignment e =>
    have h : u.items = v.items := h
    simp only [edit, h]
    exact Step.alike_map _ fun as => rfl
  | set e =>
    have hi : u.items = v.items := h
    simp only [edit, hi]
    exact Step.alike_ofExcept h _ fun is => rfl
  | source e =>
    have hs : u.sources = v.sources := h
    simp only [edit, hs]
    exact Step.alike_ofExcept h _ fun s => rfl
  | join e =>
    have hj : u.joins = v.joins := h
    simp only [edit, hj]
    exact Step.alike_ofExcept h _ fun j => rfl
  | filter e =>
    have hc : u.conditions = v.conditions := h
    simp only [edit, hc]
    exact Step.alike_ofExcept h _ fun c => rfl
  | _ => exact Step.alike_refused h _

end Update

namespace Deletion

def Agree (k : ClauseName) (x y : Deletion) : Prop :=
  match k with
  | .targets => x.targets = y.targets
  | .conditions => x.conditions = y.conditions
  | _ => True

variable {x y : Deletion}

theorem agree_refl (k : ClauseName) (x : Deletion) : x.Agree k x := by
  cases k <;> first | exact rfl | exact trivial

theorem agree_of_agree {p : Deletion} (h : x.Agree k p) (h' : y.Agree k p) : x.Agree k y := by
  cases k <;> first | exact Eq.trans h (Eq.symm h') | exact trivial

theorem eq_of_agree (h : ∀ k, x.Agree k y) : x = y := by
  have htargets : x.targets = y.targets := h .targets
  have hconditions : x.conditions = y.conditions := h .conditions
  cases x
  cases y
  simp_all

theorem edit_frame (d : Dialect) (x : Deletion) {e : Edit} (he : e.clause ≠ k) :
    (x.edit d e).state.Agree k x := by
  cases e with
  | target | filter =>
    refine Step.ofExcept_keeps (P := (Agree k · x)) (agree_refl k x) ((ensures_any _).map fun a _ => ?_)
    cases k <;> first | exact rfl | exact trivial | exact absurd rfl he
  | _ => exact agree_refl k x

theorem edit_alike (d : Dialect) {e : Edit} (h : x.Agree e.clause y) :
    (x.edit d e).Alike (Agree e.clause) (y.edit d e) := by
  cases e with
  | target table asName =>
    have ht : x.targets = y.targets := h
    simp only [edit, ht]
    exact Step.alike_ofExcept h _ fun t => rfl
  | filter e =>
    have hc : x.conditions = y.conditions := h
    simp only [edit, hc]
    exact Step.alike_ofExcept h _ fun c => rfl
  | _ => exact Step.alike_refused h _

end Deletion

namespace Body

inductive Agree (k : ClauseName) : Body → Body → Prop
  | select {q r : Query} (h : q.Agree k r) : Agree k (.select q) (.select r)
  | insert {i j : Insertion} (h : i.Agree k j) : Agree k (.insert i) (.insert j)
  | update {u v : Update} (h : u.Agree k v) : Agree k (.update u) (.update v)
  | delete {x y : Deletion} (h : x.Agree k y) : Agree k (.delete x) (.delete y)

variable {b c : Body}

theorem agree_refl (k : ClauseName) (b : Body) : b.Agree k b := by
  cases b with
  | select q => exact .select (q.agree_refl k)
  | insert i => exact .insert (i.agree_refl k)
  | update u => exact .update (u.agree_refl k)
  | delete x => exact .delete (x.agree_refl k)

theorem agree_of_agree {a : Body} (hb : b.Agree k a) (hc : c.Agree k a) : b.Agree k c := by
  cases hb with
  | select hb => cases hc with | select hc => exact .select (Query.agree_of_agree hb hc)
  | insert hb => cases hc with | insert hc => exact .insert (Insertion.agree_of_agree hb hc)
  | update hb => cases hc with | update hc => exact .update (Update.agree_of_agree hb hc)
  | delete hb => cases hc with | delete hc => exact .delete (Deletion.agree_of_agree hb hc)

theorem eq_of_agree (h : ∀ k, b.Agree k c) : b = c := by
  cases h .columns with
  | select => exact congrArg _ (Query.eq_of_agree fun k => by cases h k; assumption)
  | insert => exact congrArg _ (Insertion.eq_of_agree fun k => by cases h k; assumption)
  | update => exact congrArg _ (Update.eq_of_agree fun k => by cases h k; assumption)
  | delete => exact congrArg _ (Deletion.eq_of_agree fun k => by cases h k; assumption)

theorem edit_frame (d : Dialect) (b : Body) {e : Edit} (he : e.clause ≠ k) :
    (b.edit d e).state.Agree k b := by
  cases b with
  | select q => exact .select (q.edit_frame d he)
  | insert i => exact .insert (i.edit_frame d he)
  | update u => exact .update (u.edit_frame d he)
  | delete x => exact .delete (x.edit_frame d he)

theorem edit_alike (d : Dialect) {e : Edit} (h : b.Agree e.clause c) :
    (b.edit d e).Alike (Agree e.clause) (c.edit d e) := by
  cases h with
  | select h =>
    obtain ⟨hfault, hstate⟩ := Query.edit_alike d h
    exact ⟨hfault, .select hstate⟩
  | insert h =>
    obtain ⟨hfault, hstate⟩ := Insertion.edit_alike d h
    exact ⟨hfault, .insert hstate⟩
  | update h =>
    obtain ⟨hfault, hstate⟩ := Update.edit_alike d h
    exact ⟨hfault, .update hstate⟩
  | delete h =>
    obtain ⟨hfault, hstate⟩ := Deletion.edit_alike d h
    exact ⟨hfault, .delete hstate⟩

end Body

namespace Statement

def Agree (k : ClauseName) (st st' : Statement) : Prop :=
  st.dialect = st'.dialect ∧ (k = .commonTables → st.commonTables = st'.commonTables) ∧
    st.body.Agree k st'.body

variable {st st' : Statement} {es fs : List Edit}

theorem agree_refl (k : ClauseName) (st : Statement) : st.Agree k st :=
  ⟨rfl, fun _ => rfl, st.body.agree_refl k⟩

theorem agree_of_agree {base : Statement} (h : st.Agree k base) (h' : st'.Agree k base) :
    st.Agree k st' := by
  obtain ⟨hdialect, htables, hbody⟩ := h
  obtain ⟨hdialect', htables', hbody'⟩ := h'
  exact ⟨hdialect.trans hdialect'.symm, fun hk => (htables hk).trans (htables' hk).symm,
    Body.agree_of_agree hbody hbody'⟩

theorem eq_of_agree (h : ∀ k, st.Agree k st') : st = st' := by
  have hdialect := (h .commonTables).1
  have htables := (h .commonTables).2.1 rfl
  have hbody := Body.eq_of_agree fun k => (h k).2.2
  cases st
  cases st'
  simp_all

theorem dialect_edit (st : Statement) (e : Edit) : (st.edit e).state.dialect = st.dialect := by
  cases e with
  | commonTable e =>
    exact Step.ofExcept_keeps (P := fun r : Statement => r.dialect = st.dialect) rfl
      ((ensures_any _).map fun _ _ => rfl)
  | _ => rfl

/-- An edit leaves every other clause as it is. -/
theorem edit_frame (st : Statement) {e : Edit} (he : e.clause ≠ k) :
    (st.edit e).state.Agree k st := by
  cases e with
  | commonTable e =>
    rw [edit]
    cases e.apply st.dialect st.commonTables with
    | ok ts => exact ⟨rfl, fun hk => absurd hk.symm he, st.body.agree_refl k⟩
    | error f => exact st.agree_refl k
  | _ => exact ⟨rfl, fun _ => rfl, st.body.edit_frame st.dialect he⟩

theorem select_of_edit {st : Statement} {e : Edit} {k : ClauseName} (he : e.clause ≠ k) {q' : Query}
    (hq' : (st.edit e).state.body = .select q') : ∃ q, st.body = .select q ∧ q'.Agree k q := by
  obtain ⟨-, -, hbody⟩ := st.edit_frame he
  rw [hq'] at hbody
  cases hst : st.body with
  | select q =>
    rw [hst] at hbody
    cases hbody with
    | select hsame => exact ⟨q, rfl, hsame⟩
  | insert | update | delete =>
    rw [hst] at hbody
    cases hbody

/-- What an edit makes of its clause, and how it is answered, depends on that clause alone. -/
theorem edit_alike {e : Edit} (h : st.Agree e.clause st') :
    (st.edit e).Alike (Agree e.clause) (st'.edit e) := by
  obtain ⟨hdialect, htables, hbody⟩ := id h
  cases e with
  | commonTable e =>
    rw [edit, edit, hdialect, htables rfl]
    exact Step.alike_ofExcept h _ fun ts => ⟨rfl, fun _ => rfl, hbody⟩
  | _ =>
    obtain ⟨hfault, hstate⟩ := Body.edit_alike st.dialect hbody
    simp only [edit, ← hdialect]
    exact ⟨hfault, rfl, nofun, hstate⟩

def editAll (st : Statement) (es : List Edit) : Statement :=
  es.foldl (fun st e => (st.edit e).state) st

def answers (k : ClauseName) (st : Statement) : List Edit → List (Option Fault)
  | [] => []
  | e :: es =>
    let rest := (st.edit e).state.answers k es
    if e.clause = k then (st.edit e).reported.fault :: rest else rest

def editsOf (k : ClauseName) (es : List Edit) : List Edit := es.filter (·.clause = k)

theorem editAll_editsOf (es : List Edit) (h : st.Agree k st') :
    (st.editAll es).Agree k (st'.editAll (editsOf k es)) ∧
      st.answers k es = st'.answers k (editsOf k es) := by
  -- On the sequence: an edit of the clause is made on both sides, any other only on the left.
  induction es generalizing st st' with
  | nil => exact ⟨h, rfl⟩
  | cons e es ih =>
    by_cases he : e.clause = k
    · subst he
      obtain ⟨hfault, hstate⟩ := edit_alike h
      obtain ⟨hend, hanswers⟩ := ih hstate
      simp only [editsOf, List.filter_cons, decide_true, if_true, answers]
      refine ⟨hend, ?_⟩
      have hreported : (st.edit e).reported.fault = (st'.edit e).reported.fault :=
        congrArg (Option.map Fault.reported) hfault
      rw [hreported, hanswers]
      rfl
    · have hframe : (st.edit e).state.Agree k st' :=
        agree_of_agree (st.edit_frame he) (agree_of_agree (st'.agree_refl k) h)
      obtain ⟨hend, hanswers⟩ := ih hframe
      simp only [editsOf, List.filter_cons, he, decide_false, answers, if_false]
      exact ⟨hend, hanswers⟩

theorem editAll_agree (st : Statement) (h : editsOf k es = editsOf k fs) :
    (st.editAll es).Agree k (st.editAll fs) ∧ st.answers k es = st.answers k fs := by
  obtain ⟨hes, hanswers⟩ := editAll_editsOf es (st.agree_refl k)
  obtain ⟨hfs, hanswers'⟩ := editAll_editsOf fs (st.agree_refl k)
  rw [h] at hes hanswers
  exact ⟨agree_of_agree hes hfs, hanswers.trans hanswers'.symm⟩

theorem editAll_eq (st : Statement) (h : ∀ k, editsOf k es = editsOf k fs) :
    st.editAll es = st.editAll fs :=
  eq_of_agree fun k => (st.editAll_agree (h k)).1

end Statement
end SqlComposer
