import SqlComposer.Edit
import SqlComposer.Proofs.Dialect.Clause

/-! Statements in two dialects. Two statements match if they differ in what a dialect decides about:
the texts of some conditions, of the columns and expressions that are assigned, and the order in which a
revision binds its values. Matching statements stay so under every edit that both accept, and they bind
the same values and statements, an UPDATE possibly in another order. -/

namespace SqlComposer
variable {R : Condition → Condition → Prop} {same : Prop}

def Edit.isRegexp : Edit → Bool
  | filter e => e.isRegexp
  | _ => false

def Query.Matched (R : Condition → Condition → Prop) (q r : Query) : Prop :=
  ∃ cs, List.Forall₂ R q.conditions cs ∧ r = { q with conditions := cs }

structure Insertion.Matched (i j : Insertion) : Prop where
  table : i.table = j.table
  assignments : i.assignments.flatMap Assignment.bindings = j.assignments.flatMap Assignment.bindings

structure Update.Matched (R : Condition → Condition → Prop) (same : Prop) (u v : Update) : Prop where
  targets : u.targets = v.targets
  items : Shuffled same (u.items.flatMap SetItem.bindings) (v.items.flatMap SetItem.bindings)
  sources : u.sources = v.sources
  joins : u.joins = v.joins
  conditions : List.Forall₂ R u.conditions v.conditions

structure Deletion.Matched (R : Condition → Condition → Prop) (x y : Deletion) : Prop where
  targets : x.targets = y.targets
  conditions : List.Forall₂ R x.conditions y.conditions

inductive Body.Matched (R : Condition → Condition → Prop) (same : Prop) : Body → Body → Prop
  | select {q r : Query} (h : q.Matched R r) : Matched R same (.select q) (.select r)
  | insert {i j : Insertion} (h : i.Matched j) : Matched R same (.insert i) (.insert j)
  | update {u v : Update} (h : u.Matched R same v) : Matched R same (.update u) (.update v)
  | delete {x y : Deletion} (h : x.Matched R y) : Matched R same (.delete x) (.delete y)

def Statement.SameStyle (st st' : Statement) : Prop :=
  st.dialect.family.updateStyle = st'.dialect.family.updateStyle

structure Statement.Matched (R : Condition → Condition → Prop) (st st' : Statement) : Prop where
  commonTables : st.commonTables = st'.commonTables
  body : st.body.Matched R (st.SameStyle st') st'.body

theorem Insertion.Matched.paired_edit {i j : Insertion} (h : i.Matched j) (e : Edit)
    (d d' : Dialect) : (i.edit d e).Paired Insertion.Matched (j.edit d' e) := by
  obtain ⟨htable, hassignments⟩ := h
  have hadd {as as' : List Assignment}
      (has : as.flatMap Assignment.bindings = as'.flatMap Assignment.bindings) :
      Insertion.Matched { i with assignments := i.assignments ++ as }
        { j with assignments := j.assignments ++ as' } := by
    refine ⟨htable, ?_⟩
    rw [List.flatMap_append, List.flatMap_append, hassignments, has]
  cases e with
  | assignment e => exact (e.paired_assignments d d').map fun as as' => hadd
  | bind column value =>
    refine Step.paired_ofExcept ?_ _ _
    refine (AssignmentEdit.paired_assign column placeholder placeholder [value]).bind fun a a' ha => ?_
    refine paired_ok (hadd ?_)
    rw [List.flatMap_singleton, List.flatMap_singleton, ha]
  | _ => exact fun h _ => nomatch h

section Refl
variable (hR : ∀ c, R c c)
include hR

theorem Conditions.forall₂_self (cs : Conditions) : List.Forall₂ R cs cs :=
  List.forall₂_same.2 fun c _ => hR c

theorem Body.matched_self (b : Body) : b.Matched R same b := by
  cases b with
  | select q => exact .select ⟨q.conditions, Conditions.forall₂_self hR _, rfl⟩
  | insert i => exact .insert ⟨rfl, rfl⟩
  | update u => exact .update ⟨rfl, shuffled_of_eq rfl, rfl, rfl, Conditions.forall₂_self hR _⟩
  | delete x => exact .delete ⟨rfl, Conditions.forall₂_self hR _⟩

variable {e : Edit} (hregexp : e.isRegexp → ∀ l t t' values, R ⟨l, .text t values⟩ ⟨l, .text t' values⟩)
  (d d' : Dialect)
include hregexp

theorem Query.Matched.paired_edit {q r : Query} (h : q.Matched R r) :
    (q.edit d e).Paired (Query.Matched R) (r.edit d' e) := by
  obtain ⟨cs, hcs, rfl⟩ := h
  cases e with
  | column e =>
    refine (Step.paired_self (R := Eq) (fun _ => rfl) (e.apply q.projection)).map ?_
    rintro p _ rfl
    exact ⟨cs, hcs, rfl⟩
  | source e =>
    refine Step.paired_ofExcept ((paired_self (R := Eq) (fun _ => rfl) (e.apply q.sources)).map ?_) _ _
    rintro s _ rfl
    exact ⟨cs, hcs, rfl⟩
  | join e =>
    refine Step.paired_ofExcept ((paired_self (R := Eq) (fun _ => rfl) (e.apply q.joins)).map ?_) _ _
    rintro j _ rfl
    exact ⟨cs, hcs, rfl⟩
  | filter e =>
    refine Step.paired_ofExcept ((FilterEdit.paired_apply hR hregexp hcs d d').map ?_) _ _
    exact fun c c' hc => ⟨c', hc, rfl⟩
  | grouping e =>
    refine (GroupingEdit.paired_apply e q.grouping d d').map ?_
    rintro g _ rfl
    exact ⟨cs, hcs, rfl⟩
  | having e =>
    refine Step.paired_ofExcept ((paired_self (R := Eq) (fun _ => rfl) (e.apply q.having)).map ?_) _ _
    rintro c _ rfl
    exact ⟨cs, hcs, rfl⟩
  | union u => exact fun _ _ => ⟨cs, hcs, rfl⟩
  | ordering e =>
    refine (Step.paired_self (R := Eq) (fun _ => rfl) (e.apply q.ordering)).map ?_
    rintro o _ rfl
    exact ⟨cs, hcs, rfl⟩
  | window e =>
    refine (Step.paired_self (R := Eq) (fun _ => rfl) (e.apply q.window)).map ?_
    rintro w _ rfl
    exact ⟨cs, hcs, rfl⟩
  | commonTable | target | assignment | bind | set => exact fun h _ => nomatch h

theorem Update.Matched.paired_edit {u v : Update}
    (h : u.Matched R (d.family.updateStyle = d'.family.updateStyle) v) :
    (u.edit d e).Paired (Update.Matched R (d.family.updateStyle = d'.family.updateStyle))
      (v.edit d' e) := by
  obtain ⟨targets, items, sources, joins, conditions⟩ := h
  have hadd {is is' : List SetItem}
      (his : Shuffled (d.family.updateStyle = d'.family.updateStyle)
        (is.flatMap SetItem.bindings) (is'.flatMap SetItem.bindings)) :
      Shuffled (d.family.updateStyle = d'.family.updateStyle)
        ((u.items ++ is).flatMap SetItem.bindings) ((v.items ++ is').flatMap SetItem.bindings) := by
    rw [List.flatMap_append, List.flatMap_append]
    exact items.append his
  cases e with
  | target table asName =>
    have h := paired_self (R := Eq) (fun _ => rfl) (targetOf table asName)
    refine Step.paired_ofExcept (h.map ?_) _ _
    rintro t _ rfl
    exact ⟨congrArg (· ++ [t]) targets, items, sources, joins, conditions⟩
  | assignment e =>
    refine (e.paired_assignments d d').map fun as as' has => ?_
    have hitems (as : List Assignment) :
        (as.map SetItem.assignment).flatMap SetItem.bindings = as.flatMap Assignment.bindings :=
      List.flatMap_map _ _ _
    refine ⟨targets, hadd (shuffled_of_eq ?_), sources, joins, conditions⟩
    rw [hitems, hitems, has]
  | set e =>
    refine Step.paired_ofExcept ((e.paired_items d d').map fun is is' his => ?_) _ _
    exact ⟨targets, hadd his, sources, joins, conditions⟩
  | source e =>
    have h := paired_self (R := Eq) (fun _ => rfl) (e.apply u.sources)
    simp only [Update.edit, ← sources]
    refine Step.paired_ofExcept (h.map ?_) _ _
    rintro s _ rfl
    exact ⟨targets, items, rfl, joins, conditions⟩
  | join e =>
    have h := paired_self (R := Eq) (fun _ => rfl) (e.apply u.joins)
    simp only [Update.edit, ← joins]
    refine Step.paired_ofExcept (h.map ?_) _ _
    rintro j _ rfl
    exact ⟨targets, items, sources, rfl, conditions⟩
  | filter e =>
    have h := FilterEdit.paired_apply hR hregexp conditions d d'
    refine Step.paired_ofExcept (h.map fun c c' hc => ?_) _ _
    exact ⟨targets, items, sources, joins, hc⟩
  | _ => exact fun h _ => nomatch h

theorem Deletion.Matched.paired_edit {x y : Deletion} (h : x.Matched R y) :
    (x.edit d e).Paired (Deletion.Matched R) (y.edit d' e) := by
  obtain ⟨targets, conditions⟩ := h
  cases e with
  | target table asName =>
    have h := paired_self (R := Eq) (fun _ => rfl) (targetOf table asName)
    refine Step.paired_ofExcept (h.map ?_) _ _
    rintro t _ rfl
    exact ⟨congrArg (· ++ [t]) targets, conditions⟩
  | filter e =>
    have h := FilterEdit.paired_apply hR hregexp conditions d d'
    exact Step.paired_ofExcept (h.map fun c c' hc => ⟨targets, hc⟩) _ _
  | _ => exact fun h _ => nomatch h

theorem Body.Matched.paired_edit {b c : Body}
    (h : b.Matched R (d.family.updateStyle = d'.family.updateStyle) c) :
    (b.edit d e).Paired (Body.Matched R (d.family.updateStyle = d'.family.updateStyle))
      (c.edit d' e) := by
  cases h with
  | select h => exact (h.paired_edit hR hregexp d d').map fun _ _ => .select
  | insert h => exact (h.paired_edit e d d').map fun _ _ => .insert
  | update h => exact (h.paired_edit hR hregexp d d').map fun _ _ => .update
  | delete h => exact (h.paired_edit hR hregexp d d').map fun _ _ => .delete

theorem Statement.Matched.paired_edit {st st' : Statement} (h : st.Matched R st') :
    (st.edit e).Paired (Statement.Matched R) (st'.edit e) := by
  obtain ⟨htables, hbody⟩ := h
  cases e with
  | commonTable e =>
    have h := e.paired_apply st.commonTables st.dialect st'.dialect
    simp only [Statement.edit, ← htables]
    refine Step.paired_ofExcept (h.map ?_) _ _
    rintro ts _ rfl
    exact ⟨rfl, hbody⟩
  | _ =>
    exact (hbody.paired_edit hR hregexp st.dialect st'.dialect).map fun _ _ hb => ⟨htables, hb⟩

end Refl
namespace Conditions
variable {cs cs' : Conditions}

theorem bindings_clause (keyword : String) (cs : Conditions) :
    bindingsOf (clause keyword cs) = cs.flatMap fun c => bindingsOf c.predicate.parts := by
  have hlater (c : Condition) : bindingsOf (laterParts c) = bindingsOf c.predicate.parts := by
    rw [laterParts, List.cons_append, bindingsOf_cons, Part.bindings_text, List.nil_append,
      bindingsOf_append]
    split <;> simp
  cases cs with
  | nil => rfl
  | cons c cs =>
    rw [clause, List.cons_append, bindingsOf_cons, Part.bindings_text, List.nil_append,
      bindingsOf_append, bindingsOf_flatMap, List.flatMap_cons]
    simp only [hlater]

theorem bindings_clause_eq (h : List.Forall₂ Condition.SameBindings cs cs') (keyword : String) :
    bindingsOf (clause keyword cs) = bindingsOf (clause keyword cs') := by
  rw [bindings_clause, bindings_clause]
  induction h with
  | nil => rfl
  | cons hc _ ih =>
    have hc : bindingsOf _ = bindingsOf _ := hc
    rw [List.flatMap_cons, List.flatMap_cons, ih, hc]

end Conditions

theorem Query.Matched.bindings_parts {q r : Query} (h : q.Matched Condition.SameBindings r)
    (d d' : Dialect) : bindingsOf (q.parts d) = bindingsOf (r.parts d') := by
  obtain ⟨cs, hcs, rfl⟩ := h
  simp only [parts, bindingsOf_append, Conditions.bindings_clause_eq hcs, bindings_window]

theorem Insertion.bindings_parts (d : Dialect) (i : Insertion) :
    bindingsOf (i.parts d) = i.assignments.flatMap Assignment.bindings := by
  rw [parts, bindingsOf_cons, Part.bindings_text, List.nil_append]
  split
  · next hempty =>
    rw [List.isEmpty_iff.1 hempty]
    rfl
  · rw [List.cons_append, bindingsOf_cons, Part.bindings_text, List.nil_append, bindingsOf_append,
      Part.bindings_separated, List.flatMap_map]
    exact List.append_nil _

theorem Update.bindings_parts {u : Update} {d : Dialect} {ps : List Part} (h : u.parts d = .ok ps) :
    let further := u.sources.flatMap (fun s => bindingsOf s.parts) ++
      u.joins.flatMap fun j => bindingsOf j.parts
    let items := u.items.flatMap SetItem.bindings
    let conditions := bindingsOf (Conditions.clause " WHERE " u.conditions)
    bindingsOf ps =
      if d.family.updateStyle = .joinedTargets then further ++ items ++ conditions
      else items ++ further ++ conditions := by
  intro further items conditions
  have htargets : bindingsOf (Part.clause "UPDATE " ", " (u.targets.map Target.parts)) = [] := by
    rw [Part.bindings_clause, List.flatMap_map, List.flatMap_eq_nil_iff]
    exact fun t _ => rfl
  have hsources (keyword : String) :
      bindingsOf (Part.clause keyword ", " (u.sources.map Source.parts)) =
        u.sources.flatMap fun s => bindingsOf s.parts := by
    rw [Part.bindings_clause, List.flatMap_map]
  have hitems : bindingsOf (Part.clause " SET " ", " (u.items.map SetItem.parts)) = items := by
    rw [Part.bindings_clause, List.flatMap_map]
    rfl
  unfold parts at h
  split at h
  · next hstyle =>
    cases h
    rw [if_pos hstyle]
    simp [htargets, hsources, hitems, bindingsOf_flatMap, further, conditions]
  · next hstyle =>
    split at h
    · cases h
    · cases h
      rw [if_neg (by simp [hstyle])]
      simp [htargets, hsources, hitems, bindingsOf_flatMap, further, conditions]

theorem Update.Matched.shuffled_parts {u v : Update} {d d' : Dialect} {ps qs : List Part}
    (h : u.Matched Condition.SameBindings (d.family.updateStyle = d'.family.updateStyle) v)
    (hps : u.parts d = .ok ps) (hqs : v.parts d' = .ok qs) :
    Shuffled (d.family.updateStyle = d'.family.updateStyle) (bindingsOf ps) (bindingsOf qs) := by
  obtain ⟨-, hitems, hsources, hjoins, hconditions⟩ := h
  have hps := Update.bindings_parts hps
  have hqs := Update.bindings_parts hqs
  rw [← hsources, ← hjoins, ← Conditions.bindings_clause_eq hconditions] at hqs
  simp only at hps hqs
  rw [hps, hqs]
  have hself (bs : List Binding) : Shuffled (d.family.updateStyle = d'.family.updateStyle) bs bs :=
    shuffled_of_eq rfl
  cases hd : d.family.updateStyle with
  | fromClause =>
    cases hd' : d'.family.updateStyle with
    | fromClause =>
      rw [hd, hd'] at hitems hself
      exact (hitems.append (hself _)).append (hself _)
    | joinedTargets =>
      exact ⟨((hitems.1.append_right _).trans List.perm_append_comm).append_right _, nofun⟩
  | joinedTargets =>
    cases hd' : d'.family.updateStyle with
    | fromClause =>
      exact ⟨(List.perm_append_comm.trans (hitems.1.append_right _)).append_right _, nofun⟩
    | joinedTargets =>
      rw [hd, hd'] at hitems hself
      exact ((hself _).append hitems).append (hself _)

theorem Deletion.Matched.bindings_parts {x y : Deletion} (h : x.Matched Condition.SameBindings y) :
    bindingsOf x.parts = bindingsOf y.parts := by
  obtain ⟨targets, conditions⟩ := h
  simp only [parts, bindingsOf_append, targets, Conditions.bindings_clause_eq conditions]

theorem Window.clause_all (d : Dialect) : all.clause d = [] := by
  obtain ⟨family, name, version, naming⟩ := d
  cases family <;> rfl

namespace Statement
variable {st st' : Statement} {ps qs : List Part}

def IsUpdate (st : Statement) : Prop := ∃ u, st.body = .update u

theorem parts_eq_ok_of_not_isUpdate (h : ¬ st.IsUpdate) : ∃ ps, st.parts = .ok ps := by
  obtain ⟨d, ts, body⟩ := st
  cases body with
  | update u => exact absurd ⟨u, rfl⟩ h
  | select | insert | delete => exact ⟨_, rfl⟩

theorem Matched.isUpdate_iff (h : st.Matched R st') : st.IsUpdate ↔ st'.IsUpdate := by
  obtain ⟨-, hbody⟩ := h
  obtain ⟨d, ts, body⟩ := st
  obtain ⟨d', ts', body'⟩ := st'
  cases hbody with
  | update => exact ⟨fun _ => ⟨_, rfl⟩, fun _ => ⟨_, rfl⟩⟩
  | select | insert | delete => exact ⟨nofun, nofun⟩

theorem Matched.shuffled_parts (h : st.Matched Condition.SameBindings st') (hps : st.parts = .ok ps)
    (hqs : st'.parts = .ok qs) :
    Shuffled (st.IsUpdate → st.SameStyle st') (bindingsOf ps) (bindingsOf qs) := by
  obtain ⟨htables, hbody⟩ := h
  obtain ⟨d, ts, body⟩ := st
  obtain ⟨d', ts', body'⟩ := st'
  obtain ⟨own, hown, ⟨⟩⟩ := bind_eq_ok.1 hps
  obtain ⟨own', hown', ⟨⟩⟩ := bind_eq_ok.1 hqs
  have htables : ts = ts' := htables
  subst htables
  rw [bindingsOf_append, bindingsOf_append]
  refine (shuffled_of_eq rfl).append ?_
  cases hbody with
  | select h =>
    cases hown
    cases hown'
    exact shuffled_of_eq (h.bindings_parts d d')
  | insert h =>
    cases hown
    cases hown'
    refine shuffled_of_eq ?_
    rw [Insertion.bindings_parts, Insertion.bindings_parts, h.assignments]
  | update h =>
    obtain ⟨hperm, hequal⟩ := h.shuffled_parts hown hown'
    exact ⟨hperm, fun hstyle => hequal (hstyle ⟨_, rfl⟩)⟩
  | delete h =>
    cases hown
    cases hown'
    exact shuffled_of_eq h.bindings_parts

theorem Matched.isWritable_eq {R : Condition → Condition → Prop} (h : st.Matched R st') :
    st'.isWritable = st.isWritable := by
  obtain ⟨d, ts, body⟩ := st
  obtain ⟨d', ts', body'⟩ := st'
  obtain ⟨-, hbody⟩ := h
  cases hbody with
  | select h =>
    obtain ⟨cs, -, rfl⟩ := h
    rfl
  | insert | update | delete => rfl

theorem Matched.parts_eq (h : st.Matched Eq st') {q : Query} (hq : st.body = .select q)
    (hwindow : q.window = .all) : st'.parts = st.parts := by
  obtain ⟨htables, hbody⟩ := h
  obtain ⟨d, ts, body⟩ := st
  obtain ⟨d', ts', body'⟩ := st'
  cases hq
  cases hbody with
  | select h =>
    obtain ⟨cs, hcs, rfl⟩ := h
    have hcs : q.conditions = cs := List.forall₂_eq_eq_eq ▸ hcs
    subst hcs
    have htables : ts = ts' := htables
    subst htables
    have hparts : q.parts d' = q.parts d := by
      rw [Query.parts, Query.parts, hwindow, Window.clause_all, Window.clause_all]
    exact congrArg (fun ps => Except.ok (CommonTable.clause ts ++ ps)) hparts

end Statement
end SqlComposer
