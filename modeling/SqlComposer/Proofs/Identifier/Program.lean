import SqlComposer.Proofs.History
import SqlComposer.Proofs.Identifier.Refusal
import SqlComposer.Proofs.Independence
import SqlComposer.Proofs.Placeholder.Argument

/-! The names that programs record. A blank one gets in on two ways only: as a column of USING, which
nobody looks at, and as the key of a mapping that the naming empties after it has been looked at. -/

namespace SqlComposer

/-- The call has put a blank name in. The keys in front of a blank one are assigned even though the call
is refused. -/
def Call.Overlooks (n : Naming) (c : Call) : Prop :=
  match c.edit with
  | .join e => c.fault = none ∧ e.OverlooksBlank
  | .assignment e => (c.fault = none ∨ c.fault = some (.blankText "column")) ∧ e.OverlooksBlank n
  | _ => False

section OfExcept
variable {α σ : Type} {b : σ} {x : Except Fault α} {g : α → σ} {n : σ → List String}

theorem hasBlank_ofExcept {p : Prop}
    (h : Ensures x fun a => HasBlank (n (g a)) ↔ HasBlank (n b) ∨ p) :
    HasBlank (n (Step.ofExcept b (x.map g)).state) ↔
      HasBlank (n b) ∨ ((Step.ofExcept b (x.map g)).fault = none ∧ p) := by
  cases x with
  | ok a => simpa [Except.map, Step.ofExcept] using h a rfl
  | error f => simp [Except.map, Step.ofExcept]

theorem hasBlank_ofExcept_same
    (h : Ensures x fun a => HasBlank (n (g a)) ↔ HasBlank (n b)) :
    HasBlank (n (Step.ofExcept b (x.map g)).state) ↔ HasBlank (n b) := by
  have hsame : Ensures x fun a => HasBlank (n (g a)) ↔ HasBlank (n b) ∨ False :=
    h.mono fun a ha => by rw [ha, or_false]
  simpa using hasBlank_ofExcept hsame

end OfExcept

theorem iff_or_false {p q : Prop} (h : p ↔ q) : p ↔ q ∨ False := by rwa [or_false]

theorem SourceEdit.hasBlank_apply (e : SourceEdit) (sources : List Source) :
    Ensures (e.apply sources) fun after =>
      HasBlank (after.map Source.identifier) ↔ HasBlank (sources.map Source.identifier) :=
  e.ensures_source.bind fun s hs => ensures_ok (by simp [hs])

theorem JoinEdit.hasBlank_apply (e : JoinEdit) (joins : List Join) :
    Ensures (e.apply joins) fun after =>
      HasBlank (after.flatMap Join.identifiers) ↔
        HasBlank (joins.flatMap Join.identifiers) ∨ e.OverlooksBlank :=
  e.ensures_identifiers.bind fun j hj => ensures_ok (by simp [hj])

theorem AssignmentEdit.overlooks_iff (d : Dialect) (reading : Phrase → String) (e : AssignmentEdit) :
    (Call.mk (.assignment e) ((e.assignments d reading).fault.map Fault.reported)).Overlooks d.naming ↔
      e.OverlooksBlank d.naming := by
  refine ⟨And.right, fun h => ⟨?_, h⟩⟩
  cases e with
  | entries es =>
    cases es with
    | none => exact h.elim
    | some es =>
      rcases leadingEntries_fault d.naming es with hfault | hfault
      · exact .inl (congrArg (Option.map Fault.reported) hfault)
      · exact .inr (congrArg (Option.map Fault.reported) hfault)
  | _ => exact h.elim

theorem Query.hasBlank_edit (d : Dialect) (q : Query) (e : Edit) :
    HasBlank (Body.select (q.edit d e).state).identifiers ↔
      HasBlank (Body.select q).identifiers ∨
        (Call.mk e ((q.edit d e).fault.map Fault.reported)).Overlooks d.naming := by
  cases e with
  | column e => simp [edit, Body.identifiers, ColumnEdit.hasBlank_apply, Call.Overlooks]
  | source e =>
    refine iff_or_false (hasBlank_ofExcept_same (n := fun q => (Body.select q).identifiers) ?_)
    exact (e.hasBlank_apply q.sources).mono fun sources h => by simp [Body.identifiers, h]
  | join e =>
    have h := hasBlank_ofExcept (b := q) (g := fun j => { q with joins := j })
      (n := fun q => (Body.select q).identifiers) (x := e.apply q.joins) (p := e.OverlooksBlank)
      ((e.hasBlank_apply q.joins).mono fun joins h => by simp [Body.identifiers, h, or_assoc])
    simpa [edit, Call.Overlooks] using h
  | filter e =>
    exact iff_or_false (hasBlank_ofExcept_same (n := fun q => (Body.select q).identifiers)
      ((ensures_any _).mono fun _ _ => Iff.rfl))
  | having e =>
    exact iff_or_false (hasBlank_ofExcept_same (n := fun q => (Body.select q).identifiers)
      ((ensures_any _).mono fun _ _ => Iff.rfl))
  | grouping | ordering | window | union => exact iff_or_false Iff.rfl
  | commonTable | target | bind | set => exact iff_or_false Iff.rfl
  | assignment e => simp [edit, Call.Overlooks, Fault.reported, Fault.subject?]

theorem Insertion.hasBlank_edit (d : Dialect) (i : Insertion) (e : Edit) :
    HasBlank (Body.insert (i.edit d e).state).identifiers ↔
      HasBlank (Body.insert i).identifiers ∨
        (Call.mk e ((i.edit d e).fault.map Fault.reported)).Overlooks d.naming := by
  cases e with
  | assignment e =>
    have hcall := e.overlooks_iff d Phrase.alone
    have hbrought := e.hasBlank_assignments (fun _ => Phrase.Visible.alone) d
    simp [edit, Body.identifiers, hcall, hbrought, or_assoc]
  | bind column value =>
    refine iff_or_false ?_
    simp only [edit]
    have hcolumn := AssignmentEdit.ensures_column (fun _ => Phrase.Visible.alone) column placeholder [value]
    cases ha : AssignmentEdit.assign Phrase.alone column placeholder [value] with
    | ok a => simp [Body.identifiers, bind, Except.bind, pure, Except.pure, Step.ofExcept, hcolumn a ha]
    | error f => rfl
  | join e => simp [edit, Call.Overlooks]
  | _ => exact iff_or_false Iff.rfl

theorem Update.hasBlank_edit (d : Dialect) (u : Update) (e : Edit) :
    HasBlank (Body.update (u.edit d e).state).identifiers ↔
      HasBlank (Body.update u).identifiers ∨
        (Call.mk e ((u.edit d e).fault.map Fault.reported)).Overlooks d.naming := by
  cases e with
  | target table asName =>
    refine iff_or_false (hasBlank_ofExcept_same (n := fun u => (Body.update u).identifiers) ?_)
    exact (targetOf_visible table asName).mono fun t ht => by simp [Body.identifiers, ht]
  | assignment e =>
    have hcall := e.overlooks_iff d Phrase.within
    have hbrought := e.hasBlank_assignments (fun _ => Phrase.Visible.within) d
    have hitems (as : List Assignment) : (as.map SetItem.assignment).flatMap SetItem.identifiers =
        as.map (·.column) := by
      rw [List.flatMap_map, List.map_eq_flatMap]
      rfl
    simp only [edit, Step.map_state, Step.map_fault, Body.identifiers, List.flatMap_append, hitems,
      hasBlank_append, hcall, hbrought]
    tauto
  | set e =>
    refine iff_or_false (hasBlank_ofExcept_same (n := fun u => (Body.update u).identifiers) ?_)
    exact (e.ensures_identifiers d).mono fun items h => by simp [Body.identifiers, h]
  | source e =>
    refine iff_or_false (hasBlank_ofExcept_same (n := fun u => (Body.update u).identifiers) ?_)
    exact (e.hasBlank_apply u.sources).mono fun sources h => by simp [Body.identifiers, h]
  | join e =>
    have h := hasBlank_ofExcept (b := u) (g := fun j => { u with joins := j })
      (n := fun u => (Body.update u).identifiers) (x := e.apply u.joins) (p := e.OverlooksBlank)
      ((e.hasBlank_apply u.joins).mono fun joins h => by simp [Body.identifiers, h, or_assoc])
    simpa [edit, Call.Overlooks] using h
  | filter e =>
    exact iff_or_false (hasBlank_ofExcept_same (n := fun u => (Body.update u).identifiers)
      ((ensures_any _).mono fun _ _ => Iff.rfl))
  | _ => exact iff_or_false Iff.rfl

theorem Deletion.hasBlank_edit (d : Dialect) (x : Deletion) (e : Edit) :
    HasBlank (Body.delete (x.edit d e).state).identifiers ↔
      HasBlank (Body.delete x).identifiers ∨
        (Call.mk e ((x.edit d e).fault.map Fault.reported)).Overlooks d.naming := by
  cases e with
  | target table asName =>
    refine iff_or_false (hasBlank_ofExcept_same (n := fun x => (Body.delete x).identifiers) ?_)
    exact (targetOf_visible table asName).mono fun t ht => by simp [Body.identifiers, ht]
  | filter e =>
    exact iff_or_false (hasBlank_ofExcept_same (n := fun x => (Body.delete x).identifiers)
      ((ensures_any _).mono fun _ _ => Iff.rfl))
  | join e => simp [edit, Call.Overlooks]
  | assignment e => simp [edit, Call.Overlooks, Fault.reported, Fault.subject?]
  | _ => exact iff_or_false Iff.rfl

theorem Body.hasBlank_edit (d : Dialect) (b : Body) (e : Edit) :
    HasBlank (b.edit d e).state.identifiers ↔
      HasBlank b.identifiers ∨
        (Call.mk e ((b.edit d e).fault.map Fault.reported)).Overlooks d.naming := by
  cases b with
  | select q => exact q.hasBlank_edit d e
  | insert i => exact i.hasBlank_edit d e
  | update u => exact u.hasBlank_edit d e
  | delete x => exact x.hasBlank_edit d e

theorem Statement.hasBlank_edit (st : Statement) (e : Edit) :
    HasBlank (st.edit e).state.identifiers ↔
      HasBlank st.identifiers ∨ (Store.callOf st e).Overlooks st.dialect.naming := by
  have hbody := st.body.hasBlank_edit st.dialect e
  cases e with
  | commonTable e =>
    refine iff_or_false (hasBlank_ofExcept_same (n := identifiers) ?_)
    exact (e.ensures_name st.dialect).bind fun t ht => ensures_ok (by simp [identifiers, ht])
  | _ =>
    simp only [edit, Step.map_state, identifiers, hasBlank_append, hbody, or_assoc]
    rfl

theorem Store.hasBlank_statementOf (s : Store) (c : Creation) :
    Ensures (s.statementOf c) fun st => ¬ HasBlank st.identifiers := by
  have hselect (d : Dialect) (e : SourceEdit) : Ensures (do
      let s ← e.source
      return (⟨d, [], .select { Query.empty with sources := [s] }⟩ : Statement))
      fun st => ¬ HasBlank st.identifiers :=
    e.ensures_source.bind fun s hs => ensures_ok (by
      simpa [Statement.identifiers, Body.identifiers, Query.empty, Projection.all] using hs)
  cases c with
  | select d table asName =>
    cases table with
    | null => exact ensures_ok hasBlank_nil
    | _ => exact hselect _ _
  | selectFrom d query asName => exact (ensures_any _).bind fun q _ => hselect _ _
  | insert d table =>
    refine (ensures_requireText _ _).bind fun t ht => ensures_ok ?_
    simpa [Statement.identifiers, Body.identifiers] using ht.alone
  | update d table asName =>
    refine (targetOf_visible _ _).bind fun t ht => ensures_ok ?_
    simpa [Statement.identifiers, Body.identifiers] using ht
  | delete d table asName =>
    refine (targetOf_visible _ _).bind fun t ht => ensures_ok ?_
    simpa [Statement.identifiers, Body.identifiers] using ht

theorem OrderingEdit.subset_apply (e : OrderingEdit) (items : List String) :
    items ⊆ (e.apply items).state := by
  have hadded (x : Except Fault (List String)) (h : Ensures x (items ⊆ ·)) :
      items ⊆ (Step.ofExcept items x).state :=
    Step.ofExcept_keeps (P := (items ⊆ ·)) (List.Subset.refl items) h
  have htext (text : Except Fault String) : items ⊆ (addText items text).state :=
    hadded _ ((ensures_any _).map fun t _ => List.subset_append_left items [t])
  cases e with
  | expressions exprs => exact List.subset_append_left items _
  | columns ascending cs =>
    exact hadded _ ((ensures_any _).bind fun names _ => ensures_ok (List.subset_append_left items _))
  | nulls | position | collate => exact htext _

theorem OrderingEdit.mem_apply_collate {column collation : Value} {ascending : Bool}
    {items : List String} (h : ((collate column collation ascending).apply items).fault = none) :
    ∃ p k : Phrase, collation.phrase? = some k ∧ k.Visible ∧
      p.within ++ " COLLATE " ++ k.within ++ " " ++ direction ascending ∈
        ((collate column collation ascending).apply items).state := by
  simp only [apply, addText] at h ⊢
  cases hk : requireText "collation" collation with
  | error f =>
    rw [hk] at h
    cases h
  | ok k =>
    cases hp : requireText "column" column with
    | error f =>
      rw [hk, hp] at h
      cases h
    | ok p =>
      refine ⟨p, k, requireText_eq_ok hk, ensures_requireText _ _ k hk, ?_⟩
      exact List.mem_append_right items (List.mem_singleton_self _)

def Statement.ShowsCollations (calls : List Call) (st : Statement) : Prop :=
  ∀ q, st.body = .select q → ∀ c ∈ calls, c.fault = none → ∀ column collation ascending,
    c.edit = .ordering (.collate column collation ascending) →
      ∃ p k : Phrase, collation.phrase? = some k ∧ k.Visible ∧
        p.within ++ " COLLATE " ++ k.within ++ " " ++ direction ascending ∈ q.ordering

theorem Statement.ShowsCollations.edit {st : Statement} {calls : List Call}
    (h : st.ShowsCollations calls) (e : Edit) :
    (st.edit e).state.ShowsCollations (calls ++ [Store.callOf st e]) := by
  intro q' hq'
  by_cases he : e.clause = .ordering
  · cases e with
    | ordering e =>
      obtain ⟨d, ts, body⟩ := st
      cases body with
      | select q =>
        cases hq'
        refine List.forall_mem_append.2 ⟨fun c hc hnone column collation ascending hcall => ?_, ?_⟩
        · obtain ⟨p, k, hphrase, hk, hmem⟩ := h q rfl c hc hnone column collation ascending hcall
          exact ⟨p, k, hphrase, hk, e.subset_apply q.ordering hmem⟩
        · refine List.forall_mem_singleton.2 fun hnone column collation ascending hcall => ?_
          cases Edit.ordering.inj hcall
          exact OrderingEdit.mem_apply_collate (Option.map_eq_none_iff.1 hnone)
      | insert | update | delete => cases hq'
    | _ => cases he
  · obtain ⟨q, hq, hagree⟩ := Statement.select_of_edit he hq'
    have hordering : q'.ordering = q.ordering := hagree
    rw [hordering]
    refine List.forall_mem_append.2 ⟨h q hq, ?_⟩
    refine List.forall_mem_singleton.2 fun _ column collation ascending hcall => ?_
    have hedit : e = .ordering (.collate column collation ascending) := hcall
    exact absurd (congrArg Edit.clause hedit) he

namespace Store

/-- A statement has a blank name exactly if one of its calls has overlooked it. Every other name that
shows nothing is refused, for an argument, for a long integer in its place or for a feature that the
dialect has not. -/
theorem run_identifiers (cs : List Command) (id : StatementId) (st : Statement)
    (hst : (run cs).get? id = some st) :
    (HasBlank st.identifiers ↔ ∃ c ∈ empty.calls id cs, c.Overlooks st.dialect.naming) ∧
      st.ShowsCollations (empty.calls id cs) ∧
      (∀ e : Edit, e.fits st.body → (∃ v ∈ e.required, ¬ v.isWritten) →
        ∃ f, (st.edit e).fault = some f ∧ f.Declines st.dialect e.features e.required) ∧
      ∀ c : Creation, (∀ d query asName, c = .selectFrom d query asName → query < (run cs).size) →
        (∃ v ∈ c.required, ¬ v.isWritten) →
          ∃ f, (run cs).statementOf c = .error f ∧ f.argument?.isSome := by
  refine ⟨?_, ?_, fun e => st.declined_edit, fun c => (run cs).declined_statementOf c⟩
  · refine run_recorded_of_created (R := fun calls st =>
      HasBlank st.identifiers ↔ ∃ c ∈ calls, c.Overlooks st.dialect.naming) ?_ ?_ hst
    · intro s c st hst
      simpa using s.hasBlank_statementOf c st hst
    · intro calls st e h
      rw [st.hasBlank_edit e, h, Statement.dialect_edit]
      simp [List.mem_append, or_and_right, exists_or]
  · refine run_recorded (R := fun calls st => st.ShowsCollations calls) (fun st _ => ?_) ?_ hst
    · exact fun q _ c hc => absurd hc List.not_mem_nil
    · exact fun calls st e h => h.edit e

theorem emptied_key_recorded :
    let cs : List Command := [
      .create (.insert none (.text "t")),
      .edit 0 (.assignment (.entries (some [("_ ", .int 1), ("", .int 2)])))]
    ∃ st, (run cs).get? 0 = some st ∧ HasBlank st.identifiers ∧
      ((run cs).sql 0).toOption = some "INSERT INTO t ( ) VALUES (?)" ∧
      ∃ f, (st.edit (.bind (.text " ") (.int 3))).fault = some f ∧
        f.Declines st.dialect [] [.text " "] := by
  intro cs
  have hst : (run cs).get? 0 =
      some ⟨.standard, [], .insert ⟨"t", [⟨" ", .expression placeholder [.int 1]⟩]⟩⟩ := rfl
  obtain ⟨hblank, -, hrefused, -⟩ := run_identifiers cs 0 _ hst
  refine ⟨_, hst, hblank.2 ?_, by decide +kernel, ?_⟩
  · refine ⟨_, List.mem_singleton_self _, .inr rfl, ("_ ", .int 1), List.mem_cons_self, ?_⟩
    exact ⟨[' '], rfl, List.cons_ne_nil _ _, List.forall_mem_singleton.2 rfl⟩
  · exact hrefused (.bind (.text " ") (.int 3)) rfl ⟨.text " ", List.mem_singleton_self _, by decide⟩

/-- A blank column of USING, and keys that snake case and camel case empty. -/
theorem blank_names_recorded :
    let entry (key : String) : Edit := .assignment (.entries (some [(key, .int 1)]))
    let cs : List Command := [
      .create (.select none (.text "s") .null),
      .create (.insert (some ⟨.postgresql, "postgresql", 0, .snake⟩) (.text "t")),
      .create (.update (some ⟨.postgresql, "postgresql", 0, .camel⟩) (.text "t") .null),
      .edit 0 (.join (.columns (.choice .inner) (.text "b") [.text " "] .null)),
      .edit 1 (entry "_ "),
      .edit 2 (entry " _")]
    (∀ id < 3, ∃ st, (run cs).get? id = some st ∧ HasBlank st.identifiers ∧
        ∀ c ∈ empty.calls id cs, c.fault.isNone) ∧
      ((run cs).sql 0).toOption = some "SELECT * FROM s JOIN b USING ( )" ∧
      ((run cs).sql 1).toOption = some "INSERT INTO t ( ) VALUES (?)" ∧
      ((run cs).sql 2).toOption = some "UPDATE t SET   = ?" := by
  intro entry cs
  refine ⟨fun id hid => ?_, by decide +kernel, by decide +kernel, by decide +kernel⟩
  have hcall (c : Call) (hc : c.fault.isNone) : ∀ c' ∈ [c], c'.fault.isNone :=
    List.forall_mem_singleton.2 hc
  match id, hid with
  | 0, _ => exact ⟨_, rfl, ⟨" ", by decide, by decide⟩, hcall _ rfl⟩
  | 1, _ => exact ⟨_, rfl, ⟨" ", by decide, by decide⟩, hcall _ rfl⟩
  | 2, _ => exact ⟨_, rfl, ⟨" ", by decide, by decide⟩, hcall _ rfl⟩

end Store
end SqlComposer
