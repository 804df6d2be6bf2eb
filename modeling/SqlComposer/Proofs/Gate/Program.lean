import SqlComposer.Proofs.Gate.Edit
import SqlComposer.Proofs.History
import SqlComposer.Proofs.Independence

/-! Gated edits of statements and of programs. Whatever a program has recorded in a statement is something
that the statement's own dialect has, and GROUP BY ALL stands alone: where it is, no group was ever
taken in, and where a group is, it stays out. -/

namespace SqlComposer

namespace Statement
variable {st : Statement} {e : Edit}

theorem gated_edit (st : Statement) (h : e.Ready) (hfits : e.fits st.body)
    (hall : e ≠ .grouping .all) : (st.edit e).Gated st.dialect e.features st := by
  obtain ⟨d, ts, body⟩ := st
  cases e with
  | commonTable e => exact (e.gated_apply d h ts).step _ _
  | filter e =>
    cases e with
    | regexp negated column expr logic =>
      cases body with
      | select q =>
        have hq := (FilterEdit.gated_apply d h q.conditions).step q fun c => { q with conditions := c }
        exact (hq.map Body.select).map _
      | update u =>
        have hu := (FilterEdit.gated_apply d h u.conditions).step u fun c => { u with conditions := c }
        exact (hu.map Body.update).map _
      | delete x =>
        have hx := (FilterEdit.gated_apply d h x.conditions).step x fun c => { x with conditions := c }
        exact (hx.map Body.delete).map _
      | insert i => cases hfits
    | _ => exact absurd h id
  | grouping e =>
    cases e with
    | all => exact absurd rfl hall
    | groups exprs => exact absurd h id
  | assignment e =>
    cases body with
    | insert i =>
      have hi := (AssignmentEdit.gated_assignments d Phrase.alone h).map fun as =>
        { i with assignments := i.assignments ++ as }
      rw [List.append_nil] at hi
      exact (hi.map Body.insert).map _
    | update u =>
      have hu := (AssignmentEdit.gated_assignments d Phrase.within h).map fun as =>
        { u with items := u.items ++ as.map SetItem.assignment }
      rw [List.map_nil, List.append_nil] at hu
      exact (hu.map Body.update).map _
    | select | delete => cases hfits
  | set e =>
    cases body with
    | update u =>
      have hu := (SetEdit.gated_items d h).step u fun is => { u with items := u.items ++ is }
      exact (hu.map Body.update).map _
    | select | insert | delete => cases hfits
  | _ => exact absurd h id

theorem supports_of_edit (h : (st.edit e).fault = none) : ∀ f ∈ e.features, st.dialect.Supports f := by
  obtain ⟨d, ts, body⟩ := st
  cases e with
  | commonTable e =>
    obtain ⟨_, h⟩ := Step.exists_of_ofExcept h
    obtain ⟨ts', hts, -⟩ := map_eq_ok.1 h
    exact e.ensures_apply d ts ts' hts
  | filter e =>
    cases e with
    | regexp negated column expr logic =>
      have hregexp {σ : Type} {before : σ} {cs : Conditions} {g : Conditions → σ}
          (h : (Step.ofExcept before
            (((FilterEdit.regexp negated column expr logic).apply d cs).map g)).fault = none) :
          ∀ f ∈ [.regexp], d.Supports f := by
        obtain ⟨_, h⟩ := Step.exists_of_ofExcept h
        obtain ⟨cs', hcs, -⟩ := map_eq_ok.1 h
        exact FilterEdit.ensures_regexp d _ cs' hcs
      cases body with
      | select q =>
        have hq : (q.edit d (.filter (.regexp negated column expr logic))).fault = none := h
        exact hregexp hq
      | update u =>
        have hu : (u.edit d (.filter (.regexp negated column expr logic))).fault = none := h
        exact hregexp hu
      | delete x =>
        have hx : (x.edit d (.filter (.regexp negated column expr logic))).fault = none := h
        exact hregexp hx
      | insert i => cases h
    | _ => exact fun f hf => absurd hf List.not_mem_nil
  | grouping e =>
    cases e with
    | groups exprs => exact fun f hf => absurd hf List.not_mem_nil
    | all =>
      refine List.forall_mem_singleton.2 (d.supportsGroupByAll_iff.1 ?_)
      cases body with
      | select q =>
        by_contra hmissing
        have hrefused : (GroupingEdit.all.apply d q.grouping).fault = none := h
        rw [Bool.not_eq_true] at hmissing
        simp [GroupingEdit.apply, hmissing] at hrefused
      | insert | update | delete => cases h
  | assignment e =>
    cases body with
    | insert i => exact e.supports_of_assignments d Phrase.alone h
    | update u => exact e.supports_of_assignments d Phrase.within h
    | select | delete => cases h
  | set e =>
    cases body with
    | update u =>
      have hu : (u.edit d (.set e)).fault = none := h
      obtain ⟨_, hu⟩ := Step.exists_of_ofExcept hu
      obtain ⟨items, hitems, -⟩ := map_eq_ok.1 hu
      exact e.supports_of_items d hitems
    | select | insert | delete => cases h
  | _ => exact fun f hf => absurd hf List.not_mem_nil

def HintsSupported (st : Statement) : Prop :=
  ∀ t ∈ st.commonTables, ∀ f ∈ t.hint.features, st.dialect.Supports f

theorem HintsSupported.edit (h : st.HintsSupported) (e : Edit) :
    (st.edit e).state.HintsSupported := by
  by_cases he : e.clause = .commonTables
  · cases e with
    | commonTable e =>
      refine Step.ofExcept_keeps (P := HintsSupported) h ?_
      refine Ensures.map (P := fun ts : List CommonTable =>
        ∀ t ∈ ts, ∀ f ∈ t.hint.features, st.dialect.Supports f) ?_ fun ts hts => hts
      refine Ensures.bind (P := fun t : CommonTable => ∀ f ∈ t.hint.features, st.dialect.Supports f) ?_
        fun t ht => ensures_ok (List.forall_mem_append.2 ⟨h, List.forall_mem_singleton.2 ht⟩)
      refine (ensures_any _).bind fun name _ => (ensures_any _).bind fun hint _ => ?_
      exact (CommonTableEdit.gated_checkHint st.dialect hint).ensures.bind fun _ hf => ensures_ok hf
    | _ => cases he
  · obtain ⟨hdialect, htables, -⟩ := st.edit_frame he
    unfold HintsSupported
    rw [hdialect, htables rfl]
    exact h

end Statement

/-- The groups that a call has brought in, whether or not a later group of the call was refused. -/
def Call.groups (c : Call) : List String :=
  match c.edit, c.fault with
  | .grouping (.groups _), some .groupAllWithGroups => []
  | .grouping (.groups exprs), _ => (leadingTexts "expr" exprs).state
  | _, _ => []

def Call.groupsAll (c : Call) : Prop := c.edit = .grouping .all ∧ c.fault = none

/-- The clause shows every group that was brought in, or it is GROUP BY ALL and there is none. -/
def Grouping.Follows (calls : List Call) (g : Grouping) : Prop :=
  (g = .groups (calls.flatMap Call.groups) ∧ ∀ c ∈ calls, ¬ c.groupsAll) ∨
    (g = .all ∧ calls.flatMap Call.groups = [] ∧ ∃ c ∈ calls, c.groupsAll)

theorem leadingTexts_fault (argument : String) (vs : List Value) :
    (leadingTexts argument vs).fault = none ∨
      (leadingTexts argument vs).fault = some (.blankText argument) := by
  induction vs with
  | nil => exact .inl rfl
  | cons v vs ih =>
    rw [leadingTexts]
    cases hv : requireText argument v with
    | ok p => exact ih
    | error f =>
      unfold requireText at hv
      split at hv
      · split at hv
        · cases hv
          exact .inr rfl
        · cases hv
      · cases hv
        exact .inr rfl

theorem Grouping.Follows.concat {calls : List Call} {g : Grouping} (h : g.Follows calls) {c : Call}
    (hgroups : c.groups = []) (hall : ¬ c.groupsAll) : g.Follows (calls ++ [c]) := by
  have hsame : (calls ++ [c]).flatMap Call.groups = calls.flatMap Call.groups := by
    rw [List.flatMap_append, List.flatMap_singleton, hgroups, List.append_nil]
  rcases h with ⟨hg, hnone⟩ | ⟨hg, hempty, c', hc', hmade⟩
  · rw [← hsame] at hg
    exact .inl ⟨hg, List.forall_mem_append.2 ⟨hnone, List.forall_mem_singleton.2 hall⟩⟩
  · exact .inr ⟨hg, hsame.trans hempty, c', List.mem_append_left _ hc', hmade⟩

theorem GroupingEdit.follows_apply (d : Dialect) (e : GroupingEdit) {calls : List Call} {g : Grouping}
    (h : g.Follows calls) :
    (e.apply d g).state.Follows
      (calls ++ [⟨.grouping e, (e.apply d g).fault.map Fault.reported⟩]) := by
  cases e with
  | all =>
    simp only [apply]
    split
    · exact h.concat rfl fun h => nomatch h.2
    · split
      · rcases h with ⟨hg, -⟩ | ⟨hg, -⟩
        · have hempty : calls.flatMap Call.groups = [] := (Grouping.groups.inj hg).symm
          refine .inr ⟨rfl, ?_, _, List.mem_append_right _ List.mem_cons_self, rfl, rfl⟩
          rw [List.flatMap_append, hempty]
          rfl
        · cases hg
      · exact h.concat rfl fun h => nomatch h.2
  | groups exprs =>
    rcases h with ⟨rfl, hnone⟩ | ⟨rfl, hempty, hmade⟩
    · refine .inl ⟨?_, ?_⟩
      · have hgroups : (Call.mk (.grouping (.groups exprs))
            ((leadingTexts "expr" exprs).fault.map Fault.reported)).groups =
              (leadingTexts "expr" exprs).state := by
          rcases leadingTexts_fault "expr" exprs with h | h <;> rw [h] <;> rfl
        rw [List.flatMap_append, List.flatMap_singleton]
        exact congrArg (Grouping.groups <| calls.flatMap Call.groups ++ ·) hgroups.symm
      · refine List.forall_mem_append.2 ⟨hnone, List.forall_mem_singleton.2 fun h => nomatch h.1⟩
    · exact Grouping.Follows.concat (.inr ⟨rfl, hempty, hmade⟩) rfl fun h => nomatch h.1

namespace Statement
variable {st : Statement} {e : Edit} {q : Query} {calls : List Call}

theorem edit_grouping (hq : st.body = .select q) (e : GroupingEdit) :
    st.edit (.grouping e) =
      (e.apply st.dialect q.grouping).map fun g => { st with body := .select { q with grouping := g } } := by
  obtain ⟨d, ts, body⟩ := st
  cases hq
  rfl

def GroupingFollows (calls : List Call) (st : Statement) : Prop :=
  ∀ q, st.body = .select q → q.grouping.Follows calls

theorem GroupingFollows.edit (h : st.GroupingFollows calls) (e : Edit) :
    (st.edit e).state.GroupingFollows (calls ++ [Store.callOf st e]) := by
  intro q' hq'
  by_cases he : e.clause = .grouping
  · cases e with
    | grouping e =>
      obtain ⟨d, ts, body⟩ := st
      cases body with
      | select q =>
        have hedit : Statement.edit ⟨d, ts, .select q⟩ (.grouping e) = _ := edit_grouping rfl e
        rw [hedit] at hq'
        cases hq'
        rw [Store.callOf, hedit]
        exact e.follows_apply d (h q rfl)
      | insert | update | delete => cases hq'
    | _ => cases he
  · obtain ⟨q, hq, hagree⟩ := select_of_edit he hq'
    have hgrouping : q'.grouping = q.grouping := hagree
    have hcall : (Store.callOf st e).groups = [] ∧ ¬ (Store.callOf st e).groupsAll := by
      cases e with
      | grouping e => exact absurd rfl he
      | _ => exact ⟨rfl, fun h => nomatch h.1⟩
    rw [hgrouping]
    exact (h q hq).concat hcall.1 hcall.2

structure Supported (calls : List Call) (st : Statement) : Prop where
  hints : st.HintsSupported
  edits : ∀ c ∈ calls, c.fault = none → ∀ f ∈ c.edit.features, st.dialect.Supports f
  grouping : st.GroupingFollows calls

theorem Supported.edit (h : st.Supported calls) (e : Edit) :
    (st.edit e).state.Supported (calls ++ [Store.callOf st e]) := by
  refine ⟨h.hints.edit e, ?_, h.grouping.edit e⟩
  rw [dialect_edit]
  refine List.forall_mem_append.2 ⟨h.edits, List.forall_mem_singleton.2 fun hnone => ?_⟩
  exact supports_of_edit (Option.map_eq_none_iff.1 hnone)

theorem edit_grouping_refused (hq : st.body = .select q) {e : GroupingEdit} {f : Fault}
    (h : e.apply st.dialect q.grouping = .refused q.grouping f) :
    st.edit (.grouping e) = .refused st f := by
  obtain ⟨d, ts, body⟩ := st
  cases hq
  rw [edit_grouping rfl, h]
  rfl

theorem edit_groupAll (hq : st.body = .select q) :
    (¬ st.dialect.Supports .groupByAll →
      st.edit (.grouping .all) = .refused st (Feature.groupByAll.refusal st.dialect)) ∧
    (st.dialect.Supports .groupByAll → q.grouping ≠ .groups [] →
      st.edit (.grouping .all) = .refused st .groupAllWithGroups) ∧
    (st.dialect.Supports .groupByAll → q.grouping = .groups [] →
      (st.edit (.grouping .all)).fault = none) := by
  rw [← st.dialect.supportsGroupByAll_iff]
  refine ⟨fun h => edit_grouping_refused hq ?_, fun h hne => edit_grouping_refused hq ?_, fun h he => ?_⟩
  · rw [Bool.not_eq_true] at h
    simp [GroupingEdit.apply, h]
    rfl
  · simp only [GroupingEdit.apply, h]
    cases hg : q.grouping with
    | all => rfl
    | groups exprs =>
      cases exprs with
      | nil => exact absurd hg hne
      | cons e es => rfl
  · rw [edit_grouping hq, he]
    simp [GroupingEdit.apply, h]

theorem edit_groups_of_all (hq : st.body = .select q) (hall : q.grouping = .all) (exprs : List Value) :
    st.edit (.grouping (.groups exprs)) = .refused st .groupAllWithGroups := by
  refine edit_grouping_refused hq ?_
  rw [hall]
  rfl

theorem Supported.groupByAll (h : st.Supported calls) (hq : st.body = .select q)
    (hall : q.grouping = .all) : st.dialect.Supports .groupByAll := by
  rcases h.grouping q hq with ⟨hg, -⟩ | ⟨-, -, c, hc, hedit, hmade⟩
  · rw [hall] at hg
    cases hg
  · refine h.edits c hc hmade .groupByAll ?_
    rw [hedit]
    exact List.mem_singleton_self _

/-- The answers to gated edits whose arguments are in order. The edit for GROUP BY ALL also needs a query
without a GROUP BY. -/
structure AnswersGated (st : Statement) : Prop where
  made : ∀ e : Edit, e.Ready → e.fits st.body →
    ((st.edit e).fault = none ↔ (∀ f ∈ e.features, st.dialect.Supports f) ∧
      (e = .grouping .all → ∀ q, st.body = .select q → q.grouping = .groups []))
  refused : ∀ e : Edit, e.Ready → e.fits st.body → ¬ (∀ f ∈ e.features, st.dialect.Supports f) →
    ∃ f ∈ e.features, ¬ st.dialect.Supports f ∧ st.edit e = .refused st (f.refusal st.dialect)
  allBehindGroups : ∀ q, st.body = .select q → q.grouping ≠ .groups [] →
    st.dialect.Supports .groupByAll → st.edit (.grouping .all) = .refused st .groupAllWithGroups
  groupsBehindAll : ∀ q, st.body = .select q → q.grouping = .all → ∀ exprs,
    st.edit (.grouping (.groups exprs)) = .refused st .groupAllWithGroups

theorem answersGated (st : Statement) : st.AnswersGated := by
  have hquery (hfits : (Edit.grouping .all).fits st.body) : ∃ q, st.body = .select q := by
    cases hb : st.body with
    | select q => exact ⟨q, rfl⟩
    | insert | update | delete =>
      rw [hb] at hfits
      cases hfits
  have hfeatures : (∀ f ∈ (Edit.grouping .all).features, st.dialect.Supports f) ↔
      st.dialect.Supports .groupByAll := List.forall_mem_singleton
  refine ⟨fun e he hfits => ?_, fun e he hfits hmissing => ?_, fun q hq hne h => ?_,
    fun q hq hall => edit_groups_of_all hq hall⟩
  · by_cases hall : e = .grouping .all
    · subst hall
      obtain ⟨q, hq⟩ := hquery hfits
      obtain ⟨hlacks, hbehind, hmade⟩ := edit_groupAll hq
      rw [hfeatures]
      by_cases h : st.dialect.Supports .groupByAll
      · by_cases hg : q.grouping = .groups []
        · simp [hmade h hg, h, hq, hg]
        · simp [hbehind h hg, hq, hg]
      · simp [hlacks h, h]
    · rcases st.gated_edit he hfits hall with ⟨hfs, hmade⟩ | ⟨f, hf, hmissing, hrefused⟩
      · simp only [hmade, true_iff]
        exact ⟨hfs, fun h => absurd h hall⟩
      · have hnot : ¬ ∀ f ∈ e.features, st.dialect.Supports f := fun h => hmissing (h f hf)
        simp [hrefused, hnot]
  · by_cases hall : e = .grouping .all
    · subst hall
      obtain ⟨q, hq⟩ := hquery hfits
      have hlacks := mt hfeatures.2 hmissing
      exact ⟨_, List.mem_singleton_self _, hlacks, (edit_groupAll hq).1 hlacks⟩
    · rcases st.gated_edit he hfits hall with ⟨hfs, -⟩ | hrefused
      · exact absurd hfs hmissing
      · exact hrefused
  · exact (edit_groupAll hq).2.1 h hne

end Statement

namespace Store

theorem run_supported {cs : List Command} {id : StatementId} {st : Statement}
    (hst : (run cs).get? id = some st) : st.Supported (empty.calls id cs) := by
  refine run_recorded (R := Statement.Supported) (fun st h => ?_) (fun calls st e h => h.edit e) hst
  cases h with
  | select d sources =>
    refine ⟨fun t ht => absurd ht List.not_mem_nil, fun c hc => absurd hc List.not_mem_nil, ?_⟩
    rintro q ⟨⟩
    exact .inl ⟨rfl, fun c hc => absurd hc List.not_mem_nil⟩
  | insert | update | delete =>
    exact ⟨fun t ht => absurd ht List.not_mem_nil, fun c hc => absurd hc List.not_mem_nil, nofun⟩

/-- Nothing that a dialect lacks slips into a statement, and GROUP BY ALL hides no group; what the dialect
has is let in, and what it lacks is refused with the name of the dialect and of the feature. -/
theorem run_gated (cs : List Command) (id : StatementId) (st : Statement)
    (hst : (run cs).get? id = some st) :
    st.Supported (empty.calls id cs) ∧
      (∀ q, st.body = .select q → q.grouping = .all → st.dialect.Supports .groupByAll) ∧
      st.AnswersGated := by
  have hsupported := run_supported hst
  exact ⟨hsupported, fun q hq hall => hsupported.groupByAll hq hall, st.answersGated⟩

theorem groupAll_behind_half_made_groups :
    let d : Dialect := ⟨.postgresql, "postgresql", 17, .snake⟩
    let cs : List Command := [
      .create (.select (some d) (.text "t") .null),
      .create (.select none (.text "v") .null),
      .edit 0 (.grouping (.groups [.text "a", .text " "])),
      .edit 0 (.commonTable ⟨.text "w", some 1, .text "MATERIALIZED", false⟩),
      .edit 0 (.grouping .all)]
    ∃ st, (run cs).get? 0 = some st ∧ st.Supported (empty.calls 0 cs) ∧ st.AnswersGated ∧
      ∃ q, st.body = .select q ∧ (empty.calls 0 cs).flatMap Call.groups = ["a"] ∧
        st.edit (.grouping .all) = .refused st .groupAllWithGroups := by
  intro d cs
  have hst : (run cs).get? 0 = some ⟨d, [⟨"w", .materialized, some 1, false⟩],
      .select { Query.empty with sources := [.table "t" none], grouping := .groups ["a"] }⟩ := rfl
  obtain ⟨hsupported, -, hanswers⟩ := run_gated cs 0 _ hst
  exact ⟨_, hst, hsupported, hanswers, _, rfl, rfl,
    hanswers.allBehindGroups _ rfl (by simp) ⟨rfl, Nat.le_refl _⟩⟩

/-- GROUP BY ALL is refused where it is already there, though the dialect has it and there is no
group. -/
theorem groupAll_refused_twice :
    let d : Dialect := ⟨.postgresql, "postgresql", 17, .snake⟩
    let cs : List Command := [
      .create (.select (some d) (.text "t") .null),
      .edit 0 (.grouping .all)]
    (run cs).get? 0 = some ⟨d, [],
        .select { Query.empty with sources := [.table "t" none], grouping := .all }⟩ ∧
      d.Supports .groupByAll ∧
      ((run cs).edit 0 (.grouping .all)).fault = some .groupAllWithGroups :=
  ⟨rfl, ⟨rfl, Nat.le_refl _⟩, rfl⟩

end Store
end SqlComposer
