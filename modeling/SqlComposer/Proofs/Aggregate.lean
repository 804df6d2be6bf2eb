import SqlComposer.Proofs.Checked
import SqlComposer.Proofs.Numeral
import SqlComposer.Proofs.Placeholder.Condition
import SqlComposer.Proofs.Program

/-! Comparisons of aggregates. An operator compares an aggregate with one value or with the members of a
collection, and then binds as many values as it writes placeholders; an operator that takes neither is
refused, and so is one that is given a value without members where it takes several. A text in the place
of the operator is none: the aggregate is taken as a raw text without placeholders, and the text and the
value behind it are both bound. -/

namespace SqlComposer

def Fault.BlamesArgument (f : Fault) : Prop := f.argument?.isSome ∧ f.subject? = none

def Value.collection? : Value → Option (List Value)
  | bytes _ => none
  | v => v.members?

/-- The values that an operator binds behind a column, if it can stand between a column and this value. -/
def Operator.bound? (op : Operator) (value : Value) : Option (List Value) :=
  if op.takesCollection then value.collection? else if op.valueCount = 1 then some [value] else none

namespace HavingEdit

def bound? (op value : Value) : Option (List Value) :=
  match op with
  | .operator op => op.bound? value
  | text => some [text, value]

/-- Why an operator refuses a value: an argument is blamed, or members are asked of what has none. -/
def RefusesOperand (op value : Value) (f : Fault) : Prop :=
  f.BlamesArgument ∨
    (∃ o, op = .operator o ∧ o.takesCollection) ∧ value.LacksMembers ∧ f = .noMembers value.kind

def marked (op : Value) (vs : List Value) : Nat :=
  match op with
  | .operator _ => vs.length
  | _ => 0

/-- What the comparison of an aggregate adds: nothing if there are no values, and otherwise one condition
that all of them are bound to. -/
def Adds (op value : Value) (logic : Named Logic) (new : Conditions) : Prop :=
  ∃ l vs, Logic.resolve logic = .ok l ∧ bound? op value = some vs ∧
    if vs = [] then new = [] else ∃ t, new = [⟨l, .text t vs⟩] ∧ marks t = marked op vs

end HavingEdit

def TestsAll (vs : List Value) (p : Option Predicate) : Prop :=
  if vs = [] then p = none else ∃ t, p = some (.text t vs)

theorem testsAll_text {vs : List Value} (h : vs ≠ []) (t : String) : TestsAll vs (some (.text t vs)) := by
  rw [TestsAll, if_neg h]
  exact ⟨t, rfl⟩

theorem Value.collection?_eq {v : Value} (h : ∀ bs, v = .bytes bs → False) : v.collection? = v.members? := by
  cases v with
  | bytes bs => exact (h bs rfl).elim
  | _ => rfl

theorem decides_requireCollection (op : Operator) (values : Value) :
    Decides (fun f => f.BlamesArgument ∨ values.LacksMembers ∧ f = .noMembers values.kind)
      values.collection? (fun vs ws => vs = ws) (requireCollection op values) := by
  unfold requireCollection
  split
  · exact ⟨_, rfl, .inl ⟨rfl, rfl⟩⟩
  · next hbytes =>
    rw [Value.collection?_eq hbytes]
    refine (decides_requireMembers _ values).causes fun f hf => hf.imp_left ?_
    rintro rfl
    exact ⟨rfl, rfl⟩

theorem decides_membership {column : Value} (hc : column.isWritten) (op : Operator) (values : Value) :
    Decides (fun f => f.BlamesArgument ∨ values.LacksMembers ∧ f = .noMembers values.kind)
      values.collection? TestsAll (membership op column values) := by
  obtain ⟨c, hc⟩ := (checked_requireText "column" column).exists_ok hc
  refine Decides.of_ok hc ?_
  have hvalues := decides_requireCollection op values
  cases hcollection : values.collection? with
  | none =>
    rw [hcollection] at hvalues
    obtain ⟨f, hf, hcause⟩ := hvalues
    rw [hf]
    exact ⟨f, rfl, hcause⟩
  | some vs =>
    rw [hcollection] at hvalues
    obtain ⟨_, hvs, rfl⟩ := hvalues
    rw [hvs]
    rcases vs with _ | ⟨v, _ | ⟨w, vs⟩⟩
    · exact ⟨_, rfl, rfl⟩
    · exact ⟨_, rfl, testsAll_text (List.cons_ne_nil _ _) _⟩
    · exact ⟨_, rfl, testsAll_text (List.cons_ne_nil _ _) _⟩

theorem decides_operator {column : Value} (hc : column.isWritten) (reading : Phrase → String)
    (op : Operator) (value : Value) :
    Decides (HavingEdit.RefusesOperand (.operator op) value) (op.bound? value) TestsAll
      (expandCondition reading column [.operator op, value]) := by
  obtain ⟨c, hcolumn⟩ := (checked_requireText "column" column).exists_ok hc
  simp only [expandCondition, hcolumn]
  by_cases hop : op.takesCollection
  · rw [Operator.bound?, if_pos hop]
    simp only [hop, if_true]
    refine (decides_membership hc op value).causes fun f hf => hf.imp_right fun h => ?_
    exact ⟨⟨op, rfl, hop⟩, h⟩
  · rw [Operator.bound?, if_neg hop]
    simp only [hop, Bool.false_eq_true, if_false]
    by_cases hcount : op.valueCount = 1
    · rw [if_pos hcount]
      exact ⟨_, if_pos hcount.symm, testsAll_text (List.cons_ne_nil _ _) _⟩
    · rw [if_neg hcount]
      exact ⟨_, if_neg (Ne.symm hcount), .inl ⟨rfl, rfl⟩⟩

namespace HavingEdit

def Tests (op : Value) (vs : List Value) (p : Option Predicate) : Prop :=
  if vs = [] then p = none else ∃ t, p = some (.text t vs) ∧ marks t = marked op vs

theorem decides_comparison (cs : Conditions) {a : String} (ha : Value.isWritten (.text a))
    (hmarks : marks a = 0) (op value : Value) :
    Decides (RefusesOperand op value) (bound? op value) (Tests op)
      (expandCondition cs.reading (.text a) [op, value]) := by
  cases op with
  | operator op =>
    have haligned : Ensures (expandCondition cs.reading (.text a) [.operator op, value]) AlignedIfAny :=
      ensures_expandCondition cs.marks_reading (Value.unmarked_text hmarks)
    refine (decides_operator ha cs.reading op value).mono fun vs p hp htests => ?_
    unfold TestsAll at htests
    unfold Tests
    split_ifs at htests ⊢
    · exact htests
    · obtain ⟨t, rfl⟩ := htests
      exact ⟨t, rfl, (alignedParts_cons.1 (haligned _ hp)).1⟩
  | _ =>
    obtain ⟨t, ht⟩ := (checked_requireText "expression" _).exists_ok ha
    cases requireText_eq_ok ht
    refine ⟨some (.text a _), ?_, a, rfl, hmarks⟩
    rw [expandCondition, ht]
    · exact congrArg (fun t => Except.ok (some (Predicate.text t _))) (cs.reading_text a)
    · exact nofun

theorem written_aggregateText {function column : Value} :
    Ensures (aggregateText function column) fun a => Value.isWritten (.text a) := by
  refine (ensures_any _).bind fun f _ => (ensures_any _).bind fun c _ => ensures_ok ?_
  have hopening : Text.isBlankChar '(' = false := by decide
  simp [Value.isWritten, Value.phrase?, Text.isBlank, hopening]

theorem checked_aggregateText (function column : Value) :
    Checked Fault.BlamesArgument (function.isWritten ∧ column.isWritten)
      (aggregateText function column) := by
  have hwritten (argument : String) (v : Value) :
      Checked Fault.BlamesArgument v.isWritten (requireText argument v) :=
    (checked_requireText argument v).mono fun f hf => by rw [hf]; exact ⟨rfl, rfl⟩
  exact (hwritten "func" function).bind fun _ _ =>
    (hwritten "column" column).bind_ok fun _ _ => ⟨_, rfl⟩

variable {function column : Value}

theorem checked_aggregate (hf : function.Unmarked) (hc : column.Unmarked) (op value : Value)
    (logic : Named Logic) (cs : Conditions) :
    Checked (fun f => RefusesOperand op value f ∨ ∃ v, logic = .name v ∧ f = .unknownLogic v)
      ((function.isWritten ∧ column.isWritten) ∧ (Logic.resolve logic).isOk ∧
        (bound? op value).isSome)
      ((aggregate function column op value logic).apply cs) := by
  refine ((checked_aggregateText function column).mono fun f hf => .inl (.inl hf)).bind fun a ha => ?_
  refine ((checked_resolve logic).mono fun f hf => .inr hf).bind fun l _ => ?_
  have hdecides := decides_comparison cs (written_aggregateText a ha)
    (ensures_aggregateText hf hc a ha) op value
  exact (hdecides.checked.mono fun f hf => .inl hf).bind_ok fun p _ => by cases p <;> exact ⟨_, rfl⟩

theorem ensures_aggregate (hf : function.Unmarked) (hc : column.Unmarked) (op value : Value)
    (logic : Named Logic) (cs : Conditions) :
    Ensures ((aggregate function column op value logic).apply cs)
      fun after => ∃ new, after = cs ++ new ∧ Adds op value logic new := by
  intro after h
  obtain ⟨a, ha, h⟩ := bind_eq_ok.1 h
  obtain ⟨l, hl, h⟩ := bind_eq_ok.1 h
  obtain ⟨p, hp, h⟩ := bind_eq_ok.1 h
  obtain ⟨vs, hvs, htests⟩ := (decides_comparison cs (written_aggregateText a ha)
    (ensures_aggregateText hf hc a ha) op value).ensures p hp
  unfold Tests at htests
  split at htests
  · next hnil =>
    subst htests
    cases h
    exact ⟨[], (List.append_nil cs).symm, l, vs, hl, hvs, by rw [if_pos hnil]⟩
  · next hne =>
    obtain ⟨t, rfl, ht⟩ := htests
    cases h
    exact ⟨_, rfl, l, vs, hl, hvs, by rw [if_neg hne]; exact ⟨t, rfl, ht⟩⟩

end HavingEdit

theorem Statement.edit_having {st : Statement} {q : Query} (hquery : st.body = .select q) (e : HavingEdit) :
    st.edit (.having e) = .ofExcept st ((e.apply q.having).map fun cs =>
      { st with body := .select { q with having := cs } }) := by
  obtain ⟨d, ts, body⟩ := st
  cases hquery
  simp only [edit, Body.edit, Query.edit]
  cases e.apply q.having <;> rfl

theorem HavingEdit.blames_reported {op value : Value} {logic : Named Logic} {f : Fault}
    (h : RefusesOperand op value f ∨ ∃ v, logic = .name v ∧ f = .unknownLogic v) :
    f.reported.argument?.isSome ∨
      ((∃ o, op = .operator o ∧ o.takesCollection) ∧ value.LacksMembers ∧
        f.reported = .noMembers value.kind) ∨
      ∃ v, logic = .name v ∧ v.obstacle? = some .longInteger ∧ f.reported = .longInteger := by
  rcases h with (⟨hargument, hsubject⟩ | ⟨hop, hvalue, rfl⟩) | ⟨v, hlogic, rfl⟩
  · rw [Fault.reported_of_subject? hsubject]
    exact .inl hargument
  · exact .inr (.inl ⟨hop, hvalue, rfl⟩)
  · have hblamed : (Fault.unknownLogic v).argument?.isSome := rfl
    exact (Fault.argument?_reported hblamed).imp_right fun ⟨hf, hv⟩ => .inr ⟨v, hlogic, hv, hf⟩

/-- The comparison of an aggregate is made exactly if both names are written, the connective is known and
the operator goes with the value. It adds one condition with all values that are bound, or none for an empty
collection. An operator writes as many placeholders as it binds values, but a value in its place is bound
together with the other one and has no placeholder. Otherwise nothing changes and an argument is blamed, but
for a value without members that an operator takes members of, and for a connective that shows a long
integer. -/
theorem Store.comparison_binds (s : Store) (id : StatementId) (st : Statement) (q : Query)
    (function column op value : Value) (logic : Named Logic) (hst : s.get? id = some st)
    (hquery : st.body = .select q) (hf : function.Unmarked) (hc : column.Unmarked) :
    let step := s.edit id (.having (.aggregate function column op value logic))
    (step.fault = none ↔ (function.isWritten ∧ column.isWritten) ∧ (Logic.resolve logic).isOk ∧
      (HavingEdit.bound? op value).isSome) ∧
    (step.fault = none → ∃ new, HavingEdit.Adds op value logic new ∧ step.state =
      ⟨s.statements.set id { st with body := .select { q with having := q.having ++ new } }⟩) ∧
    ∀ f, step.fault = some f → step.state = s ∧ (f.argument?.isSome ∨
      ((∃ o, op = .operator o ∧ o.takesCollection) ∧ value.LacksMembers ∧ f = .noMembers value.kind) ∨
      ∃ v, logic = .name v ∧ v.obstacle? = some .longInteger ∧ f = .longInteger) := by
  intro step
  have hstep : step = _ := edit_of_ofExcept hst (Statement.edit_having hquery _)
  have hadds := HavingEdit.ensures_aggregate hf hc op value logic q.having
  rcases HavingEdit.checked_aggregate hf hc op value logic q.having with
    ⟨hready, cs, happly⟩ | ⟨hnot, f, happly, hf⟩
  · obtain ⟨new, rfl, hnew⟩ := hadds cs happly
    rw [happly] at hstep
    rw [hstep]
    exact ⟨iff_of_true rfl hready, fun _ => ⟨new, hnew, rfl⟩, nofun⟩
  · rw [happly] at hstep
    rw [hstep]
    refine ⟨iff_of_false nofun hnot, nofun, ?_⟩
    rintro _ ⟨⟩
    exact ⟨rfl, HavingEdit.blames_reported hf⟩

theorem Store.sum_compared_with_members :
    let s : Store := ⟨[⟨.standard, [], .select .empty⟩]⟩
    let members : List Value := [.int 1, .int 2]
    let compare (op : Operator) (value : Value) := s.edit 0
      (.having (.aggregate (.text "SUM") (.text "a") (.operator op) value (.name (.text "or"))))
    (compare .within (.list members)).fault = none ∧
      (∃ t, (compare .within (.list members)).state = ⟨[⟨.standard, [],
        .select { Query.empty with having := [⟨.or, .text t members⟩] }⟩]⟩ ∧ marks t = 2) ∧
      (compare .between (.list members)).state = s ∧
      (compare .between (.list members)).fault = some (.valueCount .between 1) ∧
      (compare .within (.int 5)).state = s ∧ (compare .within (.int 5)).fault = some (.noMembers "int") := by
  intro s members compare
  have hfunction : (Value.text "SUM").Unmarked := Value.unmarked_text (by decide)
  have hcolumn : (Value.text "a").Unmarked := Value.unmarked_text (by decide)
  have h (op : Operator) (value : Value) := Store.comparison_binds s 0 _ _ (.text "SUM") (.text "a")
    (.operator op) value (.name (.text "or")) rfl rfl hfunction hcolumn
  obtain ⟨hwithin, hadded, -⟩ := h .within (.list members)
  have hmade : (compare .within (.list members)).fault = none := hwithin.2 (by decide)
  obtain ⟨new, ⟨l, vs, hl, hvs, hnew⟩, hstate⟩ := hadded hmade
  cases hl
  cases hvs
  obtain ⟨t, rfl, ht⟩ := hnew
  exact ⟨hmade, ⟨t, hstate, ht⟩, ((h .between (.list members)).2.2 _ rfl).1, rfl,
    ((h .within (.int 5)).2.2 _ rfl).1, rfl⟩

theorem Logic.resolve_negative (n : Nat) :
    resolve (.name (.int (.negSucc n))) = .error (.unknownLogic (.int (.negSucc n))) := by
  have hshown : (Value.int (.negSucc n)).plain = "-" ++ toString (n + 1) := rfl
  have hminus (l : Logic) : (l.keyword == Text.upper ("-" ++ toString (n + 1))) = false := by
    have hupper : (Text.upper ("-" ++ toString (n + 1))).toList =
        '-' :: (toString (n + 1)).toList.flatMap Text.upperChar := by
      simp only [Text.upper, String.toList_append, String.toList_ofList, List.flatMap_append]
      rfl
    refine beq_eq_false_iff_ne.2 fun h => ?_
    rw [← h] at hupper
    cases l <;> cases hupper
  simp only [resolve, hshown, ofName?, List.find?_cons, hminus, List.find?_nil]

/-- A text in the place of the operator is bound, and so is the value, but there is no placeholder. A value
without members and a connective that cannot be shown are refused, and no argument is blamed. -/
theorem Store.count_with_text_for_operator :
    let s : Store := ⟨[⟨.standard, [], .select .empty⟩]⟩
    let values : List Value := [.text "GT", .int 5]
    let long : Nat := 10 ^ Text.Numeral.longest
    let count (op : Value) (logic : Named Logic) := s.edit 0
      (.having (.aggregate (.text "COUNT") (.text "*") op (.int 5) logic))
    let step := count (.text "GT") (.choice .and)
    step.fault = none ∧ step.state = ⟨[⟨.standard, [],
      .select { Query.empty with having := [⟨.and, .text "COUNT(*)" values⟩] }⟩]⟩ ∧
      marks "COUNT(*)" = 0 ∧ values.length = 2 ∧
      (count (.operator .within) (.choice .and)).fault = some (.noMembers "int") ∧
      (Fault.noMembers "int").argument? = none ∧
      (count (.operator .gt) (.name (.int (.negSucc long)))).fault = some .longInteger ∧
      Fault.longInteger.argument? = none := by
  intro s values long count step
  have hconnective (n : Nat) : (count (.operator .gt) (.name (.int (.negSucc n)))).fault =
      some (Fault.unknownLogic (.int (.negSucc n))).reported := by
    have hrefused : (HavingEdit.aggregate (.text "COUNT") (.text "*") (.operator .gt) (.int 5)
        (.name (.int (.negSucc n)))).apply Query.empty.having =
          .error (.unknownLogic (.int (.negSucc n))) := by
      rw [HavingEdit.apply, Logic.resolve_negative]
      rfl
    simp only [count]
    rw [edit_of_ofExcept rfl (Statement.edit_having rfl _), hrefused]
    rfl
  have hlong (n : Nat) (hn : 10 ^ Text.Numeral.longest ≤ n + 1) :
      (Fault.unknownLogic (.int (.negSucc n))).reported = .longInteger := by
    have hnot : Text.Numeral.isWritable (n + 1) = false := Text.Numeral.isWritable_eq_false_iff.2 hn
    have hobstacle : (Fault.unknownLogic (.int (.negSucc n))).subject?.bind Value.obstacle? =
        some .longInteger := by
      simp [Fault.subject?, Value.obstacle?, hnot]
    exact Fault.reported_of_obstacle hobstacle
  refine ⟨rfl, rfl, by decide, rfl, rfl, rfl, ?_, rfl⟩
  rw [hconnective, hlong long (Nat.le_succ long)]

end SqlComposer
