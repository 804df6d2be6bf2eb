import SqlComposer.Clause.Having
import SqlComposer.Proofs.Placeholder.Argument

/-! Aligned conditions. A raw condition brings as many values as it has placeholders; every other
condition is written around a column without placeholders, and its operator tells how many values it
binds. -/

namespace SqlComposer

def Conditions.Aligned (cs : Conditions) : Prop := ∀ c ∈ cs, AlignedParts c.predicate.parts

/-- A column and an operator, or a raw text with a placeholder for each value. -/
def ConditionAligned (expr : Value) : List Value → Prop
  | .operator _ :: _ => expr.Unmarked
  | values => expr.Marked values.length

def FilterEdit.Aligned : FilterEdit → Prop
  | condition _ expr values => ConditionAligned expr values
  | compare _ column _ _ | member _ column _ _ | memberOf _ column _ _ | between column _ _
  | isNull _ column _ | pattern _ _ column _ _ | regexp _ column _ _ | anyOf column _ _ =>
    column.Unmarked
  | across _ columns _ _ _ | acrossPattern _ columns _ _ =>
    ∀ vs, columns.members? = some vs → ∀ v ∈ vs, v.Unmarked
  | hasRows .. => True
  | hasRowsText _ query _ => query.Unmarked

def HavingEdit.Aligned : HavingEdit → Prop
  | condition _ expr values => ConditionAligned expr values
  | aggregate function column op _ _ =>
    function.Unmarked ∧ column.Unmarked ∧ ∃ o, op = .operator o

namespace Conditions
variable {cs : Conditions} {p : Predicate}

theorem aligned_clause {keyword : String} (hk : marks keyword = 0) (h : cs.Aligned) :
    AlignedParts (cs.clause keyword) := by
  cases cs with
  | nil => exact alignedParts_nil
  | cons c cs =>
    obtain ⟨hc, hcs⟩ := List.forall_mem_cons.1 h
    have hlater : AlignedParts (cs.flatMap laterParts) := by
      refine alignedParts_flatMap fun x hx => ?_
      have hlogic : marks (" " ++ x.logic.keyword ++ " (") = 0 := by cases x.logic <;> decide
      have hclosing : AlignedParts (if x.predicate.isClosed then [Part.text ")"] else []) := by
        split <;> decide
      exact alignedParts_append.2 ⟨alignedParts_cons.2 ⟨hlogic, hcs x hx⟩, hclosing⟩
    exact alignedParts_append.2 ⟨alignedParts_cons.2 ⟨hk, hc⟩, hlater⟩

theorem Aligned.append (h : cs.Aligned) {l : Logic} (hp : AlignedParts p.parts) :
    Conditions.Aligned (cs ++ [⟨l, p⟩]) :=
  List.forall_mem_append.2 ⟨h, List.forall_mem_singleton.2 hp⟩

theorem Aligned.add (h : cs.Aligned) (logic : Named Logic) (hp : AlignedParts p.parts) :
    Ensures (cs.add logic p) Aligned :=
  (ensures_any _).bind fun _ _ => ensures_ok (h.append hp)

theorem Aligned.addTautology (h : cs.Aligned) (logic : Named Logic) :
    Ensures (cs.addTautology logic) Aligned := by
  refine (ensures_any _).bind fun l _ => ?_
  cases l with
  | or => exact ensures_ok (h.append (by decide))
  | and => exact ensures_ok h

theorem marks_reading (cs : Conditions) (p : Phrase) : marks (cs.reading p) = marks p.alone := by
  cases cs with
  | nil => rfl
  | cons c cs => exact p.marks_within

end Conditions

namespace Predicate

theorem aligned_text {t : String} {vs : List Value} (h : marks t = vs.length) :
    AlignedParts (text t vs).parts :=
  alignedParts_cons.2 ⟨h, alignedParts_nil⟩

theorem aligned_query {before after : String} (hb : marks before = 0) (id : Option StatementId)
    (ha : marks after = 0) : AlignedParts (query before id after).parts :=
  alignedParts_embedded hb id ha

theorem aligned_predicate {op : Operator} (hop : op.takesCollection = false) {column : String}
    (h : marks column = 0) {vs : List Value} (hvs : vs.length = op.valueCount) :
    AlignedParts (text (op.predicate column) vs).parts :=
  aligned_text (by rw [op.marks_predicate h hop, hvs])

end Predicate

def AlignedIfAny : Option Predicate → Prop
  | some p => AlignedParts p.parts
  | none => True

theorem ensures_membership {op : Operator} (hop : op.takesCollection) {column : Value}
    (h : column.Unmarked) (values : Value) : Ensures (membership op column values) AlignedIfAny := by
  refine (h.ensures "column").bind fun c hc => ?_
  have hcolumn : marks c.within = 0 := by rw [c.marks_within, hc]
  refine (ensures_any _).bind fun vs _ => ?_
  split
  · exact ensures_ok trivial
  · refine ensures_ok (Predicate.aligned_predicate ?_ hcolumn ?_) <;>
      split <;> rfl
  · next vs _ _ =>
    refine ensures_ok (Predicate.aligned_text ?_)
    rw [op.marks_predicateOver hcolumn, if_pos hop, marks_placeholders]
    cases op <;> simp_all [Operator.takesCollection, Operator.valueCount, Operator.template]

theorem ensures_expandCondition {reading : Phrase → String}
    (hr : ∀ p, marks (reading p) = marks p.alone) {expr : Value} {values : List Value}
    (h : ConditionAligned expr values) : Ensures (expandCondition reading expr values) AlignedIfAny := by
  unfold expandCondition
  split
  · next op values =>
    refine (Value.Unmarked.ensures h "column").bind fun c hc => ?_
    have hcolumn : marks c.within = 0 := by rw [c.marks_within, hc]
    split
    · next hop =>
      split
      · exact ensures_membership hop h _
      · exact ensures_error _
    · next hop =>
      split
      · next hvs =>
        exact ensures_ok (Predicate.aligned_predicate (Bool.eq_false_iff.2 hop) hcolumn hvs)
      · exact ensures_error _
  · next hvalues =>
    -- The first value is no operator here, so the condition is a raw text.
    have hmarked : expr.Marked values.length := by
      unfold ConditionAligned at h
      split at h
      · exact absurd rfl (hvalues _ _)
      · exact h
    refine (hmarked.ensures "expression").bind fun p hp => ?_
    exact ensures_ok (Predicate.aligned_text (by rw [hr, hp.2]))

theorem Conditions.Aligned.addExpanded {cs : Conditions} (hcs : cs.Aligned) (logic : Logic)
    {expr : Value} {values : List Value} (h : ConditionAligned expr values) :
    Ensures (cs.addExpanded logic expr values) Conditions.Aligned := by
  refine (ensures_expandCondition cs.marks_reading h).bind fun p hp => ?_
  split
  · exact hcs.add _ hp
  · exact ensures_ok hcs

theorem ensures_aggregateText {function column : Value} (hf : function.Unmarked)
    (hc : column.Unmarked) : Ensures (aggregateText function column) fun t => marks t = 0 := by
  refine (hf.ensures "func").bind fun f hf => ?_
  refine (hc.ensures "column").bind fun c hc => ?_
  apply ensures_ok
  have hbrackets : marks "(" = 0 ∧ marks ")" = 0 := by decide
  simp [Phrase.marks_within, hf, hc, hbrackets]

theorem HavingEdit.Aligned.apply {e : HavingEdit} (he : e.Aligned) {cs : Conditions}
    (hcs : cs.Aligned) : Ensures (e.apply cs) Conditions.Aligned := by
  cases e with
  | condition logic expr values => exact hcs.addExpanded logic he
  | aggregate function column op value logic =>
    obtain ⟨hf, hc, o, rfl⟩ := he
    refine (ensures_aggregateText hf hc).bind fun a ha => ?_
    refine (ensures_any _).bind fun l _ => ?_
    refine hcs.addExpanded l ?_
    rintro _ ⟨⟩
    exact ha

namespace FilterEdit
variable {cs : Conditions}

theorem ensures_columnNames {columns : Value}
    (h : ∀ vs, columns.members? = some vs → ∀ v ∈ vs, v.Unmarked) :
    Ensures (columnNames columns) fun names => ∀ n ∈ names, marks n = 0 := by
  refine (ensures_requireMembers _ columns).bind fun vs hvs => ?_
  refine (ensures_mapM fun v hv => (h vs hvs v hv).ensures "column").bind fun names hnames => ?_
  split
  · exact ensures_error _
  · refine ensures_ok (List.forall_mem_map.2 fun p hp => ?_)
    rw [p.marks_within, hnames p hp]

theorem marks_joined {op : Operator} (hop : op.isScalar) (quantifier : Quantifier)
    {names : List String} (h : ∀ n ∈ names, marks n = 0) :
    marks ("(" ++ (" " ++ quantifier.logic.keyword ++ " ").intercalate (names.map op.predicate)
      ++ ")") = names.length * op.valueCount := by
  have hlogic : marks (" " ++ quantifier.logic.keyword ++ " ") = 0 := by
    cases quantifier <;> decide
  have hcollection : op.takesCollection = false := by cases op <;> first | rfl | cases hop
  have hnames : ∀ t ∈ names.map op.predicate, marks t = op.valueCount :=
    List.forall_mem_map.2 fun n hn => op.marks_predicate (h n hn) hcollection
  have hbrackets : marks "(" = 0 ∧ marks ")" = 0 := by decide
  rw [marks_append, marks_append, marks_intercalate hlogic hnames, hbrackets.1, hbrackets.2,
    List.length_map, Nat.zero_add, Nat.add_zero]

theorem ensures_acrossColumns (hcs : cs.Aligned) (quantifier : Quantifier) {columns : Value}
    (h : ∀ vs, columns.members? = some vs → ∀ v ∈ vs, v.Unmarked) (op : Operator) (value : Value)
    (logic : Named Logic) :
    Ensures (acrossColumns cs quantifier columns op value logic) Conditions.Aligned := by
  refine (ensures_columnNames h).bind fun names hnames => ?_
  -- Only operators that take at most one value each are written once for every column.
  by_cases hscalar : op.isScalar
  · simp only [hscalar, Bool.not_true, Bool.false_eq_true, if_false]
    split
    · refine hcs.add _ (Predicate.aligned_text ?_)
      rw [marks_joined rfl quantifier hnames]
      rfl
    · refine hcs.add _ (Predicate.aligned_text ?_)
      rw [marks_joined rfl quantifier hnames]
      rfl
    · split
      · next hvalue =>
        have hcount : op.valueCount = 1 := by
          revert hscalar hvalue
          cases op <;> decide
        split
        · exact hcs.addTautology _
        · refine hcs.add _ (Predicate.aligned_text ?_)
          rw [marks_joined hscalar quantifier hnames, hcount, Nat.mul_one, List.length_replicate]
      · next hvalue =>
        have hcount : op.valueCount = 0 := by simpa [Operator.hasValue] using hvalue
        refine hcs.add _ (Predicate.aligned_text ?_)
        rw [marks_joined hscalar quantifier hnames, hcount]
        rfl
  · simp only [hscalar, Bool.not_false, if_true]
    exact ensures_error _

theorem aligned_addBound (hcs : cs.Aligned) {op : Operator} (hop : op.takesCollection = false)
    (hcount : op.valueCount = 1) {column : String} (h : marks column = 0) (v : Value) :
    Conditions.Aligned (addBound cs op column v) := by
  unfold addBound
  split
  · exact hcs
  · exact hcs.append (Predicate.aligned_predicate hop h hcount.symm)

theorem Aligned.apply (d : Dialect) {e : FilterEdit} (he : e.Aligned) (hcs : cs.Aligned) :
    Ensures (e.apply d cs) Conditions.Aligned := by
  have hcolumn {column : Value} (h : column.Unmarked) :
      Ensures (requireText "column" column) fun c => marks c.within = 0 :=
    (h.ensures "column").mono fun c hc => by rw [c.marks_within, hc]
  cases e with
  | condition logic expr values => exact hcs.addExpanded logic he
  | compare op column value logic =>
    refine (hcolumn he).bind fun c hc => hcs.add _ (Predicate.aligned_predicate ?_ hc ?_)
    · cases op <;> rfl
    · cases op <;> rfl
  | member negated column values logic =>
    have hop : (if negated then Operator.notWithin else .within).takesCollection := by
      cases negated <;> rfl
    refine (ensures_membership hop he values).bind fun p hp => ?_
    split
    · exact hcs.add _ hp
    · exact ensures_ok hcs
  | memberOf negated column query logic =>
    refine (hcolumn he).bind fun c hc => hcs.add _ (Predicate.aligned_query ?_ query (by decide))
    rw [marks_append, hc]
    cases negated <;> decide
  | between column first last =>
    refine (hcolumn he).bind fun c hc => ensures_ok ?_
    exact aligned_addBound (aligned_addBound hcs rfl rfl hc _) rfl rfl hc _
  | isNull negated column logic =>
    refine (hcolumn he).bind fun c hc => hcs.add _ (Predicate.aligned_predicate ?_ hc ?_)
    · cases negated <;> rfl
    · cases negated <;> rfl
  | pattern negated shape column value logic =>
    refine (hcolumn he).bind fun c hc => ?_
    split
    · exact hcs.addTautology _
    · refine (ensures_any _).bind fun s _ => hcs.add _ (Predicate.aligned_predicate ?_ hc ?_)
      · cases negated <;> rfl
      · cases negated <;> rfl
  | regexp negated column expr logic =>
    refine (hcolumn he).bind fun c hc => ?_
    have htext : Ensures (d.regexp negated c.within) fun t => marks t = 1 :=
      fun t ht => Dialect.marks_regexp hc ht
    refine htext.bind fun t ht => ?_
    split
    · exact hcs.addTautology _
    · exact hcs.add _ (Predicate.aligned_text ht)
  | across quantifier columns op value logic => exact ensures_acrossColumns hcs _ he _ _ _
  | acrossPattern shape columns value logic =>
    rw [FilterEdit.apply]
    split
    · exact hcs.addTautology _
    · exact (ensures_any _).bind fun s _ => ensures_acrossColumns hcs _ he _ _ _
  | anyOf column query logic =>
    refine (hcolumn he).bind fun c hc => hcs.add _ (Predicate.aligned_query ?_ query (by decide))
    rw [marks_append, hc]
    decide
  | hasRows negated query logic =>
    refine hcs.add _ (Predicate.aligned_query ?_ query (by decide))
    cases negated <;> decide
  | hasRowsText negated query logic =>
    refine (Value.Unmarked.ensures he "subquery").bind fun q hq => ?_
    refine hcs.add _ (Predicate.aligned_text ?_)
    rw [marks_append, Operator.marks_predicate _ (by rw [q.marks_within, hq]) rfl]
    cases negated <;> decide

end FilterEdit
end SqlComposer
