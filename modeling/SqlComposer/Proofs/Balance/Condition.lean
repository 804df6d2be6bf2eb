import SqlComposer.Clause.Having
import SqlComposer.Proofs.Balance.Argument
import SqlComposer.Proofs.Balance.Part

/-! Balanced conditions. A condition is written around a balanced column, or around a statement that is
given, and the parentheses that the list puts around a later condition close each other. -/

namespace SqlComposer

def Predicate.Balanced : Predicate → Prop
  | text t _ => shape t = 1
  | query before (some _) after => shape before * shape after = 1
  | query _ none _ => False

instance : (p : Predicate) → Decidable p.Balanced
  | .text t _ => inferInstanceAs (Decidable (shape t = 1))
  | .query before (some _) after => inferInstanceAs (Decidable (shape before * shape after = 1))
  | .query _ none _ => inferInstanceAs (Decidable False)

def Conditions.Balanced (cs : Conditions) : Prop := ∀ c ∈ cs, c.predicate.Balanced

instance (cs : Conditions) : Decidable cs.Balanced :=
  inferInstanceAs (Decidable (∀ c ∈ cs, c.predicate.Balanced))

def FilterEdit.Balanced : FilterEdit → Prop
  | condition _ expr _ => expr.Balanced
  | compare _ column _ _ | member _ column _ _ | between column _ _ | isNull _ column _
  | pattern _ _ column _ _ | regexp _ column _ _ => column.Balanced
  | memberOf _ column query _ | anyOf column query _ => column.Balanced ∧ query.isSome
  | across _ columns _ _ _ | acrossPattern _ columns _ _ =>
    ∀ vs, columns.members? = some vs → ∀ v ∈ vs, v.Balanced
  | hasRows .. => True
  | hasRowsText _ query _ => query.Balanced

def HavingEdit.Balanced : HavingEdit → Prop
  | condition _ expr _ => expr.Balanced
  | aggregate function column _ _ _ => function.Balanced ∧ column.Balanced

namespace Predicate
variable {p : Predicate}

theorem Balanced.parts (h : p.Balanced) : BalancedParts p.parts := by
  cases p with
  | text t values => exact balancedParts_bound h values
  | query before id after =>
    cases id with
    | none => exact h.elim
    | some id => exact balancedParts_embedded h Option.isSome_some

theorem Balanced.isClosed (h : p.Balanced) : p.isClosed := by
  cases p with
  | text t values => rfl
  | query before id after =>
    cases id with
    | none => exact h.elim
    | some id => rfl

theorem balanced_query {before after : String} (h : shape before * shape after = 1)
    {id : Option StatementId} (hid : id.isSome) : (query before id after).Balanced := by
  obtain ⟨id, rfl⟩ := Option.isSome_iff_exists.1 hid
  exact h

end Predicate

namespace Conditions
variable {cs : Conditions} {p : Predicate}

theorem Balanced.laterParts {c : Condition} (h : c.predicate.Balanced) :
    BalancedParts (laterParts c) := by
  have hlogic : shape (" " ++ c.logic.keyword ++ " (") * shape ")" = 1 := by cases c.logic <;> decide
  rw [Conditions.laterParts, if_pos h.isClosed, BalancedParts, List.cons_append, partsShape_text,
    partsShape_append, h.parts, one_mul, partsShape_text, partsShape_nil, mul_one]
  exact hlogic

theorem Balanced.clause {keyword : String} (hk : shape keyword = 1) (h : cs.Balanced) :
    BalancedParts (cs.clause keyword) := by
  cases cs with
  | nil => exact balancedParts_nil
  | cons c cs =>
    obtain ⟨hc, hcs⟩ := List.forall_mem_cons.1 h
    refine (hc.parts.text_cons hk).append (balancedParts_flatMap fun x hx => ?_)
    exact Balanced.laterParts (hcs x hx)

theorem Balanced.append (h : cs.Balanced) {l : Logic} (hp : p.Balanced) :
    Conditions.Balanced (cs ++ [⟨l, p⟩]) :=
  List.forall_mem_append.2 ⟨h, List.forall_mem_singleton.2 hp⟩

theorem Balanced.add (h : cs.Balanced) (logic : Named Logic) (hp : p.Balanced) :
    Ensures (cs.add logic p) Balanced :=
  (ensures_any _).bind fun _ _ => ensures_ok (h.append hp)

theorem Balanced.addTautology (h : cs.Balanced) (logic : Named Logic) :
    Ensures (cs.addTautology logic) Balanced := by
  refine (ensures_any _).bind fun l _ => ?_
  cases l with
  | or => exact ensures_ok (h.append (by decide))
  | and => exact ensures_ok h

theorem shape_reading (cs : Conditions) (p : Phrase) : shape (cs.reading p) = shape p.alone := by
  cases cs with
  | nil => rfl
  | cons c cs => exact p.shape_within

end Conditions

def BalancedIfAny : Option Predicate → Prop
  | some p => p.Balanced
  | none => True

theorem Value.Balanced.column {v : Value} (h : v.Balanced) :
    Ensures (requireText "column" v) fun c => shape c.within = 1 :=
  (h.require "column").mono fun c hc => c.shape_within.trans hc

theorem balanced_membership (op : Operator) {column : Value} (h : column.Balanced) (values : Value) :
    Ensures (membership op column values) BalancedIfAny := by
  refine h.column.bind fun c hc => ?_
  refine (ensures_any _).bind fun vs _ => ?_
  split
  · exact ensures_ok trivial
  · exact ensures_ok (Operator.shape_predicate _ hc)
  · exact ensures_ok (op.shape_predicateOver hc (shape_placeholders _))

theorem balanced_expandCondition {reading : Phrase → String}
    (hr : ∀ p, shape (reading p) = shape p.alone) {expr : Value} (h : expr.Balanced)
    (values : List Value) : Ensures (expandCondition reading expr values) BalancedIfAny := by
  unfold expandCondition
  split
  · next op values =>
    refine h.column.bind fun c hc => ?_
    split
    · split
      · exact balanced_membership op h _
      · exact ensures_error _
    · split
      · exact ensures_ok (op.shape_predicate hc)
      · exact ensures_error _
  · exact (h.require "expression").bind fun p hp => ensures_ok ((hr p).trans hp)

theorem Conditions.Balanced.addExpanded {cs : Conditions} (hcs : cs.Balanced) (logic : Logic)
    {expr : Value} (h : expr.Balanced) (values : List Value) :
    Ensures (cs.addExpanded logic expr values) Conditions.Balanced := by
  refine (balanced_expandCondition cs.shape_reading h values).bind fun p hp => ?_
  split
  · exact hcs.add _ hp
  · exact ensures_ok hcs

theorem shape_aggregateText {function column : Value} (hf : function.Balanced) (hc : column.Balanced) :
    Ensures (aggregateText function column) fun t => shape t = 1 := by
  refine (hf.require "func").bind fun f hf => hc.column.bind fun c hc => ensures_ok ?_
  simp only [shape_append, f.shape_within, hf, hc]
  decide

theorem HavingEdit.Balanced.apply {e : HavingEdit} (he : e.Balanced) {cs : Conditions}
    (hcs : cs.Balanced) : Ensures (e.apply cs) Conditions.Balanced := by
  cases e with
  | condition logic expr values => exact hcs.addExpanded logic he values
  | aggregate function column op value logic =>
    refine (shape_aggregateText he.1 he.2).bind fun a ha => (ensures_any _).bind fun l _ => ?_
    have htext : (Value.text a).Balanced := ha
    exact hcs.addExpanded l htext _

namespace FilterEdit
variable {cs : Conditions}

theorem balanced_columnNames {columns : Value}
    (h : ∀ vs, columns.members? = some vs → ∀ v ∈ vs, v.Balanced) :
    Ensures (columnNames columns) fun names => ∀ n ∈ names, shape n = 1 := by
  refine (ensures_requireMembers _ columns).bind fun vs hvs => ?_
  refine (ensures_mapM fun v hv => (h vs hvs v hv).column).bind fun names hnames => ?_
  split
  · exact ensures_error _
  · exact ensures_ok (List.forall_mem_map.2 hnames)

theorem shape_joined (op : Operator) (quantifier : Quantifier) {names : List String}
    (h : ∀ n ∈ names, shape n = 1) :
    shape ("(" ++ (" " ++ quantifier.logic.keyword ++ " ").intercalate (names.map op.predicate)
      ++ ")") = 1 := by
  have hlogic : shape (" " ++ quantifier.logic.keyword ++ " ") = 1 := by cases quantifier <;> decide
  have hnames : ∀ t ∈ names.map op.predicate, shape t = 1 :=
    List.forall_mem_map.2 fun n hn => op.shape_predicate (h n hn)
  rw [shape_append, shape_append, shape_intercalate_eq_one hlogic hnames]
  decide

theorem balanced_acrossColumns (hcs : cs.Balanced) (quantifier : Quantifier) {columns : Value}
    (h : ∀ vs, columns.members? = some vs → ∀ v ∈ vs, v.Balanced) (op : Operator) (value : Value)
    (logic : Named Logic) :
    Ensures (acrossColumns cs quantifier columns op value logic) Conditions.Balanced := by
  refine (balanced_columnNames h).bind fun names hnames => ?_
  have hjoined (op : Operator) (vs : List Value) : Ensures (cs.add logic (.text ("("
      ++ (" " ++ quantifier.logic.keyword ++ " ").intercalate (names.map op.predicate) ++ ")") vs))
      Conditions.Balanced :=
    hcs.add logic (shape_joined op quantifier hnames)
  by_cases hscalar : op.isScalar
  · simp only [hscalar, Bool.not_true, Bool.false_eq_true, if_false]
    split
    · exact hjoined _ _
    · exact hjoined _ _
    · split
      · split
        · exact hcs.addTautology logic
        · exact hjoined _ _
      · exact hjoined _ _
  · simp only [hscalar, Bool.not_false, if_true]
    exact ensures_error _

theorem balanced_addBound (hcs : cs.Balanced) (op : Operator) {column : String} (h : shape column = 1)
    (v : Value) : Conditions.Balanced (addBound cs op column v) := by
  unfold addBound
  split
  · exact hcs
  · exact hcs.append (op.shape_predicate h)

theorem Balanced.apply (d : Dialect) {e : FilterEdit} (he : e.Balanced) (hcs : cs.Balanced) :
    Ensures (e.apply d cs) Conditions.Balanced := by
  cases e with
  | condition logic expr values => exact hcs.addExpanded logic he values
  | compare op column value logic =>
    exact (Value.Balanced.column he).bind fun c hc => hcs.add _ (Operator.shape_predicate _ hc)
  | member negated column values logic =>
    refine (balanced_membership _ he values).bind fun p hp => ?_
    split
    · exact hcs.add _ hp
    · exact ensures_ok hcs
  | memberOf negated column query logic =>
    refine he.1.column.bind fun c hc => hcs.add _ (Predicate.balanced_query ?_ he.2)
    rw [shape_append, hc]
    cases negated <;> decide
  | between column first last =>
    refine (Value.Balanced.column he).bind fun c hc => ensures_ok ?_
    exact balanced_addBound (balanced_addBound hcs _ hc _) _ hc _
  | isNull negated column logic =>
    exact (Value.Balanced.column he).bind fun c hc => hcs.add _ (Operator.shape_predicate _ hc)
  | pattern negated form column value logic =>
    refine (Value.Balanced.column he).bind fun c hc => ?_
    split
    · exact hcs.addTautology _
    · exact (ensures_any _).bind fun s _ => hcs.add _ (Operator.shape_predicate _ hc)
  | regexp negated column expr logic =>
    refine (Value.Balanced.column he).bind fun c hc => ?_
    have htext : Ensures (d.regexp negated c.within) fun t => shape t = 1 :=
      fun t ht => Dialect.shape_regexp hc ht
    refine htext.bind fun t ht => ?_
    split
    · exact hcs.addTautology _
    · exact hcs.add _ ht
  | across quantifier columns op value logic => exact balanced_acrossColumns hcs _ he _ _ _
  | acrossPattern form columns value logic =>
    rw [FilterEdit.apply]
    split
    · exact hcs.addTautology _
    · exact (ensures_any _).bind fun s _ => balanced_acrossColumns hcs _ he _ _ _
  | anyOf column query logic =>
    refine he.1.column.bind fun c hc => hcs.add _ (Predicate.balanced_query ?_ he.2)
    rw [shape_append, hc]
    decide
  | hasRows negated query logic =>
    refine hcs.add _ (Predicate.balanced_query ?_ rfl)
    cases negated <;> decide
  | hasRowsText negated query logic =>
    refine (Value.Balanced.require he "subquery").bind fun q hq => hcs.add _ ?_
    have hpredicate := Operator.hasRows.shape_predicate (q.shape_within.trans hq)
    rw [Predicate.Balanced, shape_append, hpredicate]
    cases negated <;> decide

end FilterEdit
end SqlComposer
