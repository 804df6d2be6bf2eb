import SqlComposer.Clause.Having
import SqlComposer.Proofs.Ensures

/-! What filters bring. A change of a condition list asks of the list only whether it is empty, and puts what
it brings behind the conditions that are there. For every change this is named here: the connective, the text
and the values of each condition. -/

namespace SqlComposer

def Operator.test (op : Operator) (column : String) : String :=
  match op with
  | eq => column ++ " = ?"
  | ne => column ++ " <> ?"
  | gt => column ++ " > ?"
  | gte => column ++ " >= ?"
  | lt => column ++ " < ?"
  | lte => column ++ " <= ?"
  | like => column ++ " LIKE ?"
  | notLike => column ++ " NOT LIKE ?"
  | within => column ++ " IN (?)"
  | notWithin => column ++ " NOT IN (?)"
  | isNull => column ++ " IS NULL"
  | isNotNull => column ++ " IS NOT NULL"
  | between => column ++ " BETWEEN ? AND ?"
  | hasRows => "EXISTS (" ++ column ++ ")"

theorem Operator.predicate_eq_test (op : Operator) (column : String) :
    op.predicate column = op.test column := by
  cases op <;>
    simp [predicate, predicateOver, template, String.join, test, placeholder, String.append_assoc]

def listing (negated : Bool) (column : String) (n : Nat) : String :=
  column ++ (if negated then " NOT IN (" else " IN (") ++ ", ".intercalate (List.replicate n placeholder)
    ++ ")"

theorem predicateOver_listing (negated : Bool) (column : String) (n : Nat) :
    (if negated then Operator.notWithin else .within).predicateOver column
      (", ".intercalate (List.replicate n placeholder)) = listing negated column n := by
  cases negated <;> simp [Operator.predicateOver, Operator.template, String.join, listing]

/-- A collection is listed, but a single member is compared with. -/
def Predicate.ofMembers (negated : Bool) (column : String) : List Value → Option Predicate
  | [] => none
  | [v] => some (.text (column ++ if negated then " <> ?" else " = ?") [v])
  | vs => some (.text (listing negated column vs.length) vs)

def members (negated : Bool) (column values : Value) : Except Fault (Option Predicate) := do
  let c ← requireText "column" column
  let vs ← requireCollection (if negated then .notWithin else .within) values
  return Predicate.ofMembers negated c.within vs

theorem membership_eq_members (negated : Bool) (column values : Value) :
    membership (if negated then .notWithin else .within) column values = members negated column values := by
  refine bind_congr fun c => bind_congr fun vs => ?_
  match vs with
  | [] => rfl
  | [v] => cases negated <;> simp [Predicate.ofMembers, Operator.predicate_eq_test, Operator.test]
  | v :: w :: vs =>
    exact congrArg (fun t => Except.ok (some (Predicate.text t (v :: w :: vs))))
      (predicateOver_listing negated c.within _)

/-- The condition of an expression, written out. A text of its own stands by itself if it is the first
condition; a column never does. -/
def expanded (isFirst : Bool) (expr : Value) : List Value → Except Fault (Option Predicate)
  | .operator op :: values => do
    let c ← requireText "column" expr
    if op.takesCollection then
      match values with
      | [vs] => members (op == .notWithin) expr vs
      | _ => throw (.collectionCount op)
    else if values.length = op.valueCount then return some (.text (op.test c.within) values)
    else throw (.valueCount op values.length)
  | values => do
    let p ← requireText "expression" expr
    return some (.text (if isFirst then p.alone else p.within) values)

theorem Conditions.reading_of_isEmpty {cs : Conditions} {isFirst : Bool} (h : cs.isEmpty = isFirst)
    (p : Phrase) : cs.reading p = if isFirst then p.alone else p.within := by
  cases cs <;> cases h <;> rfl

theorem expandCondition_eq_expanded {cs : Conditions} {isFirst : Bool} (h : cs.isEmpty = isFirst)
    (expr : Value) (values : List Value) :
    expandCondition cs.reading expr values = expanded isFirst expr values := by
  unfold expandCondition
  split
  · next op values =>
    refine bind_congr fun c => ?_
    by_cases hop : op.takesCollection
    · rw [if_pos hop, if_pos hop]
      match values with
      | [vs] =>
        cases op with
        | within => exact membership_eq_members false expr vs
        | notWithin => exact membership_eq_members true expr vs
        | _ => cases hop
      | [] | _ :: _ :: _ => rfl
    · rw [if_neg hop, if_neg hop, Operator.predicate_eq_test]
  · next hvalues =>
    rw [expanded]
    · exact bind_congr fun p => congrArg (fun t => Except.ok (some (Predicate.text t values)))
        (Conditions.reading_of_isEmpty h p)
    · exact hvalues

namespace Conditions

def bringsOne (logic : Named Logic) (p : Predicate) : Except Fault Conditions :=
  (Logic.resolve logic).map fun l => [⟨l, p⟩]

def bringsAny (logic : Named Logic) (p : Option Predicate) : Except Fault Conditions :=
  p.elim (.ok []) (bringsOne logic)

def bringsTrue (logic : Named Logic) : Except Fault Conditions :=
  (Logic.resolve logic).map fun
    | .or => [⟨.or, .text "1=1" []⟩]
    | .and => []

def bringsBound (test : String) (v : Value) : Conditions :=
  if v.isNull then [] else [⟨.and, .text test [v]⟩]

/-- The operator as it is asked of every column; a comparison with null asks for null. -/
def asked : Operator → Value → Operator
  | .eq, .null => .isNull
  | .ne, .null => .isNotNull
  | op, _ => op

def testsOf (quantifier : Quantifier) (op : Operator) (names : List String) : String :=
  let joint := match quantifier with
    | .some => " OR "
    | .every => " AND "
  "(" ++ joint.intercalate (names.map op.test) ++ ")"

theorem joined_eq_testsOf (quantifier : Quantifier) (op : Operator) (names : List String) :
    "(" ++ (" " ++ quantifier.logic.keyword ++ " ").intercalate (names.map op.predicate) ++ ")" =
      testsOf quantifier op names := by
  rw [funext op.predicate_eq_test]
  cases quantifier <;> rfl

def bringsAcross (quantifier : Quantifier) (columns : Value) (op : Operator) (value : Value)
    (logic : Named Logic) : Except Fault Conditions := do
  let names ← FilterEdit.columnNames columns
  if !op.isScalar then throw (.notScalar op)
  let tests := testsOf quantifier (asked op value) names
  if !(asked op value).hasValue then bringsOne logic (.text tests [])
  else if value.isNull then bringsTrue logic
  else bringsOne logic (.text tests (List.replicate names.length value))

end Conditions

open Conditions

def FilterEdit.logic : FilterEdit → Named Logic
  | condition l _ _ => .choice l
  | compare _ _ _ l | member _ _ _ l | memberOf _ _ _ l | isNull _ _ l | pattern _ _ _ _ l
  | regexp _ _ _ l | across _ _ _ _ l | acrossPattern _ _ _ l | anyOf _ _ l | hasRows _ _ l
  | hasRowsText _ _ l => l
  | between .. => .choice .and

/-- What a filter brings to a list that is empty, or is not. -/
def FilterEdit.brings (d : Dialect) (isFirst : Bool) : FilterEdit → Except Fault Conditions
  | condition l expr values => expanded isFirst expr values >>= bringsAny (.choice l)
  | compare op column value logic => do
    let c ← requireText "column" column
    bringsOne logic (.text (op.operator.test c.within) [value])
  | member negated column values logic => members negated column values >>= bringsAny logic
  | memberOf negated column query logic => do
    let c ← requireText "column" column
    bringsOne logic (.query (c.within ++ if negated then " NOT IN (" else " IN (") query ")")
  | between column first last => do
    let c ← requireText "column" column
    return bringsBound (c.within ++ " >= ?") (bounds first last).1
      ++ bringsBound (c.within ++ " <= ?") (bounds first last).2
  | isNull negated column logic => do
    let c ← requireText "column" column
    bringsOne logic (.text (c.within ++ if negated then " IS NOT NULL" else " IS NULL") [])
  | pattern negated shape column value logic => do
    let c ← requireText "column" column
    if value.isAbsent then bringsTrue logic
    else
      let s ← spell value
      bringsOne logic (.text (c.within ++ if negated then " NOT LIKE ?" else " LIKE ?")
        [.text (shape.wrap s)])
  | regexp negated column expr logic => do
    let c ← requireText "column" column
    let t ← d.regexp negated c.within
    if expr.isAbsent then bringsTrue logic else bringsOne logic (.text t [expr])
  | across quantifier columns op value logic => bringsAcross quantifier columns op value logic
  | acrossPattern shape columns value logic => do
    if value.isAbsent then bringsTrue logic
    else
      let s ← spell value
      bringsAcross .some columns .like (.text (shape.wrap s)) logic
  | anyOf column query logic => do
    let c ← requireText "column" column
    bringsOne logic (.query (c.within ++ " = any(") query ")")
  | hasRows negated query logic =>
    bringsOne logic (.query (if negated then "NOT EXISTS (" else "EXISTS (") (some query) ")")
  | hasRowsText negated query logic => do
    let q ← requireText "subquery" query
    bringsOne logic (.text ((if negated then "NOT EXISTS (" else "EXISTS (") ++ q.within ++ ")") [])

def HavingEdit.logic : HavingEdit → Named Logic
  | condition l _ _ => .choice l
  | aggregate _ _ _ _ l => l

def HavingEdit.brings (isFirst : Bool) : HavingEdit → Except Fault Conditions
  | condition l expr values => expanded isFirst expr values >>= bringsAny (.choice l)
  | aggregate function column op value logic => do
    let a ← aggregateText function column
    let l ← Logic.resolve logic
    expanded isFirst (.text a) [op, value] >>= bringsAny (.choice l)

namespace Conditions
variable {logic : Named Logic} {isFirst : Bool}

/-- The change puts these conditions, under this connective, behind any list that is empty, or is not. -/
structure Appends (logic : Named Logic) (isFirst : Bool) (f : Conditions → Except Fault Conditions)
    (brings : Except Fault Conditions) : Prop where
  under : Ensures brings fun new => ∀ c ∈ new, Logic.resolve logic = .ok c.logic
  behind : ∀ cs : Conditions, cs.isEmpty = isFirst → f cs = brings.map fun new => cs ++ new

theorem appends_error (f : Fault) : Appends logic isFirst (fun _ => .error f) (.error f) :=
  ⟨ensures_error f, fun _ _ => rfl⟩

theorem appends_ok {new : Conditions} (h : ∀ c ∈ new, Logic.resolve logic = .ok c.logic) :
    Appends logic isFirst (fun cs => .ok (cs ++ new)) (.ok new) :=
  ⟨ensures_ok h, fun _ _ => rfl⟩

theorem appends_nothing : Appends logic isFirst .ok (.ok []) :=
  ⟨ensures_ok fun _ h => absurd h List.not_mem_nil, fun cs _ =>
    congrArg Except.ok (List.append_nil cs).symm⟩

theorem Appends.bind {α : Type} (x : Except Fault α) {f : α → Conditions → Except Fault Conditions}
    {brings : α → Except Fault Conditions} (h : ∀ a, x = .ok a → Appends logic isFirst (f a) (brings a)) :
    Appends logic isFirst (fun cs => x >>= fun a => f a cs) (x >>= brings) := by
  cases x with
  | error e => exact appends_error e
  | ok a => exact h a rfl

theorem Appends.congr {f g : Conditions → Except Fault Conditions} {brings brings' : Except Fault Conditions}
    (h : Appends logic isFirst f brings) (hfg : ∀ cs : Conditions, cs.isEmpty = isFirst → g cs = f cs)
    (hbrings : brings' = brings) : Appends logic isFirst g brings' := by
  subst hbrings
  exact ⟨h.under, fun cs hcs => (hfg cs hcs).trans (h.behind cs hcs)⟩

theorem Appends.of_resolve {l : Logic} (hl : Logic.resolve logic = .ok l)
    {f : Conditions → Except Fault Conditions} {brings : Except Fault Conditions}
    (h : Appends (.choice l) isFirst f brings) : Appends logic isFirst f brings :=
  ⟨h.under.mono fun _ hnew c hc => hl.trans (hnew c hc), h.behind⟩

theorem appends_add (p : Predicate) : Appends logic isFirst (fun cs => cs.add logic p) (bringsOne logic p) :=
  Appends.bind (Logic.resolve logic) fun _ hl => appends_ok (List.forall_mem_singleton.2 hl)

theorem appends_addTautology :
    Appends logic isFirst (fun cs => cs.addTautology logic) (bringsTrue logic) := by
  refine Appends.bind (Logic.resolve logic) fun l hl => ?_
  cases l with
  | or => exact appends_ok (List.forall_mem_singleton.2 hl)
  | and => exact appends_nothing

theorem appends_any (p : Option Predicate) :
    Appends logic isFirst (fun cs => p.elim (.ok cs) (cs.add logic)) (bringsAny logic p) := by
  cases p with
  | none => exact appends_nothing
  | some p => exact appends_add p

theorem appends_addExpanded (l : Logic) (expr : Value) (values : List Value) :
    Appends (.choice l) isFirst (fun cs => cs.addExpanded l expr values)
      (expanded isFirst expr values >>= bringsAny (.choice l)) := by
  refine Appends.congr (Appends.bind _ fun p _ => appends_any p) (fun cs hcs => ?_) rfl
  rw [addExpanded, expandCondition_eq_expanded hcs]
  exact bind_congr fun p => by cases p <;> rfl

theorem appends_acrossColumns (quantifier : Quantifier) (columns : Value) (op : Operator)
    (value : Value) : Appends logic isFirst
      (fun cs => FilterEdit.acrossColumns cs quantifier columns op value logic)
      (bringsAcross quantifier columns op value logic) := by
  refine Appends.bind _ fun names _ => ?_
  by_cases hscalar : op.isScalar
  · simp only [hscalar, Bool.not_true, Bool.false_eq_true, if_false, joined_eq_testsOf]
    split
    · exact appends_add _
    · exact appends_add _
    · next heq hne =>
      have hasked : asked op value = op := by
        unfold asked
        split
        · exact absurd rfl (heq rfl)
        · exact absurd rfl (hne rfl)
        · rfl
      rw [hasked]
      cases op.hasValue with
      | false => exact appends_add _
      | true =>
        cases hnull : value.isNull with
        | true => exact appends_addTautology
        | false => exact appends_add _
  · simp only [hscalar, Bool.not_false, if_true]
    exact appends_error _

theorem addBound_eq_append (cs : Conditions) (op : Operator) (column : String) (v : Value) :
    FilterEdit.addBound cs op column v = cs ++ bringsBound (op.test column) v := by
  rw [FilterEdit.addBound, bringsBound, op.predicate_eq_test]
  split
  · exact (List.append_nil cs).symm
  · rfl

theorem under_bringsBound (test : String) (v : Value) :
    ∀ c ∈ bringsBound test v, Logic.resolve (.choice .and) = .ok c.logic := by
  unfold bringsBound
  split
  · exact fun _ h => absurd h List.not_mem_nil
  · exact List.forall_mem_singleton.2 rfl

end Conditions

theorem FilterEdit.appends_apply (d : Dialect) (e : FilterEdit) (isFirst : Bool) :
    Appends e.logic isFirst (e.apply d) (e.brings d isFirst) := by
  cases e with
  | condition l expr values => exact appends_addExpanded l expr values
  | compare op column value logic =>
    refine Appends.bind _ fun c _ => ?_
    simp only [Operator.predicate_eq_test]
    exact appends_add _
  | member negated column values logic =>
    refine Appends.congr (Appends.bind _ fun p _ => appends_any p) (fun cs _ => ?_) rfl
    simp only [apply, membership_eq_members]
    exact bind_congr fun p => by cases p <;> rfl
  | memberOf negated column query logic => exact Appends.bind _ fun c _ => appends_add _
  | between column first last =>
    refine Appends.bind _ fun c _ => ?_
    simp only [addBound_eq_append, List.append_assoc]
    exact appends_ok (List.forall_mem_append.2 ⟨under_bringsBound _ _, under_bringsBound _ _⟩)
  | isNull negated column logic =>
    refine Appends.bind _ fun c _ => ?_
    simp only [Operator.predicate_eq_test]
    cases negated <;> exact appends_add _
  | pattern negated form column value logic =>
    refine Appends.bind _ fun c _ => ?_
    split
    · exact appends_addTautology
    · refine Appends.bind _ fun s _ => ?_
      simp only [Operator.predicate_eq_test]
      cases negated <;> exact appends_add _
  | regexp negated column expr logic =>
    refine Appends.bind _ fun c _ => Appends.bind _ fun t _ => ?_
    split
    · exact appends_addTautology
    · exact appends_add _
  | across quantifier columns op value logic => exact appends_acrossColumns _ _ _ _
  | acrossPattern form columns value logic =>
    by_cases habsent : value.isAbsent
    · exact appends_addTautology.congr (fun cs _ => if_pos habsent) (if_pos habsent)
    · refine Appends.congr ?_ (fun cs _ => if_neg habsent) (if_neg habsent)
      exact Appends.bind _ fun s _ => appends_acrossColumns _ _ _ _
  | anyOf column query logic => exact Appends.bind _ fun c _ => appends_add _
  | hasRows negated query logic => exact appends_add _
  | hasRowsText negated query logic =>
    refine Appends.bind _ fun q _ => ?_
    simp only [Operator.predicate_eq_test]
    cases negated <;> exact appends_add _

theorem HavingEdit.appends_apply (e : HavingEdit) (isFirst : Bool) :
    Appends e.logic isFirst e.apply (e.brings isFirst) := by
  cases e with
  | condition l expr values => exact appends_addExpanded l expr values
  | aggregate function column op value logic =>
    exact Appends.bind _ fun a _ => Appends.bind _ fun l hl => (appends_addExpanded l _ _).of_resolve hl

end SqlComposer
