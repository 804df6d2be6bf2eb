import SqlComposer.Clause.Filter
import SqlComposer.Clause.Projection

/-! The changes of a HAVING clause: conditions on groups, mostly on an aggregate of a column. -/

namespace SqlComposer

inductive HavingEdit where
  | condition (logic : Logic) (expr : Value) (values : List Value)
  /-- An operator that is no operator but a value is bound like one, to a raw condition. -/
  | aggregate (function column op value : Value) (logic : Named Logic)

namespace HavingEdit

def apply (e : HavingEdit) (cs : Conditions) : Except Fault Conditions :=
  match e with
  | condition logic expr values => cs.addExpanded logic expr values
  | aggregate function column op value logic => do
    let a ← aggregateText function column
    let l ← Logic.resolve logic
    cs.addExpanded l (.text a) [op, value]

end HavingEdit
end SqlComposer
