import SqlComposer.Clause.Part
import SqlComposer.Dialect.Basic

/-! The GROUP BY clause: explicit groups, or all columns that are not aggregates, never both. -/

namespace SqlComposer

inductive Grouping where
  | groups (exprs : List String)
  | all
  deriving Repr

def Grouping.clause : Grouping → List Part
  | all => [.text " GROUP BY ALL"]
  | groups exprs => Part.clause " GROUP BY " ", " (exprs.map fun e => [.text e])

inductive GroupingEdit where
  | groups (exprs : List Value)
  | all

/-- Groups in front of the first that is refused are kept. -/
def GroupingEdit.apply (d : Dialect) (e : GroupingEdit) (g : Grouping) : Step Grouping :=
  match e, g with
  | groups _, .all => .refused g .groupAllWithGroups
  | groups exprs, .groups before =>
    (leadingTexts "expr" exprs).map fun texts => .groups (before ++ texts)
  | all, g =>
    if !d.supportsGroupByAll then .refused g (d.unsupported "GROUP BY ALL")
    else match g with
      | .groups [] => .made .all
      | g => .refused g .groupAllWithGroups

end SqlComposer
