import SqlComposer.Clause.Part

/-! Unions: the queries whose rows are added to those of a query. -/

namespace SqlComposer

inductive UnionKind where
  | distinct
  | all
  deriving DecidableEq, Repr

def UnionKind.keyword : UnionKind → String
  | distinct => "UNION"
  | all => "UNION ALL"

structure UnionBranch where
  kind : UnionKind
  query : Option StatementId
  deriving Repr

def UnionBranch.parts (u : UnionBranch) : List Part :=
  Part.embedded ("\n" ++ u.kind.keyword ++ "\n") u.query ""

end SqlComposer
