import SqlComposer.Phrase
import SqlComposer.Step

/-! Checks that the changes of different clauses share. The arguments of a change are values; where
a text is asked for, only a phrase is accepted. -/

namespace SqlComposer

def requireText (argument : String) (v : Value) : Except Fault Phrase :=
  match v.phrase? with
  | some p => if Text.isBlank p.alone then .error (.blankText argument) else .ok p
  | none => .error (.blankText argument)

/-- The texts before the first value that is no phrase or a blank one, and the fault of that one. -/
def leadingTexts (argument : String) : List Value → Step (List String)
  | [] => .made []
  | v :: vs =>
    match requireText argument v with
    | .ok p => (leadingTexts argument vs).map (p.alone :: ·)
    | .error f => .refused [] f

/-- The members of what must be a collection; null and texts are refused as none. -/
def requireMembers (refusal : Fault) : Value → Except Fault (List Value)
  | .null | .text _ | .operator _ => .error refusal
  | v =>
    match v.members? with
    | some vs => .ok vs
    | none => .error (.noMembers v.kind)

def spell (v : Value) : Except Fault String :=
  match v.obstacle? with
  | some why => .error (.ofObstacle why)
  | none => .ok v.plain

/-- The text of a value that may be left out: one that does not hold counts as left out. -/
def optionalText (v : Value) : Except Fault (Option String) :=
  if v.isTrue then (spell v).map some else .ok none

/-- A choice given directly, or by a name that is looked up when the choice is examined. -/
inductive Named (α : Type) where
  | choice (a : α)
  | name (given : Value)
  deriving Repr

end SqlComposer
