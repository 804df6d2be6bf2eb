import SqlComposer.Argument
import SqlComposer.Clause.Part
import SqlComposer.Text.LetterCase

/-! Condition lists, as WHERE and HAVING hold them. The first condition is written as it is,
whatever logic it was added with; each later one stands in parentheses behind its logic. -/

namespace SqlComposer

inductive Logic where
  | and
  | or
  deriving DecidableEq, Repr

namespace Logic

def keyword : Logic → String
  | and => "AND"
  | or => "OR"

def ofName? (s : String) : Option Logic :=
  [and, or].find? (·.keyword == Text.upper s)

def resolve : Named Logic → Except Fault Logic
  | .choice l => .ok l
  | .name v =>
    match ofName? v.plain with
    | some l => .ok l
    | none => .error (.unknownLogic v)

end Logic

inductive Predicate where
  | text (t : String) (values : List Value)
  | query (before : String) (id : Option StatementId) (after : String)
  deriving Repr

namespace Predicate

def parts : Predicate → List Part
  | text t values => [.bound t values]
  | query before id after => Part.embedded before id after

/-- Whether the text goes on behind the predicate; without its query a predicate is never closed. -/
def isClosed : Predicate → Bool
  | query _ none _ => false
  | _ => true

end Predicate

structure Condition where
  logic : Logic
  predicate : Predicate
  deriving Repr

abbrev Conditions := List Condition

def tautology : Predicate := .text "1=1" []

namespace Conditions

def laterParts (c : Condition) : List Part :=
  .text (" " ++ c.logic.keyword ++ " (") :: c.predicate.parts
    ++ (if c.predicate.isClosed then [.text ")"] else [])

def clause (keyword : String) : Conditions → List Part
  | [] => []
  | c :: cs => .text keyword :: c.predicate.parts ++ cs.flatMap laterParts

def reading : Conditions → Phrase → String
  | [] => Phrase.alone
  | _ :: _ => Phrase.within

@[simp] theorem reading_text (cs : Conditions) (s : String) : cs.reading (.text s) = s := by
  cases cs <;> rfl

def add (cs : Conditions) (logic : Named Logic) (p : Predicate) : Except Fault Conditions := do
  let l ← Logic.resolve logic
  return cs ++ [⟨l, p⟩]

/-- Stands in for a condition without a value to compare with: an alternative becomes true, a
requirement is dropped. -/
def addTautology (cs : Conditions) (logic : Named Logic) : Except Fault Conditions := do
  match ← Logic.resolve logic with
  | .or => return cs ++ [⟨.or, tautology⟩]
  | .and => return cs

end Conditions

inductive ConditionsEdit where
  | text (logic : Named Logic) (text : Value) (values : List Value)
  | query (logic : Named Logic) (before : Value) (id : Option StatementId) (after : Value)
  | tautology (logic : Named Logic)

namespace ConditionsEdit

def place (cs : Conditions) (v : Value) : Except Fault String :=
  match v.phrase? with
  | some p => .ok (cs.reading p)
  | none => spell v

def apply (e : ConditionsEdit) (cs : Conditions) : Except Fault Conditions :=
  match e with
  | text logic t values => do
    let l ← Logic.resolve logic
    cs.add (.choice l) (.text (← place cs t) values)
  | query logic before none _ => do
    let l ← Logic.resolve logic
    cs.add (.choice l) (.query (← place cs before) none "")
  | query logic before (some id) after => do
    let l ← Logic.resolve logic
    cs.add (.choice l) (.query (← spell before) (some id) (← spell after))
  | tautology logic => cs.addTautology logic

end ConditionsEdit
end SqlComposer
