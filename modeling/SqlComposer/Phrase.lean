import SqlComposer.Value

/-! Phrases: the values that can be written into a statement. A phrase is a text or an operator. By
itself an operator is written as its name, and inside a larger text as its full name; a text is
written as it is in either place. -/

namespace SqlComposer

inductive Phrase where
  | text (s : String)
  | operator (op : Operator)
  deriving DecidableEq, Repr

namespace Phrase

def alone : Phrase → String
  | text s => s
  | operator op => op.name

def within : Phrase → String
  | text s => s
  | operator op => op.fullName

def besideAlias (asName : Option String) (p : Phrase) : String :=
  if asName.isSome then p.within else p.alone

@[simp] theorem alone_text (s : String) : (text s).alone = s := rfl

@[simp] theorem within_text (s : String) : (text s).within = s := rfl

@[simp] theorem besideAlias_text (asName : Option String) (s : String) :
    (text s).besideAlias asName = s := by
  simp [besideAlias]

end Phrase

def Value.phrase? : Value → Option Phrase
  | text s => some (.text s)
  | operator op => some (.operator op)
  | _ => none

end SqlComposer
