import SqlComposer.Value

/-! Parts: what clauses are made of. A part is a chunk of text together with the values that its
placeholders bind, or a reference to another statement, which stands for whatever that statement is
when the whole is read. Text and values are read off the same parts, so they keep the same order. -/

namespace SqlComposer

/-- The place of a statement in its store. -/
abbrev StatementId := Nat

structure Chunk where
  text : String
  values : List Value
  deriving Repr

inductive Part where
  | chunk (c : Chunk)
  | statement (id : StatementId)
  deriving Repr

namespace Part

def text (s : String) : Part := .chunk ⟨s, []⟩

def bound (s : String) (vs : List Value) : Part := .chunk ⟨s, vs⟩

/-- A query put into a text. Without a query, only what stands before it is written. -/
def embedded (before : String) (query : Option StatementId) (after : String) : List Part :=
  match query with
  | some id => [text before, .statement id, text after]
  | none => [text before]

def separated (separator : String) : List (List Part) → List Part
  | [] => []
  | [item] => item
  | item :: items => item ++ text separator :: separated separator items

/-- A keyword and the items behind it; a clause without items is not written at all. -/
def clause (keyword separator : String) : List (List Part) → List Part
  | [] => []
  | items => text keyword :: separated separator items

end Part
end SqlComposer
