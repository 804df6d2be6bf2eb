/-! Templates with a slot. A template is written with a mark in place of the expression that it
wraps; cutting it at the marks gives the pieces around the expression. -/

namespace SqlComposer.Json

/-- The mark that stands for the wrapped expression. -/
def slot : String := "\x00current\x00"

/-- The pieces of a text around the occurrences of a mark, from left to right and apart. The number
counts characters of an occurrence that are still to be passed over. -/
def cutFrom (mark : List Char) (skip : Nat) : List Char → List (List Char)
  | [] => [[]]
  | c :: cs =>
    match skip with
    | k + 1 => cutFrom mark k cs
    | 0 =>
      if mark.isPrefixOf (c :: cs) then [] :: cutFrom mark (mark.length - 1) cs
      else match cutFrom mark 0 cs with
        | piece :: pieces => (c :: piece) :: pieces
        | [] => [[c]]

def cut (template : String) : List (List Char) :=
  cutFrom slot.toList 0 template.toList

def fill (expression : List Char) : List (List Char) → List Char
  | [] => []
  | [piece] => piece
  | piece :: pieces => piece ++ expression ++ fill expression pieces

end SqlComposer.Json
