import SqlComposer.Text.Blank
import SqlComposer.Text.LetterCase

/-! Identifier naming: how the keys of a mapping become column names. -/

namespace SqlComposer

inductive Naming where
  | snake
  | camel
  | identity
  deriving DecidableEq, Repr

namespace Naming

/-- Reads the characters after the first one. The state is the last character written, if any, and
whether the character before was a capital: a run of capitals is one word. -/
def snakeFrom (last : Option Char) (afterCapital : Bool) : List Char → List Char
  | [] => []
  | c :: cs =>
    if Text.isCapital c then
      let small := Text.lowerChar c
      let mark := if !afterCapital && last.isSome && last != some '_' then ['_'] else []
      mark ++ small ++ snakeFrom (small.getLast?.or last) true cs
    else c :: snakeFrom (some c) false cs

def snakeChars : List Char → List Char
  | '_' :: cs => snakeFrom none false cs
  | cs => snakeFrom none false cs

def toSnakeCase (name : String) : String :=
  match snakeChars name.toList with
  | [] => name
  | cs => String.ofList cs

/-- Reads the characters after the first one; an underscore is dropped and raises the next character
that is none. -/
def camelFrom (raise : Bool) : List Char → List Char
  | [] => []
  | c :: cs =>
    if c = '_' then camelFrom true cs
    else (if raise then Text.upperChar c else Text.lowerChar c) ++ camelFrom false cs

def camelChars : List Char → List Char
  | [] => []
  | c :: '_' :: cs => Text.upperChar c ++ camelFrom true cs
  | c :: cs => Text.lowerChar c ++ camelFrom false cs

def toCamelCase (name : String) : String :=
  if Text.isBlank name then name else String.ofList (camelChars name.toList)

def convert : Naming → String → String
  | snake => toSnakeCase
  | camel => toCamelCase
  | identity => id

end Naming
end SqlComposer
