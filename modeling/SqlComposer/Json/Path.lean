import SqlComposer.Fault

/-! JSON paths: the keys and array indices that lead to an element of a document, outermost first.
Each backend writes a path in its own way. -/

namespace SqlComposer.Json

namespace Segment

def ofValue : Value → Except SegmentFault Segment
  | .text s => if Text.isBlank s then .error .blankKey else .ok (key s)
  | .operator op => .ok (key op.name)
  | .int (.ofNat i) => .ok (index i)
  | .int i => .error (.negativeIndex i)
  | v => .error (.neitherKeyNorIndex v)

end Segment

structure Path where
  segments : List Segment
  deriving DecidableEq, Repr

namespace Path

def empty : Path := ⟨[]⟩

def isEmpty (p : Path) : Bool := p.segments.isEmpty

def length (p : Path) : Nat := p.segments.length

def text (p : Path) : String :=
  Segment.joined p.segments

def values (p : Path) : List Value :=
  p.segments.map Value.ofSegment

def isWritable (p : Path) : Bool :=
  p.segments.all Segment.isWritable

/-- The first value that is no segment decides the fault, which shows all of them. -/
def ofValues (vs : List Value) : Except Fault Path :=
  match vs.mapM Segment.ofValue with
  | .ok segments => .ok ⟨segments⟩
  | .error why => .error (Fault.path vs why).reported

def splitDots : List Char → List (List Char)
  | [] => [[]]
  | c :: cs =>
    if c = '.' then [] :: splitDots cs
    else match splitDots cs with
      | piece :: pieces => (c :: piece) :: pieces
      | [] => [[c]]

/-- A text names one key between every two dots, and an operator one by its name; any other value is
a segment as it is. -/
def splitPart : Value → List Value
  | .text s => (splitDots s.toList).map fun cs => .text (String.ofList cs)
  | .operator op => [.text op.name]
  | v => [v]

def ofParts (parts : List Value) : Except Fault Path :=
  ofValues (parts.flatMap splitPart)

def extend (p : Path) (v : Value) : Except Fault Path :=
  ofValues (p.values ++ [v])

def ofSegments (vs : List Value) : Except Fault Path :=
  vs.foldlM extend empty

end Path

inductive PathSource where
  | path (p : Path)
  | parts (vs : List Value)

def PathSource.resolve : PathSource → Except Fault Path
  | .path p => .ok p
  | .parts vs => Path.ofParts vs

end SqlComposer.Json
