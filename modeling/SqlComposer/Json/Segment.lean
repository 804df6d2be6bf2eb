import SqlComposer.Text.Numeral

/-! Segments: the steps of a JSON path, each a key of an object or an index of an array. -/

namespace SqlComposer.Json

inductive Segment where
  | key (name : String)
  | index (i : Nat)
  deriving DecidableEq, Repr

namespace Segment

def text : Segment → String
  | key k => k
  | index i => toString i

def isWritable : Segment → Bool
  | key _ => true
  | index i => Text.Numeral.isWritable i

def joined (segments : List Segment) : String :=
  ".".intercalate (segments.map text)

end Segment
end SqlComposer.Json
