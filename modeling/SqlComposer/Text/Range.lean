/-! Sets of characters given by closed ranges of code points. -/

namespace SqlComposer.Text

def inRanges (rs : List (Nat × Nat)) (n : Nat) : Bool :=
  rs.any fun r => r.1 ≤ n && n ≤ r.2

end SqlComposer.Text
