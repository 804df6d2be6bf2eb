import SqlComposer.Value

/-! The values of a statement in the order of its placeholders. Values are only ever added at the
end. -/

namespace SqlComposer

structure Parameters where
  values : List Value

namespace Parameters

def empty : Parameters := ⟨[]⟩

def append (p : Parameters) (vs : List Value) : Parameters := ⟨p.values ++ vs⟩

def length (p : Parameters) : Nat := p.values.length

end Parameters
end SqlComposer
