import SqlComposer.Value

/-! Reading expressions. A cast binds tighter than a minus, a minus tighter than the other operators,
and operators that bind equally bind to the left; calls, arrays and parentheses are read by
themselves. An expression whose operators all stand in parentheses is read back as it was. -/

namespace SqlComposer

inductive Infix where
  | minus
  | concat
  | hashMinus
  deriving DecidableEq, Repr

def Infix.strength : Infix → Nat
  | minus => 2
  | concat | hashMinus => 1

inductive Expr where
  | name (s : String)
  | literal (s : String)
  | parameter (v : Value)
  | cast (e : Expr) (type : String)
  | binary (op : Infix) (left right : Expr)
  | call (function : String) (args : List Expr)
  | array (items : List Expr)

inductive Enclosure where
  | parentheses
  | call (function : String)
  | array

def Enclosure.isSquare : Enclosure → Bool
  | array => true
  | _ => false

def Enclosure.close? : Enclosure → List Expr → Option Expr
  | parentheses, [e] => some e
  | parentheses, _ => none
  | call function, args => some (.call function args)
  | array, items => some (.array items)

inductive ExprToken where
  | name (s : String)
  | literal (s : String)
  | parameter (v : Value)
  | opening (enclosure : Enclosure)
  | closing (square : Bool)
  | comma
  | cast
  | operator (op : Infix)

/-- Left operands that wait for the right one, the nearest first. -/
abbrev Pending := List (Expr × Infix)

/-- Gives the operand to the operators in front of it that bind at least as strongly. -/
def Pending.reduce (strength : Nat) : Pending → Expr → Pending × Expr
  | [], e => ([], e)
  | (left, op) :: ps, e =>
    if strength ≤ op.strength then reduce strength ps (.binary op left e) else ((left, op) :: ps, e)

def Pending.total (ps : Pending) (e : Expr) : Expr :=
  ps.foldl (fun e p => .binary p.2 p.1 e) e

/-- A bracket that is still open, with the items read behind it and what waited in front of it. -/
structure ExprGroup where
  enclosure : Enclosure
  items : List Expr
  outer : Pending

inductive ExprPosition where
  | start
  | operand (e : Expr)
  | cast (e : Expr)

structure ExprReader where
  groups : List ExprGroup
  pending : Pending
  position : ExprPosition

namespace ExprReader

def close (square : Bool) (items : List Expr) : List ExprGroup → Option ExprReader
  | [] => none
  | g :: gs =>
    if g.enclosure.isSquare = square then
      (g.enclosure.close? (g.items ++ items)).map fun e => ⟨gs, g.outer, .operand e⟩
    else none

def step (r : ExprReader) (t : ExprToken) : Option ExprReader :=
  match t, r.position with
  | .name s, .start => some ⟨r.groups, r.pending, .operand (.name s)⟩
  | .name s, .cast e => some ⟨r.groups, r.pending, .operand (.cast e s)⟩
  | .literal s, .start => some ⟨r.groups, r.pending, .operand (.literal s)⟩
  | .parameter v, .start => some ⟨r.groups, r.pending, .operand (.parameter v)⟩
  | .opening enclosure, .start => some ⟨⟨enclosure, [], r.pending⟩ :: r.groups, [], .start⟩
  | .cast, .operand e => some ⟨r.groups, r.pending, .cast e⟩
  | .operator op, .operand e =>
    let (ps, left) := r.pending.reduce op.strength e
    some ⟨r.groups, (left, op) :: ps, .start⟩
  | .comma, .operand e =>
    match r.groups with
    | [] => none
    | g :: gs => some ⟨{ g with items := g.items ++ [r.pending.total e] } :: gs, [], .start⟩
  | .closing square, .operand e => close square [r.pending.total e] r.groups
  | .closing square, .start =>
    match r.groups, r.pending with
    | ⟨enclosure, [], outer⟩ :: gs, [] => close square [] (⟨enclosure, [], outer⟩ :: gs)
    | _, _ => none
  | _, _ => none

def answer (r : ExprReader) : Option Expr :=
  match r.groups, r.position with
  | [], .operand e => some (r.pending.total e)
  | _, _ => none

theorem close_eq_some {enclosure : Enclosure} {items es : List Expr} {e : Expr}
    (h : enclosure.close? (items ++ es) = some e) (outer : Pending) (groups : List ExprGroup) :
    close enclosure.isSquare es (⟨enclosure, items, outer⟩ :: groups) =
      some ⟨groups, outer, .operand e⟩ := by
  simp [close, h]

end ExprReader

namespace Expr

def readTokens (ts : List ExprToken) : Option Expr :=
  (ts.foldlM ExprReader.step ⟨[], [], .start⟩).bind ExprReader.answer

mutual

def tokens : Expr → List ExprToken
  | name s => [.name s]
  | literal s => [.literal s]
  | parameter v => [.parameter v]
  | cast e type => e.tokens ++ [.cast, .name type]
  | binary op left right =>
    .opening .parentheses :: left.tokens ++ .operator op :: right.tokens ++ [.closing false]
  | call function args => .opening (.call function) :: listTokens args ++ [.closing false]
  | array items => .opening .array :: listTokens items ++ [.closing true]

def listTokens : List Expr → List ExprToken
  | [] => []
  | [e] => e.tokens
  | e :: f :: es => e.tokens ++ .comma :: listTokens (f :: es)

end

theorem foldlM_cons_of_step {r r' : ExprReader} {t : ExprToken} (h : r.step t = some r')
    (ts : List ExprToken) :
    (t :: ts).foldlM ExprReader.step r = ts.foldlM ExprReader.step r' := by
  rw [List.foldlM_cons, h]
  rfl

mutual

/-- Wherever an operand may stand, an expression whose operators stand in parentheses is one. -/
theorem foldlM_tokens : ∀ (e : Expr) (groups : List ExprGroup) (ps : Pending) (ts : List ExprToken),
    (e.tokens ++ ts).foldlM ExprReader.step ⟨groups, ps, .start⟩ =
      ts.foldlM ExprReader.step ⟨groups, ps, .operand e⟩
  | name s, groups, ps, ts => rfl
  | literal s, groups, ps, ts => rfl
  | parameter v, groups, ps, ts => rfl
  | cast e type, groups, ps, ts => by
    rw [tokens, List.append_assoc, foldlM_tokens e]
    rfl
  | binary op left right, groups, ps, ts => by
    have hright := foldlM_tokens right (⟨.parentheses, [], ps⟩ :: groups) [(left, op)]
      (.closing false :: ts)
    rw [tokens, List.append_assoc, List.append_assoc, List.cons_append, foldlM_cons_of_step rfl,
      foldlM_tokens left, List.cons_append, foldlM_cons_of_step rfl]
    exact hright
  | call function args, groups, ps, ts => by
    rw [tokens, List.append_assoc, List.cons_append, foldlM_cons_of_step rfl]
    exact foldlM_listTokens args _ [] ps groups ts rfl (.inr rfl)
  | array items, groups, ps, ts => by
    rw [tokens, List.append_assoc, List.cons_append, foldlM_cons_of_step rfl]
    exact foldlM_listTokens items _ [] ps groups ts rfl (.inr rfl)

theorem foldlM_listTokens : ∀ (es : List Expr) (enclosure : Enclosure) (items : List Expr)
    (outer : Pending) (groups : List ExprGroup) (ts : List ExprToken) {e : Expr},
    enclosure.close? (items ++ es) = some e → es ≠ [] ∨ items = [] →
    (listTokens es ++ .closing enclosure.isSquare :: ts).foldlM ExprReader.step
      ⟨⟨enclosure, items, outer⟩ :: groups, [], .start⟩ =
        ts.foldlM ExprReader.step ⟨groups, outer, .operand e⟩
  | [], enclosure, items, outer, groups, ts, e, hclose, hitems => by
    obtain rfl : items = [] := hitems.resolve_left fun h => h rfl
    have hstep : ExprReader.step ⟨⟨enclosure, [], outer⟩ :: groups, [], .start⟩
        (.closing enclosure.isSquare) = some ⟨groups, outer, .operand e⟩ :=
      ExprReader.close_eq_some hclose outer groups
    exact foldlM_cons_of_step hstep ts
  | [e], enclosure, items, outer, groups, ts, e', hclose, hitems => by
    have hstep : ExprReader.step ⟨⟨enclosure, items, outer⟩ :: groups, [], .operand e⟩
        (.closing enclosure.isSquare) = some ⟨groups, outer, .operand e'⟩ :=
      ExprReader.close_eq_some hclose outer groups
    rw [listTokens, foldlM_tokens e]
    exact foldlM_cons_of_step hstep ts
  | e :: f :: es, enclosure, items, outer, groups, ts, e', hclose, hitems => by
    -- The first item joins those that the bracket has already.
    rw [← List.singleton_append, ← List.append_assoc] at hclose
    rw [listTokens, List.append_assoc, foldlM_tokens e, List.cons_append, foldlM_cons_of_step rfl]
    exact foldlM_listTokens (f :: es) enclosure (items ++ [e]) outer groups ts hclose (.inl nofun)

end

end Expr
end SqlComposer
