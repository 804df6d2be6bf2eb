import SqlComposer.Proofs.Expression.Reading

/-! Chains: operands with operators between them and no parentheses. While only minus signs have been
read, whatever waits in front of them keeps waiting; the first operator that binds less strongly takes
everything before it for its left operand, and from then on waits behind every later minus. -/

namespace SqlComposer

structure Chain where
  head : Expr
  links : List (Infix × Expr)

namespace Pending

/-- A reader behind an operator and the operand after it. -/
def link (s : Pending × Expr) (l : Infix × Expr) : Pending × Expr :=
  (((s.1.reduce l.1.strength s.2).2, l.1) :: (s.1.reduce l.1.strength s.2).1, l.2)

def Tight (ps : Pending) : Prop := ∀ p ∈ ps, p.2 = .minus

/-- Behind the minus signs waits a weaker operator with an operand of the kind `P`. -/
def Held (P : Expr → Prop) (ps : Pending) : Prop :=
  ∃ (front : Pending) (left : Expr) (op : Infix),
    ps = front ++ [(left, op)] ∧ front.Tight ∧ op ≠ .minus ∧ P left

variable {front base ps : Pending} {e : Expr}

theorem total_append : (front ++ base).total e = base.total (front.total e) := List.foldl_append

theorem reduce_loose {op : Infix} (h : op ≠ .minus) (ps : Pending) (e : Expr) :
    ps.reduce op.strength e = ([], ps.total e) := by
  have hop : op.strength = 1 := by
    cases op with
    | minus => exact absurd rfl h
    | concat | hashMinus => rfl
  -- No operator binds less strongly, so all that wait take the operand.
  induction ps generalizing e with
  | nil => rfl
  | cons p ps ih =>
    have hstrength : op.strength ≤ p.2.strength := by
      rw [hop]
      cases p.2 <;> decide
    rw [reduce, if_pos hstrength, ih]
    rfl

theorem reduce_minus (hf : front.Tight) (hb : ∀ p ∈ base.head?, p.2 ≠ .minus) :
    (front ++ base).reduce Infix.minus.strength e = (base, front.total e) := by
  induction front generalizing e with
  | nil =>
    cases base with
    | nil => rfl
    | cons p base =>
      have hp := hb p rfl
      have hstrength : ¬Infix.minus.strength ≤ p.2.strength := by
        revert hp
        cases p.2 <;> decide
      rw [List.nil_append, reduce, if_neg hstrength]
      rfl
  | cons p front ih =>
    obtain ⟨hp, hfront⟩ := List.forall_mem_cons.1 hf
    have hstrength : Infix.minus.strength ≤ p.2.strength := Nat.le_of_eq (by rw [hp])
    rw [List.cons_append, reduce, if_pos hstrength, ih hfront]
    rfl

theorem link_minus (hf : front.Tight) (hb : ∀ p ∈ base.head?, p.2 ≠ .minus) (right : Expr) :
    link (front ++ base, e) (.minus, right) = ((front.total e, .minus) :: base, right) := by
  rw [link, reduce_minus hf hb]

theorem link_tight (hf : front.Tight) (right : Expr) :
    link (front, e) (.minus, right) = ([(front.total e, .minus)], right) := by
  have h : link (front ++ [], e) (.minus, right) = ([(front.total e, .minus)], right) :=
    link_minus hf (by simp) right
  rwa [List.append_nil] at h

theorem link_held {op : Infix} (hf : front.Tight) (hop : op ≠ .minus) (left right : Expr) :
    link (front ++ [(left, op)], e) (.minus, right) =
      ([(front.total e, .minus), (left, op)], right) := by
  refine link_minus hf (fun p hp => ?_) right
  cases hp
  exact hop

theorem link_loose {op : Infix} (h : op ≠ .minus) (right : Expr) :
    link (ps, e) (op, right) = ([(ps.total e, op)], right) := by
  rw [link, reduce_loose h]

theorem tight_foldl_link {links : List (Infix × Expr)} (hl : ∀ l ∈ links, l.1 = .minus)
    (hf : front.Tight) : (links.foldl link (front, e)).1.Tight := by
  induction links generalizing front e with
  | nil => exact hf
  | cons l links ih =>
    obtain ⟨hop, hlinks⟩ := List.forall_mem_cons.1 hl
    obtain ⟨op, right⟩ := l
    obtain rfl : op = .minus := hop
    rw [List.foldl_cons, link_tight hf]
    exact ih hlinks (List.forall_mem_singleton.2 rfl)

/-- Minus signs leave what waits in front of them waiting. -/
theorem foldl_link_tight (hb : ∀ p ∈ base.head?, p.2 ≠ .minus) {links : List (Infix × Expr)}
    (hl : ∀ l ∈ links, l.1 = .minus) (hf : front.Tight) :
    links.foldl link (front ++ base, e) =
      ((links.foldl link (front, e)).1 ++ base, (links.foldl link (front, e)).2) := by
  induction links generalizing front e with
  | nil => rfl
  | cons l links ih =>
    obtain ⟨hl, hlinks⟩ := List.forall_mem_cons.1 hl
    obtain ⟨op, right⟩ := l
    obtain rfl : op = .minus := hl
    have hnext : Tight [(front.total e, Infix.minus)] := List.forall_mem_singleton.2 rfl
    have hlong : link (front ++ base, e) (.minus, right) =
        ([(front.total e, Infix.minus)] ++ base, right) := link_minus hf hb right
    rw [List.foldl_cons, List.foldl_cons, hlong, link_tight hf, ih hlinks hnext]

theorem Held.total {P : Expr → Prop} (h : ps.Held P) (e : Expr) :
    ∃ op left right, ps.total e = .binary op left right ∧ op ≠ .minus ∧ P left := by
  obtain ⟨front, left, op, rfl, -, hop, hleft⟩ := h
  exact ⟨op, left, front.total e, total_append, hop, hleft⟩

theorem Held.link {P : Expr → Prop} (hP : ∀ op left right, P (.binary op left right))
    {s : Pending × Expr} (h : s.1.Held P) (l : Infix × Expr) : (Pending.link s l).1.Held P := by
  obtain ⟨ps, e⟩ := s
  obtain ⟨op, right⟩ := l
  by_cases hop : op = .minus
  · obtain rfl := hop
    obtain ⟨front, left, op, rfl, hfront, hop, hleft⟩ := h
    rw [link_held hfront hop]
    exact ⟨[(front.total e, .minus)], left, op, rfl, List.forall_mem_singleton.2 rfl, hop, hleft⟩
  · obtain ⟨op', left, right', htotal, -, -⟩ := h.total e
    rw [link_loose hop, htotal]
    exact ⟨[], _, op, rfl, fun _ hp => absurd hp List.not_mem_nil, hop, hP op' left right'⟩

theorem Held.foldl_link {P : Expr → Prop} (hP : ∀ op left right, P (.binary op left right))
    {s : Pending × Expr} (h : s.1.Held P) (links : List (Infix × Expr)) :
    (links.foldl Pending.link s).1.Held P := by
  induction links generalizing s with
  | nil => exact h
  | cons l links ih => exact ih (h.link hP l)

/-- Once there is a weaker operator, it waits with everything before it as its operand. -/
theorem held_foldl_link {P : Expr → Prop} (hP : ∀ op left right, P (.binary op left right))
    {links : List (Infix × Expr)} (hl : ∃ l ∈ links, l.1 ≠ .minus) {s : Pending × Expr}
    (hs : s.1 = [] → ∀ e, P e) : (links.foldl link s).1.Held P := by
  induction links generalizing s with
  | nil =>
    obtain ⟨l, hmem, -⟩ := hl
    exact absurd hmem List.not_mem_nil
  | cons l links ih =>
    obtain ⟨ps, e⟩ := s
    obtain ⟨op, right⟩ := l
    by_cases hop : op = .minus
    · refine ih ?_ nofun
      obtain ⟨l, hmem, hl⟩ := hl
      rcases List.mem_cons.1 hmem with rfl | hmem
      · exact absurd hop hl
      · exact ⟨l, hmem, hl⟩
    · refine Held.foldl_link hP ?_ links
      rw [link_loose hop]
      refine ⟨[], ps.total e, op, rfl, fun _ hp => absurd hp List.not_mem_nil, hop, ?_⟩
      -- If anything waits, the operand of the new operator is a binary expression already.
      cases ps with
      | nil => exact hs rfl _
      | cons p ps =>
        have hbinary (ps : Pending) (op : Infix) (left right : Expr) :
            P (ps.total (.binary op left right)) := by
          induction ps generalizing op left right with
          | nil => exact hP op left right
          | cons p ps ih => exact ih _ _ _
        exact hbinary ps _ _ _

end Pending

namespace Chain

def run (ps : Pending) (ch : Chain) : Pending × Expr := ch.links.foldl Pending.link (ps, ch.head)

def value (ch : Chain) : Expr := (ch.run []).1.total (ch.run []).2

def isLoose (ch : Chain) : Bool := ch.links.any (·.1 != .minus)

theorem isLoose_iff (ch : Chain) : ch.isLoose = true ↔ ∃ l ∈ ch.links, l.1 ≠ .minus := by
  simp [isLoose]

theorem not_isLoose_iff (ch : Chain) : ch.isLoose = false ↔ ∀ l ∈ ch.links, l.1 = .minus := by
  simp [isLoose]

/-- Wherever an operand may stand, the tokens are read as the chain. -/
def Reads (ts : List ExprToken) (ch : Chain) : Prop :=
  ∀ groups ps rest, (ts ++ rest).foldlM ExprReader.step ⟨groups, ps, .start⟩ =
    rest.foldlM ExprReader.step ⟨groups, (ch.run ps).1, .operand (ch.run ps).2⟩

variable {ch : Chain}

theorem Reads.readTokens {ts : List ExprToken} (h : Reads ts ch) :
    Expr.readTokens ts = some ch.value := by
  have hts := h [] [] []
  rw [List.append_nil] at hts
  rw [Expr.readTokens, hts]
  rfl

theorem tight_run (h : ch.isLoose = false) : (ch.run []).1.Tight :=
  Pending.tight_foldl_link ((not_isLoose_iff ch).1 h) fun _ hp => absurd hp List.not_mem_nil

theorem held_run (h : ch.isLoose = true) : (ch.run []).1.Held fun _ => True :=
  Pending.held_foldl_link (fun _ _ _ => trivial) ((isLoose_iff ch).1 h) fun _ _ => trivial

end Chain
end SqlComposer
