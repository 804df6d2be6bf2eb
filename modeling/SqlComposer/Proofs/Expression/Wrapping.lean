import Mathlib.Data.List.Basic
import Mathlib.Data.List.Induction
import SqlComposer.Proofs.Expression.Chain

/-! Wrapping: what is put around an expression, as text and as meant. The text is read as meant while
the operator that is put beside the inner expression gets the whole of it; a minus behind an operator
that binds less strongly gets only its right operand, and an operator in front of one only its left. -/

namespace SqlComposer

/-- Something that happens at a member and lasts until the end of a list: it happens at the last member,
or it has happened before and the last member does not end it. -/
theorem exists_split_concat {α : Type} {P : List α → α → Prop} {Q : α → Prop} (xs : List α)
    (last : α) :
    (∃ before x after, xs ++ [last] = before ++ x :: after ∧ P before x ∧ ∀ y ∈ after, Q y) ↔
      P xs last ∨
        ((∃ before x after, xs = before ++ x :: after ∧ P before x ∧ ∀ y ∈ after, Q y) ∧ Q last) := by
  constructor
  · rintro ⟨before, x, after, h, hP, hafter⟩
    rcases after.eq_nil_or_concat' with rfl | ⟨rest, y, rfl⟩
    · obtain ⟨rfl, hlast⟩ := List.append_inj' h rfl
      obtain rfl := List.singleton_inj.1 hlast
      exact .inl hP
    · have hsplit : xs ++ [last] = (before ++ x :: rest) ++ [y] := by simpa using h
      obtain ⟨hxs, hlast⟩ := List.append_inj' hsplit rfl
      obtain rfl := List.singleton_inj.1 hlast
      obtain ⟨hrest, hy⟩ := List.forall_mem_append.1 hafter
      exact .inr ⟨⟨before, x, rest, hxs, hP, hrest⟩, hy last List.mem_cons_self⟩
  · rintro (hP | ⟨⟨before, x, after, rfl, hP, hafter⟩, hlast⟩)
    · exact ⟨xs, last, [], rfl, hP, fun _ hy => absurd hy List.not_mem_nil⟩
    · refine ⟨before, x, after ++ [last], by simp, hP, ?_⟩
      exact List.forall_mem_append.2 ⟨hafter, List.forall_mem_singleton.2 hlast⟩

inductive Wrapping where
  | alone (e : Expr)
  | behind (op : Infix) (right : Expr)
  /-- A cast in front, joined to what follows. -/
  | ahead (left : Expr) (type : String)
  | within (function : String) (others : List Expr)

namespace Wrapping

def applied (inner : Expr) : Wrapping → Expr
  | alone e => e
  | behind op right => .binary op inner right
  | ahead left type => .binary .concat (.cast left type) inner
  | within function others => .call function (inner :: others)

def around (inner : Chain) : Wrapping → Chain
  | alone e => ⟨e, []⟩
  | behind op right => ⟨inner.head, inner.links ++ [(op, right)]⟩
  | ahead left type => ⟨.cast left type, (.concat, inner.head) :: inner.links⟩
  | within function others => ⟨.call function (inner.value :: others), []⟩

def tokens (inner : List ExprToken) : Wrapping → List ExprToken
  | alone e => e.tokens
  | behind op right => inner ++ .operator op :: right.tokens
  | ahead left type => (Expr.cast left type).tokens ++ .operator .concat :: inner
  | within function others =>
    .opening (.call function) :: inner ++ others.flatMap (fun e => .comma :: e.tokens)
      ++ [.closing false]

def loosens : Wrapping → Bool
  | behind op _ => op != .minus
  | ahead .. => true
  | alone _ | within .. => false

def encloses : Wrapping → Bool
  | alone _ | within .. => true
  | behind .. | ahead .. => false

/-- Whether the written operator gets only a part of an inner expression that a weaker operator
stands in. -/
def takesPart : Wrapping → Bool
  | behind op _ => op == .minus
  | ahead .. => true
  | alone _ | within .. => false

def replaces : Wrapping → Bool
  | alone _ => true
  | behind .. | ahead .. | within .. => false

variable {ch : Chain} {w : Wrapping}

theorem isLoose_around (w : Wrapping) (ch : Chain) :
    (w.around ch).isLoose = (w.loosens || (ch.isLoose && !w.encloses)) := by
  cases w with
  | alone | within => simp [around, Chain.isLoose, loosens, encloses]
  | behind op right => simp [around, Chain.isLoose, loosens, encloses, Bool.or_comm]
  | ahead left type => simp [around, Chain.isLoose, loosens]

theorem run_behind (op : Infix) (right : Expr) (ch : Chain) (ps : Pending) :
    ((behind op right).around ch).run ps = Pending.link (ch.run ps) (op, right) :=
  List.foldl_append

theorem value_behind_loose {op : Infix} (h : op ≠ .minus) (ch : Chain) (right : Expr) :
    ((behind op right).around ch).value = .binary op ch.value right := by
  have hrun : ((behind op right).around ch).run [] = ([(ch.value, op)], right) := by
    rw [run_behind]
    exact Pending.link_loose h right
  rw [Chain.value, hrun]
  rfl

theorem value_behind_minus (h : ch.isLoose = false) (right : Expr) :
    ((behind .minus right).around ch).value = .binary .minus ch.value right := by
  have hrun : ((behind .minus right).around ch).run [] = ([(ch.value, .minus)], right) := by
    rw [run_behind]
    exact Pending.link_tight (Chain.tight_run h) right
  rw [Chain.value, hrun]
  rfl

theorem value_ahead (h : ch.isLoose = false) (left : Expr) (type : String) :
    ((ahead left type).around ch).value = .binary .concat (.cast left type) ch.value := by
  have hrun : ((ahead left type).around ch).run [] =
      ((ch.run []).1 ++ [(.cast left type, .concat)], (ch.run []).2) :=
    Pending.foldl_link_tight (by simp) ((Chain.not_isLoose_iff ch).1 h)
      fun _ hp => absurd hp List.not_mem_nil
  rw [Chain.value, hrun, Pending.total_append]
  rfl

theorem value_around (h : (ch.isLoose && w.takesPart) = false) :
    (w.around ch).value = w.applied ch.value := by
  cases w with
  | alone | within => rfl
  | behind op right =>
    by_cases hop : op = .minus
    · subst hop
      exact value_behind_minus (by simpa [takesPart] using h) right
    · exact value_behind_loose hop ch right
  | ahead left type => exact value_ahead (by simpa [takesPart] using h) left type

theorem value_around_ne (h : (ch.isLoose && w.takesPart) = true) (inner : Expr) :
    (w.around ch).value ≠ w.applied inner := by
  obtain ⟨hloose, htakes⟩ := Bool.and_eq_true_iff.1 h
  cases w with
  | alone | within => cases htakes
  | behind op right =>
    obtain rfl : op = .minus := by simpa [takesPart] using htakes
    obtain ⟨front, left, op, hrun, hfront, hop, -⟩ := Chain.held_run hloose
    have hlink : ((behind .minus right).around ch).run [] =
        ((front.total (ch.run []).2, .minus) :: [(left, op)], right) := by
      have hlink := Pending.link_held (e := (ch.run []).2) hfront hop left right
      rw [← hrun] at hlink
      rw [run_behind]
      exact hlink
    rw [Chain.value, hlink]
    -- The operator at the top is the one that was there before.
    intro heq
    exact hop (Expr.binary.inj heq).1
  | ahead left type =>
    have hheld : (((ahead left type).around ch).run []).1.Held
        fun e => ∃ op left right, e = .binary op left right :=
      Pending.held_foldl_link (fun op left right => ⟨op, left, right, rfl⟩)
        (s := Pending.link ([], .cast left type) (.concat, ch.head))
        ((Chain.isLoose_iff ch).1 hloose) nofun
    obtain ⟨op, first, second, htotal, -, op', left', right', rfl⟩ :=
      hheld.total (((ahead left type).around ch).run []).2
    rw [Chain.value, htotal]
    -- The left operand at the top is a binary expression, where a cast was meant.
    intro heq
    exact Expr.noConfusion (Expr.binary.inj heq).2.1

theorem applied_inj {e e' : Expr} : w.applied e = w.applied e' ↔ w.replaces = true ∨ e = e' := by
  cases w with
  | alone | behind | ahead | within => simp [applied, replaces]

/-- The text is read as meant exactly if the inner text was and nothing takes only a part of it, or
if nothing is left of it. -/
theorem value_around_eq_iff {inner : Expr} :
    (w.around ch).value = w.applied inner ↔
      (ch.isLoose && w.takesPart) = false ∧ (w.replaces = true ∨ ch.value = inner) := by
  cases h : ch.isLoose && w.takesPart with
  | false => simp [value_around h, applied_inj]
  | true => simp [value_around_ne h inner]

theorem foldlM_arguments (function : String) (others items : List Expr) (e : Expr)
    (outer ps : Pending) (groups : List ExprGroup) (rest : List ExprToken) :
    (others.flatMap (fun e => .comma :: e.tokens) ++ .closing false :: rest).foldlM ExprReader.step
        ⟨⟨.call function, items, outer⟩ :: groups, ps, .operand e⟩ =
      rest.foldlM ExprReader.step
        ⟨groups, outer, .operand (.call function (items ++ ps.total e :: others))⟩ := by
  induction others generalizing items e ps with
  | nil => exact Expr.foldlM_cons_of_step rfl rest
  | cons other others ih =>
    have hitems : items ++ ps.total e :: other :: others =
        (items ++ [ps.total e]) ++ Pending.total [] other :: others :=
      (List.append_assoc items [ps.total e] (other :: others)).symm
    rw [List.flatMap_cons, List.cons_append, List.cons_append, Expr.foldlM_cons_of_step rfl,
      List.append_assoc, Expr.foldlM_tokens, ih, hitems]

theorem reads_around {ts : List ExprToken} (h : ch.Reads ts) (w : Wrapping) :
    (w.around ch).Reads (w.tokens ts) := by
  intro groups ps rest
  cases w with
  | alone e => exact Expr.foldlM_tokens e groups ps rest
  | behind op right =>
    rw [tokens, List.append_assoc, h, run_behind, List.cons_append, Expr.foldlM_cons_of_step rfl,
      Expr.foldlM_tokens]
    rfl
  | ahead left type =>
    rw [tokens, List.append_assoc, Expr.foldlM_tokens, List.cons_append,
      Expr.foldlM_cons_of_step rfl, h]
    rfl
  | within function others =>
    rw [tokens, List.append_assoc, List.append_assoc, List.cons_append,
      Expr.foldlM_cons_of_step rfl, h]
    exact foldlM_arguments function others [] _ ps _ groups rest

def written (start : Chain) (ws : List Wrapping) : Chain :=
  ws.foldl (fun ch w => w.around ch) start

def meant (start : Expr) (ws : List Wrapping) : Expr :=
  ws.foldl (fun e w => w.applied e) start

def Exposed (ws : List Wrapping) : Prop :=
  ∃ before w after, ws = before ++ w :: after ∧ w.loosens ∧ ∀ x ∈ after, ¬x.encloses

/-- An operator that gets only a part of what was written before it, and is not replaced later. -/
def Misread (ws : List Wrapping) : Prop :=
  ∃ before w after, ws = before ++ w :: after ∧ Exposed before ∧ w.takesPart ∧
    ∀ x ∈ after, ¬x.replaces

variable {ws : List Wrapping}

theorem not_exposed_nil : ¬Exposed [] := by
  rintro ⟨before, w, after, h, -⟩
  simp at h

theorem not_misread_nil : ¬Misread [] := by
  rintro ⟨before, w, after, h, -⟩
  simp at h

theorem exposed_concat (last : Wrapping) :
    Exposed (ws ++ [last]) ↔ last.loosens ∨ (Exposed ws ∧ ¬last.encloses) :=
  exists_split_concat ws last

theorem misread_concat (last : Wrapping) :
    Misread (ws ++ [last]) ↔
      (Exposed ws ∧ last.takesPart) ∨ (Misread ws ∧ ¬last.replaces) := by
  have hsplit := exists_split_concat (P := fun before w => Exposed before ∧ w.takesPart)
    (Q := fun x => ¬x.replaces) ws last
  simpa only [Misread, and_assoc] using hsplit

theorem misread_pair (first second : Wrapping) :
    Misread [first, second] ↔ first.loosens ∧ second.takesPart := by
  have hsplit : [first, second] = ([] ++ [first]) ++ [second] := rfl
  rw [hsplit, misread_concat, misread_concat, exposed_concat]
  simp [not_exposed_nil, not_misread_nil]

theorem written_concat (start : Chain) (ws : List Wrapping) (last : Wrapping) :
    written start (ws ++ [last]) = last.around (written start ws) := List.foldl_append

theorem meant_concat (start : Expr) (ws : List Wrapping) (last : Wrapping) :
    meant start (ws ++ [last]) = last.applied (meant start ws) := List.foldl_append

theorem isLoose_written_iff {start : Chain} (hs : start.isLoose = false) (ws : List Wrapping) :
    (written start ws).isLoose ↔ Exposed ws := by
  induction ws using List.reverseRecOn with
  | nil => exact iff_of_false (by simp [written, hs]) not_exposed_nil
  | append_singleton ws last ih =>
    rw [written_concat, isLoose_around, exposed_concat, ← ih]
    simp

theorem value_written_eq_meant_iff {start : Chain} (hs : start.isLoose = false)
    (ws : List Wrapping) : (written start ws).value = meant start.value ws ↔ ¬Misread ws := by
  -- On the last wrapping: it sees what was written before it only as loose or not.
  induction ws using List.reverseRecOn with
  | nil => exact iff_of_true rfl not_misread_nil
  | append_singleton ws last ih =>
    have hloose := isLoose_written_iff hs ws
    rw [written_concat, meant_concat, value_around_eq_iff, ih, misread_concat, ← hloose]
    cases (written start ws).isLoose <;> cases last.takesPart <;> cases last.replaces <;> simp

end Wrapping
end SqlComposer
