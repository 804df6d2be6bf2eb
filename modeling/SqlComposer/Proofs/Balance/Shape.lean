import Mathlib.Algebra.BigOperators.Group.List.Basic
import Mathlib.Algebra.Group.Basic

/-! Parentheses in texts. A text closes some parentheses that it has not opened and leaves others open.
These two numbers make up its shape; the shape of texts one behind the other is the product of their
shapes, and a balanced text is a unit among them: it changes nothing in the shape of what it stands in. -/

namespace SqlComposer

/-- How many parentheses a text closes that were open before it, and how many it leaves open. -/
@[ext]
structure Shape where
  closed : Nat
  opened : Nat
  deriving DecidableEq, Repr

namespace Shape

instance : One Shape := ⟨⟨0, 0⟩⟩

instance : Mul Shape :=
  ⟨fun a b => ⟨a.closed + (b.closed - a.opened), a.opened - b.closed + b.opened⟩⟩

theorem mul_def (a b : Shape) :
    a * b = ⟨a.closed + (b.closed - a.opened), a.opened - b.closed + b.opened⟩ := rfl

theorem one_def : (1 : Shape) = ⟨0, 0⟩ := rfl

instance : Monoid Shape where
  mul_assoc a b c := by
    ext
    · simp only [mul_def]
      omega
    · simp only [mul_def]
      omega
  one_mul a := by simp [mul_def, one_def]
  mul_one a := by simp [mul_def, one_def]

def ofChar (c : Char) : Shape :=
  if c = '(' then ⟨0, 1⟩ else if c = ')' then ⟨1, 0⟩ else 1

def ofChars (cs : List Char) : Shape := (cs.map ofChar).prod

@[simp] theorem ofChars_nil : ofChars [] = 1 := rfl

@[simp] theorem ofChars_cons (c : Char) (cs : List Char) : ofChars (c :: cs) = ofChar c * ofChars cs :=
  List.prod_cons

@[simp] theorem ofChars_append (as bs : List Char) : ofChars (as ++ bs) = ofChars as * ofChars bs := by
  rw [ofChars, List.map_append, List.prod_append]
  rfl

end Shape

def shape (s : String) : Shape := Shape.ofChars s.toList

@[simp] theorem shape_append (a b : String) : shape (a ++ b) = shape a * shape b := by
  rw [shape, String.toList_append, Shape.ofChars_append]
  rfl

theorem shape_ofList (cs : List Char) : shape (String.ofList cs) = Shape.ofChars cs := by
  rw [shape, String.toList_ofList]

/-- The depth behind a character. It is never below zero. -/
def descend (depth : Nat) (c : Char) : Option Nat :=
  if c = '(' then some (depth + 1)
  else if c = ')' then if depth = 0 then none else some (depth - 1)
  else some depth

def scan (depth : Nat) (cs : List Char) : Option Nat := cs.foldlM descend depth

/-- From the outside the text comes back to the outside, and is never further out. -/
def Balanced (cs : List Char) : Prop := scan 0 cs = some 0

instance (cs : List Char) : Decidable (Balanced cs) := inferInstanceAs (Decidable (_ = _))

/-- A text leads on from a depth that has as many parentheses open as the text closes. -/
def Shape.leads (a : Shape) (depth : Nat) : Option Nat :=
  if a.closed ≤ depth then some (depth - a.closed + a.opened) else none

theorem Shape.leads_mul (a b : Shape) (depth : Nat) :
    (a * b).leads depth = (a.leads depth).bind b.leads := by
  unfold leads
  by_cases ha : a.closed ≤ depth
  · rw [if_pos ha, Option.bind_some]
    by_cases hb : b.closed ≤ depth - a.closed + a.opened
    · rw [if_pos hb, if_pos (by simp only [mul_def]; omega)]
      simp only [mul_def, Option.some.injEq]
      omega
    · rw [if_neg hb, if_neg (by simp only [mul_def]; omega)]
  · rw [if_neg ha, if_neg (by simp only [mul_def]; omega), Option.bind_none]

theorem leads_ofChar (depth : Nat) (c : Char) : (Shape.ofChar c).leads depth = descend depth c := by
  unfold Shape.ofChar descend
  split
  · simp [Shape.leads]
  · split
    · cases depth <;> simp [Shape.leads]
    · simp [Shape.leads, Shape.one_def]

theorem scan_eq_leads (depth : Nat) (cs : List Char) : scan depth cs = (Shape.ofChars cs).leads depth := by
  induction cs generalizing depth with
  | nil => simp [scan, Shape.leads, Shape.one_def]
  | cons c cs ih =>
    rw [Shape.ofChars_cons, Shape.leads_mul, leads_ofChar, scan, List.foldlM_cons]
    exact Option.bind_congr fun inner _ => ih inner

theorem balanced_iff {cs : List Char} : Balanced cs ↔ Shape.ofChars cs = 1 := by
  rw [Balanced, scan_eq_leads, Shape.leads, Shape.ext_iff, Shape.one_def]
  split
  · simp only [Option.some.injEq]
    omega
  · simp only [reduceCtorEq, false_iff]
    omega

theorem balanced_toList_iff {s : String} : Balanced s.toList ↔ shape s = 1 := balanced_iff

theorem shape_intercalate {separator : String} (hs : shape separator = 1) (ss : List String) :
    shape (separator.intercalate ss) = (ss.map shape).prod := by
  induction ss with
  | nil => rfl
  | cons s ss ih =>
    cases ss with
    | nil => simp
    | cons t ts =>
      rw [String.intercalate_cons_cons, shape_append, shape_append, hs, mul_one, ih, List.map_cons (l := t :: ts),
        List.prod_cons]

theorem shape_intercalate_eq_one {separator : String} (hs : shape separator = 1) {ss : List String}
    (h : ∀ s ∈ ss, shape s = 1) : shape (separator.intercalate ss) = 1 := by
  rw [shape_intercalate hs]
  exact List.prod_eq_one (List.forall_mem_map.2 h)

end SqlComposer
