import Mathlib.Data.List.Basic
import SqlComposer.Dialect.Basic
import SqlComposer.Clause.Projection

/-! Placeholders in texts: how many a text holds, and the text that is left when values are written
in their places. The texts that the library itself puts between the texts of its callers hold none,
but for those of operators and casts. -/

namespace SqlComposer

def marks (s : String) : Nat := s.toList.count '?'

@[simp] theorem marks_append (a b : String) : marks (a ++ b) = marks a + marks b := by
  simp [marks]

theorem marks_intercalate_eq_zero {separator : String} (hs : marks separator = 0) {ss : List String}
    (h : ∀ s ∈ ss, marks s = 0) : marks (separator.intercalate ss) = 0 := by
  induction ss with
  | nil => rfl
  | cons s ss ih =>
    cases ss with
    | nil => simpa using h
    | cons t ts =>
      rw [String.intercalate_cons_cons, marks_append, marks_append, hs, h s (by simp),
        ih fun x hx => h x (List.mem_cons_of_mem _ hx)]

theorem marks_intercalate {separator : String} (hs : marks separator = 0) {ss : List String} {n : Nat}
    (h : ∀ s ∈ ss, marks s = n) : marks (separator.intercalate ss) = ss.length * n := by
  induction ss with
  | nil => simp [marks]
  | cons s ss ih =>
    cases ss with
    | nil => simpa using h
    | cons t ts =>
      rw [String.intercalate_cons_cons, marks_append, marks_append, hs, h s (by simp),
        ih fun x hx => h x (List.mem_cons_of_mem _ hx), List.length_cons (a := s), Nat.add_mul]
      omega

theorem marks_eq_zero_iff (s : String) : marks s = 0 ↔ '?' ∉ s.toList := List.count_eq_zero

theorem not_mem_toString_nat {c : Char} (hc : c.isDigit = false) (n : Nat) :
    c ∉ (toString n).toList := by
  intro h
  have hdigits : c ∈ Nat.toDigits 10 n := by simpa [Nat.repr] using h
  have hd := Nat.isDigit_of_mem_toDigits (b := 10) (by decide) (by decide) hdigits
  exact Bool.false_ne_true (hc.symm.trans hd)

theorem marks_nat (n : Nat) : marks (toString n) = 0 :=
  (marks_eq_zero_iff _).2 (not_mem_toString_nat (by decide) n)

theorem marks_int (n : Int) : marks (toString n) = 0 := by
  cases n with
  | ofNat n => exact marks_nat n
  | negSucc n =>
    have h : toString (Int.negSucc n) = "-" ++ toString (n + 1) := rfl
    rw [h, marks_append, marks_nat]
    decide

theorem marks_placeholders (n : Nat) : marks (", ".intercalate (List.replicate n placeholder)) = n := by
  rw [marks_intercalate (by decide) (n := 1), List.length_replicate, Nat.mul_one]
  intro s hs
  rw [List.eq_of_mem_replicate hs]
  decide

/-- A text with its placeholders replaced, from left to right, by the values as `shown` writes them.
-/
def substitute (shown : Value → String) : List Char → List Value → List Char
  | [], _ => []
  | c :: cs, vs =>
    if c = '?' then
      match vs with
      | [] => c :: substitute shown cs []
      | v :: vs => (shown v).toList ++ substitute shown cs vs
    else c :: substitute shown cs vs

variable (shown : Value → String)

theorem substitute_append {as : List Char} {vs : List Value} (h : as.count '?' = vs.length)
    (bs : List Char) (ws : List Value) :
    substitute shown (as ++ bs) (vs ++ ws) = substitute shown as vs ++ substitute shown bs ws := by
  induction as generalizing vs with
  | nil =>
    obtain rfl : vs = [] := List.length_eq_zero_iff.1 (by simpa using h.symm)
    rfl
  | cons c cs ih =>
    by_cases hc : c = '?'
    · subst hc
      cases vs with
      | nil => simp at h
      | cons v vs =>
        have hcs : cs.count '?' = vs.length := by simpa using h
        simp [substitute, ih hcs]
    · have hcs : cs.count '?' = vs.length := by rwa [List.count_cons_of_ne hc] at h
      simp [substitute, hc, ih hcs]

theorem substitute_of_count_eq_zero {cs : List Char} (h : cs.count '?' = 0) (vs : List Value) :
    substitute shown cs vs = cs := by
  induction cs with
  | nil => rfl
  | cons c cs ih =>
    have hc : c ≠ '?' := by rintro rfl; simp at h
    rw [List.count_cons_of_ne hc] at h
    simp [substitute, hc, ih h]

theorem Operator.marks_name (op : Operator) : marks op.name = 0 := by cases op <;> decide

theorem Operator.marks_fullName (op : Operator) : marks op.fullName = 0 := by cases op <;> decide

theorem Phrase.marks_within (p : Phrase) : marks p.within = marks p.alone := by
  cases p with
  | text s => rfl
  | operator op => rw [within, alone, op.marks_name, op.marks_fullName]

theorem Phrase.marks_besideAlias (asName : Option String) (p : Phrase) :
    marks (p.besideAlias asName) = marks p.alone := by
  unfold besideAlias
  split
  · exact p.marks_within
  · rfl

theorem marks_aliased (name : String) (asName : Option String) :
    marks (aliased name asName) = marks name + (asName.map marks).getD 0 := by
  cases asName with
  | none => rfl
  | some a =>
    have h : marks " AS " = 0 := by decide
    simp [aliased, h]

theorem Operator.marks_predicateOver (op : Operator) {column : String} (h : marks column = 0)
    (values : String) :
    marks (op.predicateOver column values) =
      op.valueCount + if op.takesCollection then marks values else 0 := by
  cases op <;>
    simp_all [predicateOver, template, valueCount, takesCollection, marks, placeholder]

theorem Operator.marks_predicate (op : Operator) {column : String} (h : marks column = 0)
    (hop : op.takesCollection = false) : marks (op.predicate column) = op.valueCount := by
  rw [predicate, op.marks_predicateOver h, hop]
  rfl

theorem Dialect.marks_regexp {d : Dialect} {negated : Bool} {column text : String}
    (h : marks column = 0) (ht : d.regexp negated column = .ok text) : marks text = 1 := by
  unfold regexp at ht
  split at ht <;> cases ht <;> cases negated <;> simp_all [marks]

theorem Dialect.marks_arrayLiteral {d : Dialect} {size : Nat} {text : String}
    (ht : d.arrayLiteral size = .ok text) : marks text = size := by
  unfold arrayLiteral at ht
  split at ht <;> cases ht
  have hopening : marks "ARRAY[" = 0 := by decide
  have hclosing : marks "]" = 0 := by decide
  rw [marks_append, marks_append, marks_placeholders, hopening, hclosing, Nat.zero_add, Nat.add_zero]

theorem Dialect.marks_uuidFunction {d : Dialect} {text : String} (ht : d.uuidFunction = .ok text) :
    marks text = 0 := by
  unfold uuidFunction at ht
  split at ht <;> cases ht
  · decide
  · split_ifs <;> decide

theorem marks_stringLiteral (s : String) : marks (stringLiteral s) = marks s := by
  have h (cs : List Char) :
      (cs.flatMap fun c => if c = '\'' then ['\'', '\''] else [c]).count '?' = cs.count '?' := by
    induction cs with
    | nil => rfl
    | cons c cs ih =>
      rw [List.flatMap_cons, List.count_append, ih]
      split_ifs with hc
      · subst hc
        simp
      · simp [List.count_cons, Nat.add_comm]
  simp [marks, stringLiteral, h]

theorem Dialect.marks_nextValue {d : Dialect} {sequence : Phrase} {text : String}
    (h : marks sequence.alone = 0) (ht : d.nextValue sequence = .ok text) : marks text = 0 := by
  unfold nextValue at ht
  split at ht <;> cases ht
  · rw [marks_append, sequence.marks_within, h]
    decide
  · rw [marks_append, marks_append, marks_stringLiteral, h]
    decide

theorem Dialect.marks_arrayAppend {d : Dialect} {column text : String} (h : marks column = 0)
    (ht : d.arrayAppend column = .ok text) : marks text = 1 := by
  unfold arrayAppend at ht
  split at ht <;> cases ht
  simp_all [marks]

theorem Dialect.marks_arrayRemove {d : Dialect} {column text : String} (h : marks column = 0)
    (ht : d.arrayRemove column = .ok text) : marks text = 1 := by
  unfold arrayRemove at ht
  split at ht <;> cases ht
  simp_all [marks]

theorem Family.marks_windowText (f : Family) {limit : Option String} {offset : String}
    (hl : ∀ n ∈ limit, marks n = 0) (ho : marks offset = 0) (skips : Bool) :
    marks (f.windowText limit offset skips) = 0 := by
  cases f <;> cases limit <;> cases skips <;> simp_all [windowText, unboundedLimit?, marks]

theorem Family.marks_window (f : Family) (limit : Option Int) (offset : Int) :
    marks (f.window limit offset) = 0 := by
  apply f.marks_windowText _ (marks_int offset)
  intro n hn
  obtain ⟨i, -, rfl⟩ := Option.map_eq_some_iff.1 (Option.mem_def.1 hn)
  exact marks_int i

end SqlComposer
