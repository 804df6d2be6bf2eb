import SqlComposer.Proofs.Balance.Shape
import SqlComposer.Proofs.Placeholder.Text

/-! Shapes of the texts that the library puts together: whatever it writes around balanced texts is
balanced. Names that are converted and texts that are quoted keep their shape. -/

namespace SqlComposer
variable {column text : String}

theorem Shape.ofChars_of_not_mem {cs : List Char} (ho : '(' ∉ cs) (hc : ')' ∉ cs) : ofChars cs = 1 := by
  induction cs with
  | nil => rfl
  | cons c cs ih =>
    rw [List.mem_cons, not_or] at ho hc
    rw [ofChars_cons, ih ho.2 hc.2, ofChar, if_neg (Ne.symm ho.1), if_neg (Ne.symm hc.1), mul_one]

theorem shape_nat (n : Nat) : shape (toString n) = 1 :=
  Shape.ofChars_of_not_mem (not_mem_toString_nat (by decide) n) (not_mem_toString_nat (by decide) n)

theorem shape_int (n : Int) : shape (toString n) = 1 := by
  cases n with
  | ofNat n => exact shape_nat n
  | negSucc n =>
    have h : toString (Int.negSucc n) = "-" ++ toString (n + 1) := rfl
    rw [h, shape_append, shape_nat]
    decide

theorem shape_placeholders (n : Nat) : shape (", ".intercalate (List.replicate n placeholder)) = 1 := by
  refine shape_intercalate_eq_one (by decide) fun s hs => ?_
  rw [List.eq_of_mem_replicate hs]
  decide

theorem Operator.shape_name (op : Operator) : shape op.name = 1 := by cases op <;> decide

theorem Operator.shape_fullName (op : Operator) : shape op.fullName = 1 := by cases op <;> decide

theorem Phrase.shape_within (p : Phrase) : shape p.within = shape p.alone := by
  cases p with
  | text s => rfl
  | operator op => rw [within, alone, op.shape_name, op.shape_fullName]

theorem Phrase.shape_besideAlias (asName : Option String) (p : Phrase) :
    shape (p.besideAlias asName) = shape p.alone := by
  unfold besideAlias
  split
  · exact p.shape_within
  · rfl

theorem shape_aliased {name : String} {asName : Option String} (hn : shape name = 1)
    (ha : ∀ a ∈ asName, shape a = 1) : shape (aliased name asName) = 1 := by
  cases asName with
  | none => exact hn
  | some a =>
    simp only [aliased, shape_append, hn, ha a rfl]
    decide

theorem Operator.shape_predicateOver (op : Operator) {values : String} (hc : shape column = 1)
    (hv : shape values = 1) : shape (op.predicateOver column values) = 1 := by
  cases op <;>
    simp only [predicateOver, template, List.map, String.join, List.foldl, shape_append, hc, hv] <;>
    decide

theorem Operator.shape_predicate (op : Operator) (h : shape column = 1) :
    shape (op.predicate column) = 1 :=
  op.shape_predicateOver h (by decide)

theorem shape_stringLiteral (s : String) : shape (stringLiteral s) = shape s := by
  have h (cs : List Char) :
      Shape.ofChars (cs.flatMap fun c => if c = '\'' then ['\'', '\''] else [c]) = Shape.ofChars cs := by
    induction cs with
    | nil => rfl
    | cons c cs ih =>
      rw [List.flatMap_cons, Shape.ofChars_append, ih, Shape.ofChars_cons]
      split_ifs with hc
      · subst hc
        rfl
      · simp
  have hquote : Shape.ofChar '\'' = 1 := by decide
  simp [stringLiteral, shape, h, hquote]

namespace Dialect
variable {d : Dialect}

theorem shape_regexp {negated : Bool} (h : shape column = 1) (ht : d.regexp negated column = .ok text) :
    shape text = 1 := by
  unfold regexp at ht
  split at ht <;> cases ht <;> cases negated <;> simp only [shape_append, h] <;> decide

theorem shape_arrayLiteral {size : Nat} (ht : d.arrayLiteral size = .ok text) : shape text = 1 := by
  unfold arrayLiteral at ht
  split at ht <;> cases ht
  simp only [shape_append, shape_placeholders]
  decide

theorem shape_uuidFunction (ht : d.uuidFunction = .ok text) : shape text = 1 := by
  unfold uuidFunction at ht
  split at ht <;> cases ht
  · decide
  · split_ifs <;> decide

theorem shape_nextValue {sequence : Phrase} (h : shape sequence.alone = 1)
    (ht : d.nextValue sequence = .ok text) : shape text = 1 := by
  unfold nextValue at ht
  split at ht <;> cases ht <;>
    simp only [shape_append, shape_stringLiteral, sequence.shape_within, h] <;> decide

theorem shape_arrayAppend (h : shape column = 1) (ht : d.arrayAppend column = .ok text) :
    shape text = 1 := by
  unfold arrayAppend at ht
  split at ht <;> cases ht
  simp only [shape_append, h]
  decide

theorem shape_arrayRemove (h : shape column = 1) (ht : d.arrayRemove column = .ok text) :
    shape text = 1 := by
  unfold arrayRemove at ht
  split at ht <;> cases ht
  simp only [shape_append, h]
  decide

end Dialect

namespace Family

theorem shape_stringAppend (f : Family) (h : shape column = 1) : shape (f.stringAppend column) = 1 := by
  cases f <;> simp only [stringAppend, shape_append, h] <;> decide

theorem shape_stringPrepend (f : Family) (h : shape column = 1) :
    shape (f.stringPrepend column) = 1 := by
  cases f <;> simp only [stringPrepend, shape_append, h] <;> decide

theorem shape_windowText (f : Family) {limit : Option String} {offset : String}
    (hl : ∀ n ∈ limit, shape n = 1) (ho : shape offset = 1) (skips : Bool) :
    shape (f.windowText limit offset skips) = 1 := by
  cases limit with
  | none =>
    cases f <;> simp only [windowText, unboundedLimit?, apply_ite shape, shape_append, ho] <;>
      cases skips <;> decide
  | some n =>
    have hn := hl n rfl
    cases f <;> simp only [windowText, apply_ite shape, shape_append, hn, ho] <;>
      cases skips <;> decide

theorem shape_window (f : Family) (limit : Option Int) (offset : Int) :
    shape (f.window limit offset) = 1 := by
  apply f.shape_windowText _ (shape_int offset)
  intro n hn
  obtain ⟨i, -, rfl⟩ := Option.map_eq_some_iff.1 (Option.mem_def.1 hn)
  exact shape_int i

theorem shape_binaryCast (f : Family) : shape f.binaryCast = 1 := by cases f <;> decide

theorem shape_nowFunction (f : Family) : shape f.nowFunction = 1 := by cases f <;> decide

theorem shape_emptyInsertValues (f : Family) : shape f.emptyInsertValues = 1 := by cases f <;> decide

end Family
end SqlComposer
