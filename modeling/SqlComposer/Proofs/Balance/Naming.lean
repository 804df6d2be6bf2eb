import SqlComposer.Proofs.Balance.Text
import SqlComposer.Proofs.Placeholder.Naming

/-! Naming conventions and parentheses: letter case leads from a parenthesis to itself and from no other
character to one, so a column name has the shape of its key. -/

namespace SqlComposer

namespace Text

theorem ofChars_lowerChar (c : Char) : Shape.ofChars (lowerChar c) = Shape.ofChar c := by
  by_cases ho : c = '('
  · subst ho
    decide
  by_cases hc : c = ')'
  · subst hc
    decide
  have hopening := not_mem_lowerChar (m := '(') (by decide) ho
  have hclosing := not_mem_lowerChar (m := ')') (by decide) hc
  rw [Shape.ofChars_of_not_mem hopening hclosing, Shape.ofChar, if_neg ho, if_neg hc]

theorem ofChars_upperChar (c : Char) : Shape.ofChars (upperChar c) = Shape.ofChar c := by
  by_cases ho : c = '('
  · subst ho
    decide
  by_cases hc : c = ')'
  · subst hc
    decide
  have hopening := not_mem_upperChar (m := '(') (by decide) ho
  have hclosing := not_mem_upperChar (m := ')') (by decide) hc
  rw [Shape.ofChars_of_not_mem hopening hclosing, Shape.ofChar, if_neg ho, if_neg hc]

end Text

namespace Naming
open Shape

theorem ofChar_underscore : ofChar '_' = 1 := by decide

theorem ofChars_snakeFrom (cs : List Char) (last : Option Char) (afterCapital : Bool) :
    ofChars (snakeFrom last afterCapital cs) = ofChars cs := by
  induction cs generalizing last afterCapital with
  | nil => rfl
  | cons c cs ih =>
    rw [snakeFrom]
    split
    · simp only [ofChars_append, Text.ofChars_lowerChar, ih, ofChars_cons]
      split <;> simp [ofChar_underscore]
    · rw [ofChars_cons, ih, ofChars_cons]

theorem ofChars_camelFrom (cs : List Char) (raised : Bool) :
    ofChars (camelFrom raised cs) = ofChars cs := by
  induction cs generalizing raised with
  | nil => rfl
  | cons c cs ih =>
    rw [camelFrom]
    split_ifs with hc hraised
    · rw [ih, ofChars_cons, hc, ofChar_underscore, one_mul]
    · rw [ofChars_append, Text.ofChars_upperChar, ih, ofChars_cons]
    · rw [ofChars_append, Text.ofChars_lowerChar, ih, ofChars_cons]

theorem ofChars_snakeChars (cs : List Char) : ofChars (snakeChars cs) = ofChars cs := by
  unfold snakeChars
  split
  · rw [ofChars_snakeFrom, ofChars_cons, ofChar_underscore, one_mul]
  · exact ofChars_snakeFrom ..

theorem ofChars_camelChars (cs : List Char) : ofChars (camelChars cs) = ofChars cs := by
  unfold camelChars
  split
  · rfl
  · rw [ofChars_append, Text.ofChars_upperChar, ofChars_camelFrom, ofChars_cons, ofChars_cons,
      ofChar_underscore, one_mul]
  · rw [ofChars_append, Text.ofChars_lowerChar, ofChars_camelFrom, ofChars_cons]

theorem shape_convert (n : Naming) (name : String) : shape (n.convert name) = shape name := by
  cases n with
  | identity => rfl
  | snake =>
    rw [convert, toSnakeCase]
    split
    · rfl
    · rw [shape_ofList, ofChars_snakeChars, shape]
  | camel =>
    rw [convert, toCamelCase]
    split
    · rfl
    · rw [shape_ofList, ofChars_camelChars, shape]

end Naming
end SqlComposer
