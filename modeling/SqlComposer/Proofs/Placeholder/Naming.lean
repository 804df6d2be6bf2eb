import SqlComposer.Proofs.Placeholder.Text
import SqlComposer.Naming

/-! Naming conventions and placeholders: the maps of letter case lead to a digit or to one of the marks in
front of the letters from no other character, so a key without a placeholder becomes a column name
without one. -/

namespace SqlComposer

namespace Text

theorem ofNat_ne {m : Char} (hm : 0 < m.toNat) {n : Nat} (h : n ≠ m.toNat) : Char.ofNat n ≠ m := by
  rintro rfl
  by_cases hvalid : n.isValidChar
  · refine h ?_
    rw [Char.ofNat, dif_pos hvalid]
    rfl
  · rw [Char.ofNat, dif_neg hvalid] at hm
    exact absurd hm (by decide)

theorem CaseRun.le_apply {r : CaseRun} (hr : 64 ≤ (r.first : Int) + r.shift) {n : Nat}
    (hn : r.covers n) : 64 ≤ r.apply n := by
  have hfirst : r.first ≤ n := by
    simp only [covers, Bool.and_eq_true, decide_eq_true_eq] at hn
    exact hn.1.1
  unfold apply
  omega

variable {m c : Char} (hm : 0 < m.toNat ∧ m.toNat < 64)
include hm

theorem not_mem_mapByTables {expansions : List (Nat × List Nat)} {runs : List CaseRun}
    (he : ∀ e ∈ expansions, ∀ n ∈ e.2, 64 ≤ n) (hr : ∀ r ∈ runs, 64 ≤ (r.first : Int) + r.shift)
    (hc : c ≠ m) : m ∉ mapByTables expansions runs c := by
  unfold mapByTables
  split
  · next e hfind =>
    intro hmem
    obtain ⟨n, hn, hmark⟩ := List.mem_map.1 hmem
    have hlarge := he e (List.mem_of_find?_eq_some hfind) n hn
    exact ofNat_ne hm.1 (by omega) hmark
  · split
    · next r hfind =>
      intro hmem
      have hcovers := List.find?_some hfind
      have hlarge := CaseRun.le_apply (hr r (List.mem_of_find?_eq_some hfind)) hcovers
      exact ofNat_ne hm.1 (by omega) (List.mem_singleton.1 hmem).symm
    · exact fun hmem => hc (List.mem_singleton.1 hmem).symm

theorem not_mem_ascii {f : Char → Char}
    (hf : ∀ n < 0x80, (f (Char.ofNat n)).toNat < 64 → f (Char.ofNat n) = Char.ofNat n)
    (hsmall : c.toNat < 0x80) (hc : c ≠ m) : m ∉ [f c] := by
  intro hmem
  have hmark := List.mem_singleton.1 hmem
  have hsame := hf c.toNat hsmall
  rw [Char.ofNat_toNat, ← hmark] at hsame
  exact hc (hsame hm.2).symm

theorem not_mem_lowerChar (hc : c ≠ m) : m ∉ lowerChar c := by
  unfold lowerChar
  split
  · next hsmall => exact not_mem_ascii hm (by decide +kernel) hsmall hc
  · exact not_mem_mapByTables hm (by decide +kernel) (by decide +kernel) hc

theorem not_mem_upperChar (hc : c ≠ m) : m ∉ upperChar c := by
  unfold upperChar
  split
  · next hsmall => exact not_mem_ascii hm (by decide +kernel) hsmall hc
  · exact not_mem_mapByTables hm (by decide +kernel) (by decide +kernel) hc

end Text

namespace Naming

theorem mark_not_mem_snakeFrom {cs : List Char} (h : '?' ∉ cs) (last : Option Char)
    (afterCapital : Bool) : '?' ∉ snakeFrom last afterCapital cs := by
  induction cs generalizing last afterCapital with
  | nil => exact List.not_mem_nil
  | cons c cs ih =>
    obtain ⟨hc, hcs⟩ := List.ne_and_not_mem_of_not_mem_cons h
    rw [snakeFrom]
    split
    · have hsmall := Text.not_mem_lowerChar (by decide) (Ne.symm hc)
      have hrest := ih hcs
      simp only [List.mem_append, not_or]
      refine ⟨⟨?_, hsmall⟩, hrest _ _⟩
      split <;> decide
    · exact List.not_mem_cons_of_ne_of_not_mem hc (ih hcs _ _)

theorem mark_not_mem_camelFrom {cs : List Char} (h : '?' ∉ cs) (raised : Bool) :
    '?' ∉ camelFrom raised cs := by
  induction cs generalizing raised with
  | nil => exact List.not_mem_nil
  | cons c cs ih =>
    obtain ⟨hc, hcs⟩ := List.ne_and_not_mem_of_not_mem_cons h
    rw [camelFrom]
    split
    · exact ih hcs _
    · refine List.not_mem_append ?_ (ih hcs _)
      cases raised with
      | true => exact Text.not_mem_upperChar (by decide) (Ne.symm hc)
      | false => exact Text.not_mem_lowerChar (by decide) (Ne.symm hc)

theorem mark_not_mem_snakeChars {cs : List Char} (h : '?' ∉ cs) : '?' ∉ snakeChars cs := by
  unfold snakeChars
  split
  · exact mark_not_mem_snakeFrom (List.not_mem_of_not_mem_cons h) _ _
  · exact mark_not_mem_snakeFrom h _ _

theorem mark_not_mem_camelChars {cs : List Char} (h : '?' ∉ cs) : '?' ∉ camelChars cs := by
  unfold camelChars
  split
  · exact List.not_mem_nil
  · next c cs =>
    obtain ⟨hc, hcs⟩ := List.ne_and_not_mem_of_not_mem_cons h
    exact List.not_mem_append (Text.not_mem_upperChar (by decide) (Ne.symm hc))
      (mark_not_mem_camelFrom (List.not_mem_of_not_mem_cons hcs) _)
  · obtain ⟨hc, hcs⟩ := List.ne_and_not_mem_of_not_mem_cons h
    exact List.not_mem_append (Text.not_mem_lowerChar (by decide) (Ne.symm hc))
      (mark_not_mem_camelFrom hcs _)

theorem marks_convert (n : Naming) {name : String} (h : marks name = 0) :
    marks (n.convert name) = 0 := by
  have hname := (marks_eq_zero_iff name).1 h
  cases n with
  | identity => exact h
  | snake =>
    rw [convert, toSnakeCase]
    split
    · exact h
    · next cs hcs =>
      have hchars := mark_not_mem_snakeChars hname
      rw [marks_eq_zero_iff, String.toList_ofList]
      exact hchars
  | camel =>
    rw [convert, toCamelCase]
    split
    · exact h
    · rw [marks_eq_zero_iff, String.toList_ofList]
      exact mark_not_mem_camelChars hname

end Naming
end SqlComposer
