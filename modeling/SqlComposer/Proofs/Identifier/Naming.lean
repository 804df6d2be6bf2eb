import SqlComposer.Proofs.Placeholder.Naming

/-! Blank column names. The maps of letter case lead from blank characters to themselves and from all
others to characters that are not blank. So a key that is not blank becomes a blank column name only if
what is not blank of it are underscores that are dropped: the first one in snake case, all behind the
first character in camel case. -/

namespace SqlComposer

namespace Text

def blankCodes : List Nat :=
  (spaceRanges ++ [(0x1C, 0x1F)]).flatMap fun r : Nat × Nat => List.range' r.1 (r.2 + 1 - r.1)

theorem isBlankChar_iff (c : Char) : isBlankChar c ↔ c.toNat ∈ blankCodes := by
  have hrange (r : Nat × Nat) :
      c.toNat ∈ List.range' r.1 (r.2 + 1 - r.1) ↔ r.1 ≤ c.toNat ∧ c.toNat ≤ r.2 := by
    rw [List.mem_range'_1]
    omega
  simp only [blankCodes, List.mem_flatMap, hrange, isBlankChar, isSpace, inRanges, ← List.any_append,
    List.any_eq_true, Bool.and_eq_true, decide_eq_true_eq]

theorem map_of_isBlankChar {c : Char} (h : isBlankChar c) :
    lowerChar c = [c] ∧ upperChar c = [c] ∧ isCapital c = false := by
  have hcodes : ∀ n ∈ blankCodes, lowerChar (Char.ofNat n) = [Char.ofNat n] ∧
      upperChar (Char.ofNat n) = [Char.ofNat n] ∧ isCapital (Char.ofNat n) = false := by
    decide +kernel
  have hc := hcodes c.toNat ((isBlankChar_iff c).1 h)
  rwa [Char.ofNat_toNat] at hc

theorem isBlankChar_ofNat {n : Nat} (h : isBlankChar (Char.ofNat n)) : n ∈ blankCodes := by
  have hcode := (isBlankChar_iff _).1 h
  by_cases hvalid : n.isValidChar
  · rwa [Char.ofNat, dif_pos hvalid] at hcode
  · rw [Char.ofNat, dif_neg hvalid] at hcode
    exact absurd hcode (by decide)

/-- The code point that a run leads to a blank one is not among those that the run covers. -/
def CaseRun.AvoidsBlank (r : CaseRun) : Prop :=
  ∀ n ∈ blankCodes, r.covers ((n : Int) - r.shift).toNat = false

instance (r : CaseRun) : Decidable r.AvoidsBlank :=
  inferInstanceAs (Decidable (∀ n ∈ blankCodes, r.covers ((n : Int) - r.shift).toNat = false))

theorem CaseRun.AvoidsBlank.apply {r : CaseRun} (hr : r.AvoidsBlank) {n : Nat} (hn : r.covers n) :
    r.apply n ∉ blankCodes := by
  intro hmem
  have hpositive : ∀ m ∈ blankCodes, 0 < m := by decide
  have hback : ((r.apply n : Int) - r.shift).toNat = n := by
    have happly := hpositive _ hmem
    unfold CaseRun.apply at happly ⊢
    omega
  have havoids := hr _ hmem
  rw [hback, hn] at havoids
  cases havoids

theorem not_isBlankChar_mapByTables {expansions : List (Nat × List Nat)} {runs : List CaseRun}
    (he : ∀ e ∈ expansions, ∀ n ∈ e.2, n ∉ blankCodes) (hr : ∀ r ∈ runs, r.AvoidsBlank) {c x : Char}
    (hc : ¬ isBlankChar c) (hx : x ∈ mapByTables expansions runs c) : ¬ isBlankChar x := by
  unfold mapByTables at hx
  split at hx
  · next e hfind =>
    obtain ⟨n, hn, rfl⟩ := List.mem_map.1 hx
    exact fun h => he e (List.mem_of_find?_eq_some hfind) n hn (isBlankChar_ofNat h)
  · split at hx
    · next r hfind =>
      cases List.mem_singleton.1 hx
      have hcovers := List.find?_some hfind
      exact fun h => (hr r (List.mem_of_find?_eq_some hfind)).apply hcovers (isBlankChar_ofNat h)
    · cases List.mem_singleton.1 hx
      exact hc

theorem not_isBlankChar_ascii {f : Char → Char}
    (hf : ∀ n < 0x80, isBlankChar (f (Char.ofNat n)) = isBlankChar (Char.ofNat n)) {c x : Char}
    (hsmall : c.toNat < 0x80) (hc : ¬ isBlankChar c) (hx : x ∈ [f c]) : ¬ isBlankChar x := by
  cases List.mem_singleton.1 hx
  have hsame := hf c.toNat hsmall
  rw [Char.ofNat_toNat] at hsame
  rwa [hsame]

theorem not_isBlankChar_lowerChar {c x : Char} (hc : ¬ isBlankChar c) (hx : x ∈ lowerChar c) :
    ¬ isBlankChar x := by
  unfold lowerChar at hx
  split at hx
  · next hsmall => exact not_isBlankChar_ascii (by decide +kernel) hsmall hc hx
  · exact not_isBlankChar_mapByTables (by decide +kernel) (by decide +kernel) hc hx

theorem not_isBlankChar_upperChar {c x : Char} (hc : ¬ isBlankChar c) (hx : x ∈ upperChar c) :
    ¬ isBlankChar x := by
  unfold upperChar at hx
  split at hx
  · next hsmall => exact not_isBlankChar_ascii (by decide +kernel) hsmall hc hx
  · exact not_isBlankChar_mapByTables (by decide +kernel) (by decide +kernel) hc hx

theorem mapByTables_ne_nil {expansions : List (Nat × List Nat)} (runs : List CaseRun)
    (he : ∀ e ∈ expansions, e.2 ≠ []) (c : Char) : mapByTables expansions runs c ≠ [] := by
  unfold mapByTables
  split
  · next e hfind => simpa using he e (List.mem_of_find?_eq_some hfind)
  · split <;> exact List.cons_ne_nil _ _

theorem lowerChar_ne_nil (c : Char) : lowerChar c ≠ [] := by
  unfold lowerChar
  split
  · exact List.cons_ne_nil _ _
  · exact mapByTables_ne_nil _ (by decide) c

theorem upperChar_ne_nil (c : Char) : upperChar c ≠ [] := by
  unfold upperChar
  split
  · exact List.cons_ne_nil _ _
  · exact mapByTables_ne_nil _ (by decide +kernel) c

theorem all_isBlankChar {f : Char → List Char} (hblank : ∀ c, isBlankChar c → f c = [c])
    (hother : ∀ c x, ¬ isBlankChar c → x ∈ f c → ¬ isBlankChar x) (hne : ∀ c, f c ≠ []) (c : Char) :
    (f c).all isBlankChar = isBlankChar c := by
  cases hc : isBlankChar c with
  | true => rw [hblank c hc, List.all_cons, List.all_nil, hc, Bool.and_true]
  | false =>
    obtain ⟨x, hx⟩ := List.exists_mem_of_ne_nil _ (hne c)
    rw [List.all_eq_false]
    exact ⟨x, hx, hother c x (by rw [hc]; exact Bool.false_ne_true) hx⟩

theorem all_lowerChar (c : Char) : (lowerChar c).all isBlankChar = isBlankChar c :=
  all_isBlankChar (fun _ h => (map_of_isBlankChar h).1) (fun _ _ => not_isBlankChar_lowerChar)
    lowerChar_ne_nil c

theorem all_upperChar (c : Char) : (upperChar c).all isBlankChar = isBlankChar c :=
  all_isBlankChar (fun _ h => (map_of_isBlankChar h).2.1) (fun _ _ => not_isBlankChar_upperChar)
    upperChar_ne_nil c

end Text

namespace Naming
open Text

/-- The keys that lose all that is not blank of them when they become column names. -/
def Empties : Naming → String → Prop
  | snake, key => ∃ cs, key.toList = '_' :: cs ∧ cs ≠ [] ∧ ∀ c ∈ cs, isBlankChar c
  | camel, key => ∃ first cs, key.toList = first :: cs ∧ isBlankChar first ∧
      ∀ c ∈ cs, isBlankChar c ∨ c = '_'
  | identity, _ => False

theorem all_snakeFrom (last : Option Char) (afterCapital : Bool) (cs : List Char) :
    (snakeFrom last afterCapital cs).all isBlankChar = cs.all isBlankChar := by
  induction cs generalizing last afterCapital with
  | nil => rfl
  | cons c cs ih =>
    rw [snakeFrom]
    split
    · next hcapital =>
      -- A capital is not blank, and neither is its small letter.
      have hc : isBlankChar c = false := by
        by_contra hblank
        rw [Bool.not_eq_false] at hblank
        rw [(map_of_isBlankChar hblank).2.2] at hcapital
        cases hcapital
      simp only [List.all_append, List.all_cons, all_lowerChar, hc, Bool.and_false, Bool.false_and]
    · rw [List.all_cons, List.all_cons, ih]

theorem all_camelFrom (raised : Bool) (cs : List Char) :
    (camelFrom raised cs).all isBlankChar = cs.all fun c => isBlankChar c || c == '_' := by
  induction cs generalizing raised with
  | nil => rfl
  | cons c cs ih =>
    rw [camelFrom, List.all_cons]
    split
    · next hmark => simp [hmark, ih]
    · next hmark =>
      have hletter : ((if raised then upperChar c else lowerChar c).all isBlankChar) =
          isBlankChar c := by
        cases raised
        · exact all_lowerChar c
        · exact all_upperChar c
      have hother : (c == '_') = false := beq_false_of_ne hmark
      rw [List.all_append, hletter, ih, hother, Bool.or_false]

theorem all_camelChars {first : Char} (cs : List Char) :
    (camelChars (first :: cs)).all isBlankChar =
      (isBlankChar first && cs.all fun c => isBlankChar c || c == '_') := by
  unfold camelChars
  split
  · next h => cases h
  · next c rest h =>
    cases h
    simp [List.all_append, all_upperChar, all_camelFrom]
  · next c rest hrest h =>
    cases h
    rw [List.all_append, all_lowerChar, all_camelFrom]

theorem snakeFrom_ne_nil (last : Option Char) (afterCapital : Bool) {cs : List Char} (h : cs ≠ []) :
    snakeFrom last afterCapital cs ≠ [] := by
  cases cs with
  | nil => exact absurd rfl h
  | cons c cs =>
    rw [snakeFrom]
    split
    · simp [lowerChar_ne_nil]
    · exact List.cons_ne_nil _ _

theorem isBlank_ofList (cs : List Char) : isBlank (String.ofList cs) = cs.all isBlankChar := by
  rw [isBlank, String.toList_ofList]

theorem isBlank_toSnakeCase {key : String} (h : ¬ isBlank key) :
    isBlank (toSnakeCase key) ↔ snake.Empties key := by
  by_cases hmark : ∃ cs, key.toList = '_' :: cs ∧ cs ≠ []
  · obtain ⟨cs, hkey, hcs⟩ := hmark
    have hchars : snakeChars key.toList = snakeFrom none false cs := by rw [hkey]; rfl
    have hblank : isBlank (toSnakeCase key) = cs.all isBlankChar := by
      rw [toSnakeCase, hchars]
      split
      · next hnil => exact absurd hnil (snakeFrom_ne_nil _ _ hcs)
      · rw [isBlank_ofList, all_snakeFrom]
    rw [hblank, List.all_eq_true]
    refine ⟨fun hall => ⟨cs, hkey, hcs, hall⟩, ?_⟩
    rintro ⟨cs', hkey', -, hall⟩
    cases hkey.symm.trans hkey'
    exact hall
  · have hno : ¬ snake.Empties key := by
      rintro ⟨cs, hkey, hcs, -⟩
      exact hmark ⟨cs, hkey, hcs⟩
    refine ⟨fun hblank => ?_, fun hempties => absurd hempties hno⟩
    rw [toSnakeCase] at hblank
    split at hblank
    · exact absurd hblank h
    · next hne =>
      rw [isBlank_ofList] at hblank
      have hchars : snakeChars key.toList = snakeFrom none false key.toList := by
        unfold snakeChars
        split
        · next cs hkey =>
          cases cs with
          | nil =>
            rw [hkey] at hne
            exact absurd rfl hne
          | cons c cs => exact absurd ⟨_, hkey, List.cons_ne_nil c cs⟩ hmark
        · rfl
      rw [hchars, all_snakeFrom] at hblank
      exact absurd hblank h

theorem isBlank_toCamelCase {key : String} (h : ¬ isBlank key) :
    isBlank (toCamelCase key) ↔ camel.Empties key := by
  rw [toCamelCase, if_neg h, isBlank_ofList]
  cases hkey : key.toList with
  | nil =>
    refine absurd ?_ h
    rw [isBlank, hkey]
    rfl
  | cons first cs =>
    rw [all_camelChars]
    simp only [Bool.and_eq_true, List.all_eq_true, Bool.or_eq_true, beq_iff_eq]
    constructor
    · rintro ⟨hfirst, hall⟩
      exact ⟨first, cs, hkey, hfirst, hall⟩
    · rintro ⟨first', cs', hkey', hfirst, hall⟩
      cases hkey.symm.trans hkey'
      exact ⟨hfirst, hall⟩

theorem isBlank_convert (n : Naming) {key : String} (h : ¬ isBlank key) :
    isBlank (n.convert key) ↔ n.Empties key := by
  cases n with
  | identity => exact ⟨fun hblank => absurd hblank h, False.elim⟩
  | snake => exact isBlank_toSnakeCase h
  | camel => exact isBlank_toCamelCase h

end Naming
end SqlComposer
