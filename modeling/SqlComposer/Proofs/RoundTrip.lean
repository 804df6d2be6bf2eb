import Mathlib.Data.List.Chain
import SqlComposer.Naming

/-! Names that survive a change of the convention and back. A name in snake case comes back from camel case
if each of its words shows where it begins, and a name in camel case comes back from snake case if its
capitals stand alone and do not come too early. -/

namespace SqlComposer

namespace Text

theorem forall_ascii {P : Char → Prop} (h : ∀ n < 0x80, P (Char.ofNat n)) {c : Char}
    (hc : c.toNat < 0x80) : P c := by
  have hascii := h c.toNat hc
  rwa [Char.ofNat_toNat] at hascii

theorem isAlpha_iff {c : Char} : c.isAlpha ↔ c.isUpper ∨ c.isLower := by
  change (c.isUpper || c.isLower) = true ↔ _
  rw [Bool.or_eq_true]

theorem isAlphanum_iff {c : Char} : c.isAlphanum ↔ (c.isUpper ∨ c.isLower) ∨ c.isDigit := by
  change (c.isAlpha || c.isDigit) = true ↔ _
  rw [Bool.or_eq_true, isAlpha_iff]

theorem toNat_lt_of_isAlphanum {c : Char} (h : c.isAlphanum) : c.toNat < 0x80 := by
  have hlast {last : Char} (hle : c.val ≤ last.val) (hlast : last.toNat < 0x80) : c.toNat < 0x80 :=
    Nat.lt_of_le_of_lt (UInt32.le_iff_toNat_le.1 hle) hlast
  rcases isAlphanum_iff.1 h with (h | h) | h
  · have hle : c.val ≤ 'Z'.val := (of_decide_eq_true h).2
    exact hlast hle (by decide)
  · have hle : c.val ≤ 'z'.val := of_decide_eq_true (Bool.and_eq_true_iff.1 h).2
    exact hlast hle (by decide)
  · have hle : c.val ≤ '9'.val := of_decide_eq_true (Bool.and_eq_true_iff.1 h).2
    exact hlast hle (by decide)

theorem case_of_isLower {c : Char} (h : c.isLower) :
    lowerChar c = [c] ∧ upperChar c = [c.toUpper] ∧ isCapital c = false ∧
      lowerChar c.toUpper = [c] ∧ isCapital c.toUpper := by
  have hascii : c.isAlphanum := isAlphanum_iff.2 (.inl (.inr h))
  exact forall_ascii (P := fun c => c.isLower → lowerChar c = [c] ∧ upperChar c = [c.toUpper] ∧
    isCapital c = false ∧ lowerChar c.toUpper = [c] ∧ isCapital c.toUpper) (by decide +kernel)
    (toNat_lt_of_isAlphanum hascii) h

theorem case_of_isUpper {c : Char} (h : c.isUpper) :
    lowerChar c = [c.toLower] ∧ isCapital c ∧ lowerChar c.toLower = [c.toLower] ∧
      upperChar c.toLower = [c] ∧ c.toLower.isLower := by
  have hascii : c.isAlphanum := isAlphanum_iff.2 (.inl (.inl h))
  exact forall_ascii (P := fun c => c.isUpper → lowerChar c = [c.toLower] ∧ isCapital c ∧
    lowerChar c.toLower = [c.toLower] ∧ upperChar c.toLower = [c] ∧ c.toLower.isLower)
    (by decide +kernel) (toNat_lt_of_isAlphanum hascii) h

theorem case_of_isDigit {c : Char} (h : c.isDigit) :
    lowerChar c = [c] ∧ upperChar c = [c] ∧ isCapital c = false ∧ c.isAlpha = false := by
  have hascii : c.isAlphanum := isAlphanum_iff.2 (.inr h)
  exact forall_ascii (P := fun c => c.isDigit → lowerChar c = [c] ∧ upperChar c = [c] ∧
    isCapital c = false ∧ c.isAlpha = false) (by decide +kernel) (toNat_lt_of_isAlphanum hascii) h

theorem ne_underscore_of_isAlphanum {c : Char} (h : c.isAlphanum) : c ≠ '_' := by
  rintro rfl
  exact absurd h (by decide)

end Text

namespace Naming
open Text

def IsWordChar (c : Char) : Prop := c.isLower ∨ c.isDigit

/-- Words that can follow a first one in camel case: the capitals that begin them are seen as the beginnings
of words, as none of them is the whole word in front of another one. -/
structure Follow (words : List (List Char)) : Prop where
  beginsWithLetter : ∀ w ∈ words, ∃ c ∈ w.head?, c.isAlpha
  notLetter : ∀ w ∈ words.dropLast, ∀ c, w = [c] → ¬ c.isAlpha

structure Recoverable (words : List (List Char)) : Prop where
  notEmpty : ∀ w ∈ words, w ≠ []
  beginsWithLetter : ∀ w ∈ words.tail, ∃ c ∈ w.head?, c.isAlpha
  notLetter : ∀ w ∈ words.dropLast, ∀ c, w = [c] → ¬ c.isAlpha

variable {c : Char} {w cs : List Char} {ws : List (List Char)}

theorem forall_mem_dropLast_cons {P : List Char → Prop} :
    (∀ v ∈ (w :: ws).dropLast, P v) ↔ (ws ≠ [] → P w) ∧ ∀ v ∈ ws.dropLast, P v := by
  cases ws with
  | nil => simp
  | cons v ws => simp [List.dropLast_cons_of_ne_nil]

theorem follow_cons : Follow (w :: ws) ↔
    (∃ c ∈ w.head?, c.isAlpha) ∧ (ws ≠ [] → ∀ c, w = [c] → ¬ c.isAlpha) ∧ Follow ws := by
  constructor
  · rintro ⟨hbegins, hnot⟩
    rw [List.forall_mem_cons] at hbegins
    rw [forall_mem_dropLast_cons] at hnot
    exact ⟨hbegins.1, hnot.1, hbegins.2, hnot.2⟩
  · rintro ⟨hw, hsingle, hbegins, hnot⟩
    exact ⟨List.forall_mem_cons.2 ⟨hw, hbegins⟩, forall_mem_dropLast_cons.2 ⟨hsingle, hnot⟩⟩

theorem follow_nil : Follow [] := ⟨nofun, nofun⟩

theorem not_follow_nil : ¬ Follow ([] :: ws) := fun h => by
  obtain ⟨⟨c, hc, -⟩, -⟩ := follow_cons.1 h
  cases hc

theorem recoverable_cons : Recoverable (w :: ws) ↔
    w ≠ [] ∧ (ws ≠ [] → ∀ c, w = [c] → ¬ c.isAlpha) ∧ Follow ws := by
  constructor
  · rintro ⟨hempty, hbegins, hnot⟩
    rw [forall_mem_dropLast_cons] at hnot
    exact ⟨hempty w List.mem_cons_self, hnot.1, hbegins, hnot.2⟩
  · rintro ⟨hw, hsingle, hbegins, hnot⟩
    refine ⟨List.forall_mem_cons.2 ⟨hw, fun v hv hnil => ?_⟩, hbegins,
      forall_mem_dropLast_cons.2 ⟨hsingle, hnot⟩⟩
    obtain ⟨c, hc, -⟩ := hbegins v hv
    rw [hnil] at hc
    cases hc

theorem exists_words (cs : List Char) : ∃ w ws, cs.splitOn '_' = w :: ws :=
  List.exists_cons_of_ne_nil (List.splitOn_ne_nil '_' cs)

theorem splitOn_underscore (cs : List Char) : ('_' :: cs).splitOn '_' = [] :: cs.splitOn '_' := by
  rw [List.splitOn_cons_eq_if_modifyHead, if_pos (beq_self_eq_true '_')]

theorem splitOn_of_ne (hc : c ≠ '_') (h : cs.splitOn '_' = w :: ws) :
    (c :: cs).splitOn '_' = (c :: w) :: ws := by
  rw [List.splitOn_cons_eq_if_modifyHead, if_neg (by simpa using hc), h, List.modifyHead_cons]

theorem head?_of_splitOn (h : cs.splitOn '_' = [] :: ws) (hws : ws ≠ []) : cs.head? = some '_' := by
  cases cs with
  | nil =>
    cases h
    exact absurd rfl hws
  | cons c cs =>
    by_contra hc
    obtain ⟨v, vs, hv⟩ := exists_words cs
    have hne : c ≠ '_' := fun heq => hc (congrArg some heq)
    cases h.symm.trans (splitOn_of_ne hne hv)

theorem not_letter_iff :
    (ws ≠ [] → ∀ d, c :: w = [d] → ¬ d.isAlpha) ↔ (c.isAlpha → w = [] → ws = []) := by
  constructor
  · rintro h hletter rfl
    by_contra hmore
    exact h hmore c rfl hletter
  · rintro h hmore d ⟨⟩ hletter
    exact hmore (h hletter rfl)

theorem IsWordChar.isAlphanum (hc : IsWordChar c) : c.isAlphanum := by
  rcases hc with h | h
  · exact isAlphanum_iff.2 (.inl (.inr h))
  · exact isAlphanum_iff.2 (.inr h)

theorem IsWordChar.ne_underscore (hc : IsWordChar c) : c ≠ '_' :=
  ne_underscore_of_isAlphanum hc.isAlphanum

theorem IsWordChar.not_isBlankChar (hc : IsWordChar c) : isBlankChar c = false :=
  forall_ascii (P := fun c => c.isAlphanum → isBlankChar c = false) (by decide +kernel)
    (toNat_lt_of_isAlphanum hc.isAlphanum) hc.isAlphanum

theorem IsWordChar.case (hc : IsWordChar c) : lowerChar c = [c] ∧ isCapital c = false := by
  rcases hc with h | h
  · exact ⟨(case_of_isLower h).1, (case_of_isLower h).2.2.1⟩
  · exact ⟨(case_of_isDigit h).1, (case_of_isDigit h).2.2.1⟩

theorem snakeFrom_camelFrom_inside (hc : IsWordChar c) (last : Option Char) (afterCapital : Bool) :
    snakeFrom last afterCapital (camelFrom false (c :: cs)) =
      c :: snakeFrom (some c) false (camelFrom false cs) := by
  rw [camelFrom, if_neg hc.ne_underscore, if_neg Bool.false_ne_true, hc.case.1, List.singleton_append,
    snakeFrom, hc.case.2, if_neg Bool.false_ne_true]

theorem snakeFrom_camelFrom_digit (hc : c.isDigit) (last : Option Char) (afterCapital : Bool) :
    snakeFrom last afterCapital (camelFrom true (c :: cs)) =
      c :: snakeFrom (some c) false (camelFrom false cs) := by
  obtain ⟨-, hupper, hcapital, -⟩ := case_of_isDigit hc
  rw [camelFrom, if_neg (IsWordChar.ne_underscore (.inr hc)), if_pos rfl, hupper, List.singleton_append,
    snakeFrom, hcapital, if_neg Bool.false_ne_true]

theorem snakeFrom_camelFrom_letter (hc : c.isLower) (last : Option Char) (afterCapital : Bool) :
    snakeFrom last afterCapital (camelFrom true (c :: cs)) =
      (if !afterCapital && last.isSome && last != some '_' then ['_'] else []) ++
        c :: snakeFrom (some c) true (camelFrom false cs) := by
  obtain ⟨-, hupper, -, hlower, hcapital⟩ := case_of_isLower hc
  rw [camelFrom, if_neg (IsWordChar.ne_underscore (.inl hc)), if_pos rfl, hupper, List.singleton_append,
    snakeFrom, hcapital, if_pos rfl, hlower]
  simp only [List.getLast?_singleton, Option.some_or, List.append_assoc, List.singleton_append]

theorem camelFrom_underscore (raise : Bool) : camelFrom raise ('_' :: cs) = camelFrom true cs := rfl

theorem snakeFrom_camelFrom_ne_twice {l : Char} (hcs : ∀ c ∈ cs, IsWordChar c ∨ c = '_')
    (afterCapital : Bool) (ds : List Char) :
    snakeFrom (some l) afterCapital (camelFrom true cs) ≠ '_' :: '_' :: ds := by
  induction cs with
  | nil => exact List.cons_ne_nil _ _ ∘ Eq.symm
  | cons c cs ih =>
    obtain ⟨hc, hrest⟩ := List.forall_mem_cons.1 hcs
    rcases hc with (hc | hc) | rfl
    · have hne : c ≠ '_' := IsWordChar.ne_underscore (.inl hc)
      rw [snakeFrom_camelFrom_letter hc]
      split <;> simp [hne]
    · have hne : c ≠ '_' := IsWordChar.ne_underscore (.inr hc)
      rw [snakeFrom_camelFrom_digit hc]
      simp [hne]
    · exact ih hrest

/-- What follows comes back if its words do: those in front of an underscore if the first of them does not
end as a single capital, and those behind one if no capital stands in front of it. -/
theorem snakeFrom_camelFrom_eq_iff {l : Char} (hl : l ≠ '_') (hcs : ∀ c ∈ cs, IsWordChar c ∨ c = '_')
    (afterCapital : Bool) (hw : cs.splitOn '_' = w :: ws) :
    (snakeFrom (some l) afterCapital (camelFrom false cs) = cs ↔
      (afterCapital → w = [] → ws = []) ∧ Follow ws) ∧
    (snakeFrom (some l) afterCapital (camelFrom true cs) = '_' :: cs ↔
      afterCapital = false ∧ Follow (w :: ws)) := by
  induction cs generalizing l afterCapital w ws with
  | nil =>
    cases hw
    exact ⟨⟨fun _ => ⟨fun _ _ => rfl, follow_nil⟩, fun _ => rfl⟩,
      nofun, fun h => absurd h.2 not_follow_nil⟩
  | cons c cs ih =>
    obtain ⟨hc, hrest⟩ := List.forall_mem_cons.1 hcs
    obtain ⟨v, vs, hv⟩ := exists_words cs
    rcases hc with hc | rfl
    · cases hw.symm.trans (splitOn_of_ne hc.ne_underscore hv)
      constructor
      · rw [snakeFrom_camelFrom_inside hc, List.cons_inj_right, (ih hc.ne_underscore hrest false hv).1]
        simp
      · rcases hc with hc | hc
        · have hne := IsWordChar.ne_underscore (.inl hc)
          have hletter : c.isAlpha := isAlpha_iff.2 (.inr hc)
          rw [snakeFrom_camelFrom_letter hc, follow_cons, not_letter_iff]
          cases afterCapital with
          | true => simp [hne]
          | false => simp [hl, hletter, (ih hne hrest true hv).1]
        · have hne := IsWordChar.ne_underscore (.inr hc)
          rw [snakeFrom_camelFrom_digit hc, follow_cons]
          simp [hne, (case_of_isDigit hc).2.2.2]
    · cases hw.symm.trans (splitOn_underscore cs)
      rw [hv]
      constructor
      · rw [camelFrom_underscore, (ih hl hrest afterCapital hv).2]
        simp
      · exact ⟨fun h => absurd h (snakeFrom_camelFrom_ne_twice hrest afterCapital cs),
          fun h => absurd h.2 not_follow_nil⟩

theorem camelChars_cons (c : Char) (cs : List Char) :
    camelChars (c :: cs) =
      (if cs.head? = some '_' then upperChar c else lowerChar c) ++ camelFrom false cs := by
  unfold camelChars
  split
  · next heq => cases heq
  · next heq =>
    cases heq
    rfl
  · next hne heq =>
    cases heq
    rw [if_neg]
    intro hhead
    obtain ⟨ds, hds⟩ := List.head?_eq_some_iff.1 hhead
    exact hne ds hds

theorem snakeChars_of_head_ne (h : cs.head? ≠ some '_') : snakeChars cs = snakeFrom none false cs := by
  unfold snakeChars
  split
  · exact absurd rfl h
  · rfl

theorem toSnakeCase_ofList {d : Char} {ds : List Char} (h : snakeChars cs = d :: ds) :
    toSnakeCase (String.ofList cs) = String.ofList (d :: ds) := by
  rw [toSnakeCase, String.toList_ofList, h]

theorem toCamelCase_ofList (hc : isBlankChar c = false) (cs : List Char) :
    toCamelCase (String.ofList (c :: cs)) = String.ofList (camelChars (c :: cs)) := by
  rw [toCamelCase, isBlank, String.toList_ofList, List.all_cons, hc, Bool.false_and,
    if_neg Bool.false_ne_true]

theorem head?_camelFrom (hc : IsWordChar c) (raise : Bool) :
    (camelFrom raise (c :: cs)).head? ≠ some '_' := by
  rw [camelFrom, if_neg hc.ne_underscore]
  cases raise with
  | false => simpa [hc.case.1] using hc.ne_underscore
  | true =>
    rcases hc with h | h
    · obtain ⟨-, hupper, -, -, hcapital⟩ := case_of_isLower h
      have hne : c.toUpper ≠ '_' := fun heq => absurd (heq ▸ hcapital) (by decide)
      simpa [hupper] using hne
    · simpa [(case_of_isDigit h).2.1] using IsWordChar.ne_underscore (.inr h)

theorem snakeChars_camelChars_cons (hc : IsWordChar c) (cs : List Char) :
    ∃ afterCapital, snakeChars (camelChars (c :: cs)) =
        c :: snakeFrom (some c) afterCapital (camelFrom false cs) ∧
      (afterCapital = true ↔ c.isAlpha ∧ cs.head? = some '_') := by
  have hcamel : camelChars (c :: cs) = camelFrom (cs.head? = some '_') (c :: cs) := by
    rw [camelChars_cons, camelFrom, if_neg hc.ne_underscore]
    simp only [decide_eq_true_eq]
  have hsnake : snakeChars (camelFrom (cs.head? = some '_') (c :: cs)) =
      snakeFrom none false (camelFrom (cs.head? = some '_') (c :: cs)) :=
    snakeChars_of_head_ne (head?_camelFrom hc _)
  rw [hcamel, hsnake]
  by_cases hhead : cs.head? = some '_'
  · rw [decide_eq_true hhead]
    rcases hc with hc | hc
    · exact ⟨true, snakeFrom_camelFrom_letter hc _ _, by simp [hhead, isAlpha_iff, hc]⟩
    · exact ⟨false, snakeFrom_camelFrom_digit hc _ _, by simp [(case_of_isDigit hc).2.2.2]⟩
  · rw [decide_eq_false hhead]
    exact ⟨false, snakeFrom_camelFrom_inside hc _ _, by simp [hhead]⟩

theorem round_trip_cons (hc : IsWordChar c) (hcs : ∀ c ∈ cs, IsWordChar c ∨ c = '_')
    (hw : cs.splitOn '_' = w :: ws) :
    toSnakeCase (toCamelCase (String.ofList (c :: cs))) = String.ofList (c :: cs) ↔
      Recoverable ((c :: w) :: ws) := by
  obtain ⟨afterCapital, hback, hcapital⟩ := snakeChars_camelChars_cons hc cs
  rw [toCamelCase_ofList hc.not_isBlankChar, toSnakeCase_ofList hback, String.ofList_inj,
    List.cons_inj_right, (snakeFrom_camelFrom_eq_iff hc.ne_underscore hcs afterCapital hw).1, hcapital,
    recoverable_cons]
  have hended : (c.isAlpha ∧ cs.head? = some '_' → w = [] → ws = []) ↔
      (c.isAlpha → w = [] → ws = []) := by
    constructor
    · rintro h hletter rfl
      by_contra hmore
      exact hmore (h ⟨hletter, head?_of_splitOn hw hmore⟩ rfl)
    · exact fun h hboth => h hboth.1
  rw [hended, not_letter_iff]
  exact ⟨fun h => ⟨List.cons_ne_nil _ _, h⟩, fun h => h.2⟩

theorem snakeFrom_none_camelFrom (hcs : ∀ c ∈ cs, IsWordChar c ∨ c = '_') (raise : Bool) :
    camelFrom raise cs = [] ∨
      ∃ d ds, d ≠ '_' ∧ snakeFrom none false (camelFrom raise cs) = d :: ds := by
  induction cs generalizing raise with
  | nil => exact .inl rfl
  | cons c cs ih =>
    obtain ⟨hc, hrest⟩ := List.forall_mem_cons.1 hcs
    rcases hc with hc | rfl
    · right
      cases raise with
      | false => exact ⟨c, _, hc.ne_underscore, snakeFrom_camelFrom_inside hc _ _⟩
      | true =>
        have hne := hc.ne_underscore
        rcases hc with hc | hc
        · exact ⟨c, _, hne, snakeFrom_camelFrom_letter hc _ _⟩
        · exact ⟨c, _, hne, snakeFrom_camelFrom_digit hc _ _⟩
    · exact ih hrest true

theorem round_trip_underscore (hcs : ∀ c ∈ cs, IsWordChar c ∨ c = '_') :
    toSnakeCase (toCamelCase (String.ofList ('_' :: cs))) = String.ofList ('_' :: cs) ↔ cs = [] := by
  have hcamel : camelChars ('_' :: cs) = '_' :: camelFrom false cs := by
    rw [camelChars_cons]
    split <;> rfl
  rw [toCamelCase_ofList (by decide), hcamel]
  rcases snakeFrom_none_camelFrom hcs false with hnil | ⟨d, ds, hd, hback⟩
  · have halone : toSnakeCase (String.ofList ['_']) = String.ofList ['_'] := by decide
    rw [hnil, halone, String.ofList_inj, List.cons_inj_right]
    exact eq_comm
  · have hsnake : snakeChars ('_' :: camelFrom false cs) = d :: ds := hback
    rw [toSnakeCase_ofList hsnake, String.ofList_inj]
    constructor
    · rintro ⟨⟩
      exact absurd rfl hd
    · rintro rfl
      cases hback

theorem toSnakeCase_toCamelCase_iff {s : String} (hs : ∀ c ∈ s.toList, IsWordChar c ∨ c = '_') :
    toSnakeCase (toCamelCase s) = s ↔ s = "" ∨ s = "_" ∨ Recoverable (s.toList.splitOn '_') := by
  obtain ⟨cs, rfl⟩ : ∃ cs, s = String.ofList cs := ⟨s.toList, String.ofList_toList.symm⟩
  rw [String.toList_ofList] at hs ⊢
  cases cs with
  | nil => exact ⟨fun _ => .inl rfl, fun _ => rfl⟩
  | cons c cs =>
    obtain ⟨hc, hrest⟩ := List.forall_mem_cons.1 hs
    obtain ⟨w, ws, hw⟩ := exists_words cs
    have hempty : String.ofList (c :: cs) ≠ "" := by simp [← String.toList_inj]
    have hone : String.ofList (c :: cs) = "_" ↔ c = '_' ∧ cs = [] := by simp [← String.toList_inj]
    rcases hc with hc | rfl
    · rw [round_trip_cons hc hrest hw, splitOn_of_ne hc.ne_underscore hw]
      simp only [hempty, hone, hc.ne_underscore, false_and, false_or]
    · have hnone : ¬ Recoverable ([] :: cs.splitOn '_') := fun h => (recoverable_cons.1 h).1 rfl
      rw [round_trip_underscore hrest, splitOn_underscore]
      simp only [hempty, hone, hnone, true_and, false_or, or_false]

structure ShowsCapitals (cs : List Char) : Prop where
  first : ∀ c ∈ cs.head?, ¬ c.isUpper
  alone : cs.IsChain fun a b => ¬ (a.isUpper ∧ b.isUpper)
  second : ∀ a ∈ cs[0]?, ∀ b ∈ cs[1]?, a.isAlpha → ¬ b.isUpper

theorem isUpper_or_isWordChar (hc : c.isAlphanum) : c.isUpper ∨ IsWordChar c := by
  simpa [isAlphanum_iff, IsWordChar, or_assoc] using hc

theorem IsWordChar.not_isUpper (hc : IsWordChar c) : ¬ c.isUpper := fun h => by
  have hcapital := (case_of_isUpper h).2.1
  rw [hc.case.2] at hcapital
  cases hcapital

theorem camelFrom_snakeFrom_inside (hc : IsWordChar c) (last : Option Char) (afterCapital : Bool) :
    camelFrom false (snakeFrom last afterCapital (c :: cs)) =
      c :: camelFrom false (snakeFrom (some c) false cs) := by
  rw [snakeFrom, hc.case.2, if_neg Bool.false_ne_true, camelFrom, if_neg hc.ne_underscore,
    if_neg Bool.false_ne_true, hc.case.1]
  rfl

theorem camelFrom_snakeFrom_capital (hc : c.isUpper) {l : Char} (hl : l ≠ '_') (afterCapital : Bool) :
    camelFrom false (snakeFrom (some l) afterCapital (c :: cs)) =
      (if afterCapital then c.toLower else c) ::
        camelFrom false (snakeFrom (some c.toLower) true cs) := by
  obtain ⟨hlower, hcapital, hsmall, hupper, hletter⟩ := case_of_isUpper hc
  have hne : c.toLower ≠ '_' := IsWordChar.ne_underscore (.inl hletter)
  rw [snakeFrom, hcapital, if_pos rfl, hlower]
  cases afterCapital with
  | false =>
    have hmark : (!false && (some l).isSome && some l != some '_') = true := by simp [hl]
    rw [if_pos hmark]
    simp [camelFrom, hne, hupper]
  | true => simp [camelFrom, hne, hsmall]

theorem camelFrom_snakeFrom_eq_iff (hcs : ∀ c ∈ cs, c.isAlphanum) {l : Char} (hl : l ≠ '_')
    (afterCapital : Bool) :
    camelFrom false (snakeFrom (some l) afterCapital cs) = cs ↔
      (afterCapital → ∀ c ∈ cs.head?, ¬ c.isUpper) ∧
        cs.IsChain fun a b => ¬ (a.isUpper ∧ b.isUpper) := by
  induction cs generalizing l afterCapital with
  | nil => exact ⟨fun _ => ⟨nofun, .nil⟩, fun _ => rfl⟩
  | cons c cs ih =>
    obtain ⟨hc, hrest⟩ := List.forall_mem_cons.1 hcs
    rw [List.isChain_cons]
    rcases isUpper_or_isWordChar hc with hc | hc
    · have hletter := (case_of_isUpper hc).2.2.2.2
      have hne : c.toLower ≠ c := fun h => IsWordChar.not_isUpper (.inl hletter) (by rwa [h])
      rw [camelFrom_snakeFrom_capital hc hl]
      cases afterCapital with
      | true => simp [hne, hc]
      | false =>
        rw [if_neg Bool.false_ne_true, List.cons_inj_right,
          ih hrest (IsWordChar.ne_underscore (.inl hletter)) true]
        simp [hc]
    · rw [camelFrom_snakeFrom_inside hc, List.cons_inj_right, ih hrest hc.ne_underscore]
      simp [hc.not_isUpper]

theorem head?_snakeFrom (hcs : ∀ c ∈ cs, c.isAlphanum) {l : Char} (hl : l ≠ '_') (afterCapital : Bool) :
    (snakeFrom (some l) afterCapital cs).head? = some '_' ↔
      afterCapital = false ∧ ∃ c ∈ cs.head?, c.isUpper := by
  cases cs with
  | nil => simp [snakeFrom]
  | cons c cs =>
    rcases isUpper_or_isWordChar (hcs c List.mem_cons_self) with hc | hc
    · obtain ⟨hlower, hcapital, -, -, hletter⟩ := case_of_isUpper hc
      have hne : c.toLower ≠ '_' := IsWordChar.ne_underscore (.inl hletter)
      cases afterCapital with
      | true => simp [snakeFrom, hcapital, hlower, hne]
      | false => simp [snakeFrom, hcapital, hlower, hl, hc]
    · simp [snakeFrom, hc.case.2, hc.ne_underscore, hc.not_isUpper]

theorem camelCase_of_first_capital (hc : c.isUpper) (hcs : ∀ c ∈ cs, c.isAlphanum) :
    toCamelCase (toSnakeCase (String.ofList (c :: cs))) ≠ String.ofList (c :: cs) := by
  obtain ⟨hlower, hcapital, hsmall, -, hletter⟩ := case_of_isUpper hc
  have hword : IsWordChar c.toLower := .inl hletter
  have hsnake : snakeChars (c :: cs) = c.toLower :: snakeFrom (some c.toLower) true cs := by
    have hhead : (c :: cs).head? ≠ some '_' := fun h => by
      cases h
      exact absurd hc (by decide)
    rw [snakeChars_of_head_ne hhead, snakeFrom, hcapital, if_pos rfl, hlower]
    rfl
  have hnext : ¬ (snakeFrom (some c.toLower) true cs).head? = some '_' := fun h =>
    absurd ((head?_snakeFrom hcs hword.ne_underscore true).1 h).1 nofun
  rw [toSnakeCase_ofList hsnake, toCamelCase_ofList hword.not_isBlankChar, camelChars_cons,
    if_neg hnext, hsmall]
  intro h
  have hfirst : c.toLower = c := (List.cons.inj (String.ofList_injective h)).1
  exact hword.not_isUpper (by rwa [hfirst])

theorem camelCase_of_first_small (hc : IsWordChar c) (hcs : ∀ c ∈ cs, c.isAlphanum) :
    toCamelCase (toSnakeCase (String.ofList (c :: cs))) = String.ofList (c :: cs) ↔
      (c.isAlpha → ∀ b ∈ cs.head?, ¬ b.isUpper) ∧
        cs.IsChain fun a b => ¬ (a.isUpper ∧ b.isUpper) := by
  have hsnake : snakeChars (c :: cs) = c :: snakeFrom (some c) false cs := by
    have hhead : (c :: cs).head? ≠ some '_' := fun h => hc.ne_underscore (Option.some_inj.1 h)
    rw [snakeChars_of_head_ne hhead, snakeFrom, hc.case.2, if_neg Bool.false_ne_true]
  have hnext := head?_snakeFrom hcs hc.ne_underscore false
  rw [toSnakeCase_ofList hsnake, toCamelCase_ofList hc.not_isBlankChar, camelChars_cons,
    String.ofList_inj]
  have hback : [c] ++ camelFrom false (snakeFrom (some c) false cs) = c :: cs ↔
      cs.IsChain fun a b => ¬ (a.isUpper ∧ b.isUpper) := by
    rw [List.singleton_append, List.cons_inj_right, camelFrom_snakeFrom_eq_iff hcs hc.ne_underscore]
    exact ⟨fun h => h.2, fun h => ⟨nofun, h⟩⟩
  by_cases hraised : ∃ b ∈ cs.head?, b.isUpper
  · rw [if_pos (hnext.2 ⟨rfl, hraised⟩)]
    obtain ⟨b, hb, hcapital⟩ := hraised
    rcases hc with hc | hc
    · have hletter : c.isAlpha := isAlpha_iff.2 (.inr hc)
      obtain ⟨-, hupper, hsmall, -, hlarge⟩ := case_of_isLower hc
      have hne : c.toUpper ≠ c := fun h => by
        rw [h, hsmall] at hlarge
        cases hlarge
      rw [hupper, List.singleton_append]
      exact ⟨fun h => absurd (List.cons.inj h).1 hne, fun h => absurd hcapital (h.1 hletter b hb)⟩
    · obtain ⟨-, hupper, -, hletter⟩ := case_of_isDigit hc
      rw [hupper, hback, hletter]
      exact ⟨fun h => ⟨nofun, h⟩, fun h => h.2⟩
  · rw [if_neg fun h => hraised (hnext.1 h).2, hc.case.1, hback]
    exact ⟨fun h => ⟨fun _ b hb hcapital => hraised ⟨b, hb, hcapital⟩, h⟩, fun h => h.2⟩

theorem toCamelCase_toSnakeCase_iff {n : String} (hn : ∀ c ∈ n.toList, c.isAlphanum) :
    toCamelCase (toSnakeCase n) = n ↔ ShowsCapitals n.toList := by
  obtain ⟨cs, rfl⟩ : ∃ cs, n = String.ofList cs := ⟨n.toList, String.ofList_toList.symm⟩
  rw [String.toList_ofList] at hn ⊢
  cases cs with
  | nil => exact ⟨fun _ => ⟨nofun, .nil, nofun⟩, fun _ => rfl⟩
  | cons c cs =>
    obtain ⟨hc, hrest⟩ := List.forall_mem_cons.1 hn
    rcases isUpper_or_isWordChar hc with hc | hc
    · exact ⟨fun h => absurd h (camelCase_of_first_capital hc hrest), fun h => absurd hc (h.first c rfl)⟩
    · rw [camelCase_of_first_small hc hrest]
      constructor
      · rintro ⟨hsecond, halone⟩
        refine ⟨?_, List.isChain_cons.2 ⟨fun b _ h => hc.not_isUpper h.1, halone⟩, ?_⟩
        · rintro _ ⟨⟩
          exact hc.not_isUpper
        · rintro _ ⟨⟩ b hb hletter
          rw [List.getElem?_cons_succ, ← List.head?_eq_getElem?] at hb
          exact hsecond hletter b hb
      · rintro ⟨-, halone, hsecond⟩
        refine ⟨fun hletter b hb => ?_, (List.isChain_cons.1 halone).2⟩
        rw [List.head?_eq_getElem?] at hb
        exact hsecond c rfl b hb hletter

/-- A name in snake case comes back from camel case exactly if it is empty, a lone underscore, or made of
words that are not empty, of which all but the first begin with a letter and all but the last are more than
a letter. A name in camel case comes back from snake case exactly if it does not begin with a capital, has
no two capitals side by side, and none behind a first letter. -/
theorem round_trip_iff :
    (∀ s : String, (∀ c ∈ s.toList, (c.isLower ∨ c.isDigit) ∨ c = '_') →
      (toSnakeCase (toCamelCase s) = s ↔
        s = "" ∨ s = "_" ∨ Recoverable (s.toList.splitOn '_'))) ∧
    ∀ n : String, (∀ c ∈ n.toList, c.isAlphanum) →
      (toCamelCase (toSnakeCase n) = n ↔ ShowsCapitals n.toList) :=
  ⟨fun _ => toSnakeCase_toCamelCase_iff, fun _ => toCamelCase_toSnakeCase_iff⟩

theorem names_that_come_back :
    (toSnakeCase (toCamelCase "1_user_id2_x") = "1_user_id2_x" ∧
      toSnakeCase (toCamelCase "a_user") ≠ "a_user") ∧
    toCamelCase (toSnakeCase "1UserId2X") = "1UserId2X" ∧ toCamelCase (toSnakeCase "aUser") ≠ "aUser" := by
  obtain ⟨hsnake, hcamel⟩ := round_trip_iff
  have hsnakeChars : ∀ s ∈ ["1_user_id2_x", "a_user"], ∀ c ∈ s.toList,
      (c.isLower ∨ c.isDigit) ∨ c = '_' := by simp
  have hcamelChars : ∀ n ∈ ["1UserId2X", "aUser"], ∀ c ∈ n.toList, c.isAlphanum := by simp
  have hwords : "1_user_id2_x".toList.splitOn '_' =
      [['1'], ['u', 's', 'e', 'r'], ['i', 'd', '2'], ['x']] := by decide
  have hrecoverable : Recoverable ("1_user_id2_x".toList.splitOn '_') := by
    rw [hwords]
    exact ⟨by decide, by simp, by simp⟩
  have hshows : ShowsCapitals "1UserId2X".toList := ⟨by simp, by decide, by simp⟩
  refine ⟨⟨(hsnake _ (hsnakeChars _ (by decide))).2 (.inr (.inr hrecoverable)), fun h => ?_⟩,
    (hcamel _ (hcamelChars _ (by decide))).2 hshows, fun h => ?_⟩
  · rcases (hsnake _ (hsnakeChars _ (by decide))).1 h with hempty | hone | ⟨-, -, hnot⟩
    · exact absurd hempty (by decide)
    · exact absurd hone (by decide)
    · exact hnot ['a'] (by decide) 'a' rfl (by decide)
  · have hback := (hcamel _ (hcamelChars _ (by decide))).1 h
    exact hback.second 'a' rfl 'U' rfl (by decide) (by decide)

end Naming
end SqlComposer
