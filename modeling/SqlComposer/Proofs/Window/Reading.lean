import Mathlib.Algebra.Group.Nat.Defs
import SqlComposer.Clause.Window

/-! The end of a query as its backend reads it. Each backend has words of its own for a limit and an
offset, and some of them have to write a limit where there is none. Read by the backend that it is written
for, the text keeps the rows that the window keeps. -/

namespace SqlComposer

namespace Window
variable {α : Type}

def rows (w : Window) (rows : List α) : List α :=
  let rest := rows.drop w.offset
  match w.limit with
  | some n => rest.take n
  | none => rest

theorem rows_of_length_le {w : Window} {n : Nat} {all : List α} (h : all.length ≤ n) :
    (⟨some n, w.offset⟩ : Window).rows all = (⟨none, w.offset⟩ : Window).rows all := by
  have hrest : (all.drop w.offset).length ≤ n := by
    rw [List.length_drop]
    exact Nat.le_trans (Nat.sub_le _ _) h
  exact List.take_of_length_le hrest

end Window

def wordsOf (text : String) : List String :=
  ((text.toList.splitOn ' ').filter (· ≠ [])).map String.ofList

def readNatural (word : String) : Option Nat :=
  let digits := word.toList
  if digits ≠ [] ∧ digits.all Char.isDigit then some (Nat.ofDigitChars 10 digits 0) else none

namespace Family

def readLimit (f : Family) (word : String) : Option (Option Nat) :=
  if f = sqlite ∧ word = "-1" then some none else (readNatural word).map some

def readWords (f : Family) (words : List String) : Option Window :=
  match f, words with
  | ansi, ["OFFSET", m, "ROWS"] => do return ⟨none, ← readNatural m⟩
  | ansi, ["OFFSET", m, "ROWS", "FETCH", "NEXT", n, "ROWS", "ONLY"] => do
    return ⟨some (← readNatural n), ← readNatural m⟩
  | ansi, _ => none
  | postgresql, ["OFFSET", m] => do return ⟨none, ← readNatural m⟩
  | f, ["LIMIT", n] => do return ⟨← f.readLimit n, 0⟩
  | f, ["LIMIT", n, "OFFSET", m] => do return ⟨← f.readLimit n, ← readNatural m⟩
  | _, _ => none

def readWindow (f : Family) (text : String) : Option Window :=
  f.readWords (wordsOf text)

end Family

theorem toList_repr (n : Nat) : n.repr.toList = Nat.toDigits 10 n := String.toList_ofList

theorem readNatural_repr (n : Nat) : readNatural n.repr = some n := by
  have hdigits : (Nat.toDigits 10 n).all Char.isDigit :=
    List.all_eq_true.2 fun c hc => Nat.isDigit_of_mem_toDigits (by decide) (by decide) hc
  have hread : Nat.toDigits 10 n ≠ [] ∧ (Nat.toDigits 10 n).all Char.isDigit :=
    ⟨Nat.toDigits_ne_nil, hdigits⟩
  simp only [readNatural, toList_repr]
  rw [if_pos hread, Nat.ofDigitChars_toDigits (by decide) (by decide)]

def IsWord (word : String) : Prop := word ≠ "" ∧ ' ' ∉ word.toList

instance (word : String) : Decidable (IsWord word) :=
  inferInstanceAs (Decidable (word ≠ "" ∧ ' ' ∉ word.toList))

theorem isWord_repr (n : Nat) : IsWord n.repr := by
  refine ⟨fun hempty => Nat.toDigits_ne_nil (n := n) (b := 10) ?_, fun hblank => ?_⟩
  · rw [← toList_repr, hempty]
    rfl
  · rw [toList_repr] at hblank
    exact absurd (Nat.isDigit_of_mem_toDigits (by decide) (by decide) hblank) (by decide)

theorem wordsOf_blank_append (text : String) : wordsOf (" " ++ text) = wordsOf text := by
  have hsplit : (' ' :: text.toList).splitOn ' ' = [] :: text.toList.splitOn ' ' := by
    rw [List.splitOn_cons_eq_if_modifyHead, if_pos (beq_self_eq_true ' ')]
  rw [wordsOf, wordsOf, String.toList_append]
  change List.map _ (List.filter _ ((' ' :: text.toList).splitOn ' ')) = _
  rw [hsplit, List.filter_cons_of_neg (by simp)]

theorem wordsOf_intercalate {words : List String} (h : ∀ word ∈ words, IsWord word) :
    wordsOf (" ".intercalate words) = words := by
  by_cases hnil : words = []
  · rw [hnil]
    rfl
  · have hsplit : (" ".intercalate words).toList.splitOn ' ' = words.map String.toList := by
      rw [String.toList_intercalate]
      refine List.splitOn_intercalate ' ' (fun cs hcs => ?_) (fun hmap => hnil (List.map_eq_nil_iff.1 hmap))
      obtain ⟨word, hword, rfl⟩ := List.mem_map.1 hcs
      exact (h word hword).2
    have hkept : (words.map String.toList).filter (· ≠ []) = words.map String.toList := by
      refine List.filter_eq_self.2 fun cs hcs => ?_
      obtain ⟨word, hword, rfl⟩ := List.mem_map.1 hcs
      exact decide_eq_true fun hempty => (h word hword).1 (String.toList_eq_nil_iff.1 hempty)
    rw [wordsOf, hsplit, hkept, List.map_map]
    exact (List.map_congr_left fun word _ => String.ofList_toList).trans (List.map_id words)

namespace Family

theorem readLimit_repr (f : Family) (n : Nat) : f.readLimit n.repr = some (some n) := by
  have hdigit : n.repr ≠ "-1" := fun heq => by
    have hread := readNatural_repr n
    rw [heq, readNatural, if_neg (by decide)] at hread
    cases hread
  rw [readLimit, if_neg fun h => hdigit h.2, readNatural_repr]
  rfl

theorem mysql_readLimit_unbounded : mysql.readLimit "18446744073709551615" = some (some (2 ^ 64 - 1)) := by
  decide +kernel

/-- The window that a backend is asked for: MySQL has to be given some limit. -/
def asked (f : Family) (w : Window) : Window :=
  if f = mysql then ⟨some (w.limit.getD (2 ^ 64 - 1)), w.offset⟩ else w

theorem rows_asked {α : Type} (f : Family) (w : Window) {rows : List α} (h : rows.length < 2 ^ 64) :
    (f.asked w).rows rows = w.rows rows := by
  obtain ⟨limit, offset⟩ := w
  unfold asked
  split
  · cases limit with
    | none => exact Window.rows_of_length_le (w := ⟨none, offset⟩) (Nat.le_sub_one_of_lt h)
    | some n => rfl
  · rfl

def windowWords (f : Family) (limit : Option String) (offset : String) (skips : Bool) : List String :=
  if f = ansi then
    ["OFFSET", offset, "ROWS"] ++ limit.elim [] fun n => ["FETCH", "NEXT", n, "ROWS", "ONLY"]
  else
    ((limit.or f.unboundedLimit?).elim [] fun n => ["LIMIT", n]) ++
      if skips then ["OFFSET", offset] else []

theorem windowText_eq_intercalate (f : Family) {limit : Option String} (offset : String) {skips : Bool}
    (h : limit.isSome ∨ skips) :
    f.windowText limit offset skips = " ".intercalate (f.windowWords limit offset skips) := by
  cases limit with
  | none =>
    obtain rfl : skips = true := by simpa using h
    cases f <;>
      simp [windowText, windowWords, unboundedLimit?, String.intercalate_cons_cons, ← String.toList_inj]
  | some n =>
    cases f <;> cases skips <;>
      simp [windowText, windowWords, String.intercalate_cons_cons, ← String.toList_inj]

theorem isWord_of_mem_windowWords (f : Family) {limit : Option String} {offset : String} (skips : Bool)
    (hlimit : ∀ n ∈ limit, IsWord n) (hoffset : IsWord offset) :
    ∀ word ∈ f.windowWords limit offset skips, IsWord word := by
  have hkeywords : ∀ k ∈ ["LIMIT", "OFFSET", "ROWS", "FETCH", "NEXT", "ONLY"], IsWord k := by decide
  have hunbounded : ∀ n ∈ f.unboundedLimit?, IsWord n := by cases f <;> decide
  have hgiven : ∀ n ∈ limit.or f.unboundedLimit?, IsWord n := by
    cases limit with
    | none => exact hunbounded
    | some k => exact hlimit
  unfold windowWords
  generalize limit.or f.unboundedLimit? = given at hgiven
  split
  · cases limit <;> simp_all
  · cases given <;> cases skips <;> simp_all

theorem readWords_windowWords {f : Family} {w : Window} (hw : w ≠ .all) :
    f.readWords (f.windowWords (w.limit.map Nat.repr) w.offset.repr (0 < w.offset)) =
      some (f.asked w) := by
  obtain ⟨limit, offset⟩ := w
  cases limit with
  | none =>
    rcases Nat.eq_zero_or_pos offset with rfl | hpos
    · exact absurd rfl hw
    · cases f <;> simp [windowWords, readWords, asked, unboundedLimit?, readNatural_repr, hpos]
      -- The two backends that are given a limit where there is none.
      · rw [mysql_readLimit_unbounded]
        rfl
      · rfl
  | some n =>
    rcases Nat.eq_zero_or_pos offset with rfl | hpos
    · cases f <;> simp [windowWords, readWords, asked, readLimit_repr, readNatural_repr]
    · cases f <;> simp [windowWords, readWords, asked, readLimit_repr, readNatural_repr, hpos]

theorem window_eq_windowText (f : Family) (w : Window) :
    f.window (w.limit.map Int.ofNat) w.offset =
      f.windowText (w.limit.map Nat.repr) w.offset.repr (0 < w.offset) := by
  have hskips : decide (0 < (w.offset : Int)) = decide (0 < w.offset) :=
    decide_eq_decide.2 Int.natCast_pos
  rw [window, Option.map_map, hskips]
  rfl

theorem readWindow_window {f : Family} {w : Window} (hw : w ≠ .all) :
    f.readWindow (" " ++ f.window (w.limit.map Int.ofNat) w.offset) = some (f.asked w) := by
  have hgiven : (w.limit.map Nat.repr).isSome ∨ decide (0 < w.offset) := by
    obtain ⟨_ | n, _ | offset⟩ := w
    · exact absurd rfl hw
    · exact .inr rfl
    · exact .inl rfl
    · exact .inl rfl
  have hwords : ∀ word ∈ f.windowWords (w.limit.map Nat.repr) w.offset.repr (0 < w.offset),
      IsWord word := by
    refine f.isWord_of_mem_windowWords _ (fun word hword => ?_) (isWord_repr w.offset)
    obtain ⟨n, -, rfl⟩ := Option.map_eq_some_iff.1 hword
    exact isWord_repr n
  rw [readWindow, wordsOf_blank_append, window_eq_windowText, windowText_eq_intercalate f _ hgiven,
    wordsOf_intercalate hwords, readWords_windowWords hw]

end Family

end SqlComposer
