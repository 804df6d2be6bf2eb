import SqlComposer.Clause.Condition
import SqlComposer.Proofs.Balance.Shape

/-! Splitting a list of conditions. The first condition reaches to the first connective outside all
parentheses, and each later one from a connective to the parenthesis that closes it. What was put together
from balanced texts, the first of them without a connective on the outside, splits into these texts. -/

namespace SqlComposer

def Logic.opening (l : Logic) : List Char := (" " ++ l.keyword ++ " (").toList

def laterPiece (p : Logic × List Char) : List Char := p.1.opening ++ p.2 ++ [')']

def connective? (cs : List Char) : Option (Logic × List Char) :=
  [Logic.and, .or].findSome? fun l => (l.opening.isPrefixOf? cs).map (l, ·)

/-- The text in front of the first connective that stands outside all parentheses, and the rest. -/
def untilConnective (depth : Nat) : List Char → Option (List Char × List Char)
  | [] => some ([], [])
  | c :: cs =>
    if depth = 0 ∧ (connective? (c :: cs)).isSome then some ([], c :: cs)
    else do
      let inner ← descend depth c
      let (text, rest) ← untilConnective inner cs
      return (c :: text, rest)

/-- The text in front of the parenthesis that closes what was open at the front, and the rest. -/
def untilClosing (depth : Nat) : List Char → Option (List Char × List Char)
  | [] => none
  | c :: cs =>
    match descend depth c with
    | none => some ([], cs)
    | some inner => do
      let (text, rest) ← untilClosing inner cs
      return (c :: text, rest)

theorem connective?_eq_some {cs rest : List Char} {l : Logic} (h : connective? cs = some (l, rest)) :
    cs = l.opening ++ rest := by
  obtain ⟨l', -, hl⟩ := List.exists_of_findSome?_eq_some h
  obtain ⟨t, ht, heq⟩ := Option.map_eq_some_iff.1 hl
  cases heq
  exact (List.append_eq_of_isPrefixOf?_eq_some ht).symm

theorem length_untilClosing {depth : Nat} {cs text rest : List Char}
    (h : untilClosing depth cs = some (text, rest)) : rest.length < cs.length := by
  induction cs generalizing depth text with
  | nil => cases h
  | cons c cs ih =>
    rw [untilClosing] at h
    split at h
    · cases h
      exact Nat.lt_succ_self _
    · obtain ⟨⟨text', rest'⟩, hrest, heq⟩ := Option.bind_eq_some_iff.1 h
      cases heq
      exact Nat.lt_succ_of_lt (ih hrest)

def splitLater (cs : List Char) : Option (List (Logic × List Char)) :=
  if cs = [] then some []
  else
    match hopen : connective? cs with
    | none => none
    | some (l, inner) =>
      match hclose : untilClosing 0 inner with
      | none => none
      | some (text, rest) =>
        have hshorter : rest.length < cs.length := by
          have hinner := length_untilClosing hclose
          rw [connective?_eq_some hopen, List.length_append]
          omega
        (splitLater rest).map ((l, text) :: ·)
termination_by cs.length

/-- The first condition, and the later ones with their logic. -/
def splitConditions (cs : List Char) : Option (List Char × List (Logic × List Char)) := do
  let (first, rest) ← untilConnective 0 cs
  let later ← splitLater rest
  return (first, later)

theorem scan_cons {depth : Nat} {c : Char} {cs : List Char} {last : Nat}
    (h : scan depth (c :: cs) = some last) : ∃ inner, descend depth c = some inner ∧ scan inner cs = some last :=
  Option.bind_eq_some_iff.1 h

theorem untilClosing_append {depth : Nat} {text : List Char} (h : scan depth text = some 0)
    (rest : List Char) : untilClosing depth (text ++ ')' :: rest) = some (text, rest) := by
  induction text generalizing depth with
  | nil =>
    cases h
    rfl
  | cons c cs ih =>
    obtain ⟨inner, hinner, hcs⟩ := scan_cons h
    rw [List.cons_append, untilClosing, hinner]
    simp only [ih hcs]
    rfl

theorem connective?_opening (l : Logic) (rest : List Char) :
    connective? (l.opening ++ rest) = some (l, rest) := by
  cases l <;> rfl

theorem splitLater_of_piece {cs inner text rest : List Char} {l : Logic}
    (hopen : connective? cs = some (l, inner)) (hclose : untilClosing 0 inner = some (text, rest)) :
    splitLater cs = (splitLater rest).map ((l, text) :: ·) := by
  rw [splitLater]
  split
  · next hnil =>
    rw [hnil] at hopen
    cases hopen
  · split
    · next hnone => cases hopen.symm.trans hnone
    · next hsome =>
      cases hopen.symm.trans hsome
      split
      · next hnone => cases hclose.symm.trans hnone
      · next hsome =>
        cases hclose.symm.trans hsome
        rfl

theorem splitLater_flatMap {later : List (Logic × List Char)} (h : ∀ p ∈ later, Balanced p.2) :
    splitLater (later.flatMap laterPiece) = some later := by
  induction later with
  | nil =>
    rw [splitLater]
    rfl
  | cons p later ih =>
    obtain ⟨hp, hlater⟩ := List.forall_mem_cons.1 h
    have hpiece : (p :: later).flatMap laterPiece =
        p.1.opening ++ (p.2 ++ ')' :: later.flatMap laterPiece) := by
      rw [List.flatMap_cons, laterPiece, List.append_assoc, List.append_assoc]
      rfl
    have hopen := connective?_opening p.1 (p.2 ++ ')' :: later.flatMap laterPiece)
    have hclose := untilClosing_append hp (later.flatMap laterPiece)
    rw [hpiece, splitLater_of_piece hopen hclose, ih hlater]
    rfl

def Undivided (depth : Nat) (cs : List Char) : Prop :=
  ∀ n < cs.length, scan depth (cs.take n) = some 0 → connective? (cs.drop n) = none

instance (depth : Nat) (cs : List Char) : Decidable (Undivided depth cs) :=
  inferInstanceAs (Decidable (∀ n < cs.length, _ → _))

theorem Undivided.tail {depth inner : Nat} {c : Char} {cs : List Char} (h : Undivided depth (c :: cs))
    (hc : descend depth c = some inner) : Undivided inner cs := by
  intro n hn hscan
  refine h (n + 1) (Nat.succ_lt_succ hn) ?_
  rw [List.take_succ_cons, scan, List.foldlM_cons, hc]
  exact hscan

/-- What follows a text that is not empty: the end, or a later condition. -/
def Follows (rest : List Char) : Prop := rest = [] ∨ ∃ (l : Logic) (cs : List Char), rest = l.opening ++ cs

theorem not_prefix_opening (l l' : Logic) :
    ∀ n < l'.opening.length, 0 < n → ¬ l'.opening.drop n <+: l.opening := by
  cases l <;> cases l' <;> decide

/-- A connective that begins in a text does not end behind it. -/
theorem connective?_append {cs rest : List Char} (hne : cs ≠ []) (h : connective? cs = none)
    (hrest : Follows rest) : connective? (cs ++ rest) = none := by
  rcases hrest with rfl | ⟨l, more, rfl⟩
  · rwa [List.append_nil]
  have hstart (l' : Logic) (as : List Char) : cs ≠ l'.opening ++ as := by
    rintro rfl
    rw [connective?_opening] at h
    cases h
  by_contra hsome
  obtain ⟨⟨l', inner⟩, hl'⟩ := Option.ne_none_iff_exists'.1 hsome
  rcases List.append_eq_append_iff.1 (connective?_eq_some hl') with ⟨as, has, hmore⟩ | ⟨bs, hbs, -⟩
  · have hdrop : as = l'.opening.drop cs.length := by rw [has, List.drop_left]
    have hlt : cs.length < l'.opening.length := by
      rw [has, List.length_append, Nat.lt_add_right_iff_pos, List.length_pos_iff]
      rintro rfl
      exact hstart l' [] (by rw [has, List.append_nil, List.append_nil])
    refine not_prefix_opening l l' cs.length hlt (List.length_pos_iff.2 hne) ?_
    rw [← hdrop]
    refine List.prefix_of_prefix_length_le (hmore ▸ List.prefix_append as inner)
      (List.prefix_append l.opening more) ?_
    have hpos := List.length_pos_iff.2 hne
    have hlength := congrArg List.length has
    rw [List.length_append] at hlength
    have hat (l : Logic) : 5 ≤ l.opening.length ∧ l.opening.length ≤ 6 := by cases l <;> decide
    have hl := hat l
    have hl' := hat l'
    omega
  · exact hstart l' bs hbs

theorem untilConnective_append {depth : Nat} {text rest : List Char} (h : scan depth text = some 0)
    (hu : Undivided depth text) (hrest : Follows rest) :
    untilConnective depth (text ++ rest) = some (text, rest) := by
  induction text generalizing depth with
  | nil =>
    cases h
    rcases hrest with rfl | ⟨l, more, rfl⟩
    · rfl
    · have hopen := connective?_opening l more
      have hcons : ∃ c cs, l.opening ++ more = c :: cs := by cases l <;> exact ⟨_, _, rfl⟩
      obtain ⟨c, cs, hcs⟩ := hcons
      rw [hcs] at hopen
      rw [List.nil_append, hcs, untilConnective, if_pos ⟨rfl, by rw [hopen]; rfl⟩]
  | cons c cs ih =>
    obtain ⟨inner, hinner, hcs⟩ := scan_cons h
    have hnone (hd : depth = 0) : connective? (c :: (cs ++ rest)) = none :=
      connective?_append (List.cons_ne_nil c cs) (hu 0 (Nat.succ_pos _) (by rw [hd]; rfl)) hrest
    have houtside : ¬ (depth = 0 ∧ (connective? (c :: (cs ++ rest))).isSome) := by
      rintro ⟨hd, hsome⟩
      rw [hnone hd] at hsome
      cases hsome
    rw [List.cons_append, untilConnective, if_neg houtside, hinner]
    simp only [Option.bind_eq_bind, Option.bind_some, ih hcs (hu.tail hinner)]
    rfl

/-- Balanced texts that were put together as conditions are read back one by one. -/
theorem splitConditions_append {first : List Char} {later : List (Logic × List Char)}
    (hfirst : Balanced first) (hu : Undivided 0 first) (hlater : ∀ p ∈ later, Balanced p.2) :
    splitConditions (first ++ later.flatMap laterPiece) = some (first, later) := by
  have hfollows : Follows (later.flatMap laterPiece) := by
    cases later with
    | nil => exact .inl rfl
    | cons p later =>
      refine .inr ⟨p.1, p.2 ++ [')'] ++ later.flatMap laterPiece, ?_⟩
      rw [List.flatMap_cons, laterPiece, List.append_assoc, List.append_assoc, List.append_assoc]
  rw [splitConditions, untilConnective_append hfirst hu hfollows]
  simp only [Option.bind_eq_bind, Option.bind_some, splitLater_flatMap hlater]
  rfl

end SqlComposer
