import Mathlib.Data.List.Basic
import SqlComposer.Dialect.Basic

/-! Quoted names. A quoted name stands between two quote characters, and two of them inside stand for one. A
dialect quotes a name by the quotes that are missing at its ends and leaves its inside as it is, so that a
quoted name stays what it is. The result is read as one name exactly if the quotes inside come in pairs. -/

namespace SqlComposer

namespace QuotedName
variable {q : Char} {cs name rest : List Char}

/-- What stands behind an opening quote: a name up to its closing quote, and the rest of the text. A quote
that another one follows does not close. -/
def readBody (q : Char) : List Char → Option (List Char × List Char)
  | [] => none
  | [c] => if c = q then some ([], []) else none
  | c :: d :: cs =>
    if c = q then
      if d = q then (readBody q cs).map fun (name, rest) => (q :: name, rest)
      else some ([], d :: cs)
    else (readBody q (d :: cs)).map fun (name, rest) => (c :: name, rest)

def read (q : Char) : List Char → Option (List Char × List Char)
  | [] => none
  | c :: cs => if c = q then readBody q cs else none

def escaped (q : Char) (name : List Char) : List Char :=
  name.flatMap fun c => if c = q then [q, q] else [c]

def isPaired (q : Char) : List Char → Bool
  | [] => true
  | [c] => c != q
  | c :: d :: cs => if c = q then d == q && isPaired q cs else isPaired q (d :: cs)

def opened (q : Char) (cs : List Char) : List Char := if cs.head? = some q then cs.tail else cs

/-- A name without a quote at its start, and without one at its end unless that is all of it. -/
def inside (q : Char) (cs : List Char) : List Char :=
  if cs.getLast? = some q ∧ 1 < cs.length then (opened q cs).dropLast else opened q cs

theorem escaped_quote (q : Char) (name : List Char) :
    escaped q (q :: name) = q :: q :: escaped q name := by
  simp [escaped]

theorem escaped_cons {c : Char} (h : c ≠ q) (name : List Char) :
    escaped q (c :: name) = c :: escaped q name := by
  simp [escaped, h]

theorem escaped_of_not_mem (h : q ∉ name) : escaped q name = name := by
  induction name with
  | nil => rfl
  | cons c name ih =>
    rw [List.mem_cons, not_or] at h
    rw [escaped_cons (Ne.symm h.1), ih h.2]

theorem readBody_cons {c : Char} (h : c ≠ q) (cs : List Char) :
    readBody q (c :: cs) = (readBody q cs).map fun (name, rest) => (c :: name, rest) := by
  cases cs with
  | nil => simp [readBody, h]
  | cons d cs => rw [readBody, if_neg h]

theorem readBody_closing (h : rest.head? ≠ some q) : readBody q (q :: rest) = some ([], rest) := by
  cases rest with
  | nil => simp [readBody]
  | cons d rest =>
    have hd : d ≠ q := fun hd => h (congrArg some hd)
    rw [readBody, if_pos rfl, if_neg hd]

theorem readBody_escaped (name : List Char) (h : rest.head? ≠ some q) :
    readBody q (escaped q name ++ q :: rest) = some (name, rest) := by
  induction name with
  | nil => exact readBody_closing h
  | cons c name ih =>
    by_cases hc : c = q
    · subst hc
      rw [escaped_quote, List.cons_append, List.cons_append, readBody, if_pos rfl, if_pos rfl, ih]
      rfl
    · rw [escaped_cons hc, List.cons_append, readBody_cons hc, ih]
      rfl

theorem eq_escaped_of_readBody (h : readBody q cs = some (name, rest)) :
    cs = escaped q name ++ q :: rest := by
  -- A pair of quotes is taken at once, so the induction is on the reading and not on the text.
  induction cs using readBody.induct q generalizing name with
  | case1 => cases h
  | case2 =>
    rw [readBody, if_pos rfl] at h
    cases h
    rfl
  | case3 c hc =>
    rw [readBody, if_neg hc] at h
    cases h
  | case4 cs ih =>
    rw [readBody, if_pos rfl, if_pos rfl] at h
    obtain ⟨⟨front, _⟩, hfront, ⟨⟩⟩ := Option.map_eq_some_iff.1 h
    rw [escaped_quote, ih hfront]
    rfl
  | case5 d cs hd =>
    rw [readBody, if_pos rfl, if_neg hd] at h
    cases h
    rfl
  | case6 c d cs hc ih =>
    rw [readBody, if_neg hc] at h
    obtain ⟨⟨front, _⟩, hfront, ⟨⟩⟩ := Option.map_eq_some_iff.1 h
    rw [escaped_cons hc, ih hfront]
    rfl

theorem read_between_iff : read q (q :: (cs ++ [q])) = some (name, []) ↔ cs = escaped q name := by
  rw [read, if_pos rfl]
  constructor
  · intro h
    exact List.append_cancel_right (eq_escaped_of_readBody h)
  · rintro rfl
    exact readBody_escaped name (by simp)

theorem isPaired_cons {c : Char} (h : c ≠ q) (cs : List Char) : isPaired q (c :: cs) = isPaired q cs := by
  cases cs with
  | nil => simp [isPaired, h]
  | cons d cs => rw [isPaired, if_neg h]

theorem isPaired_iff : isPaired q cs ↔ ∃ name, cs = escaped q name := by
  constructor
  · intro h
    induction cs using isPaired.induct q with
    | case1 => exact ⟨[], rfl⟩
    | case2 c =>
      have hc : c ≠ q := by simpa [isPaired] using h
      exact ⟨[c], (escaped_cons hc []).symm⟩
    | case3 d cs ih =>
      obtain ⟨rfl, hcs⟩ : d = q ∧ isPaired q cs := by simpa [isPaired] using h
      obtain ⟨name, rfl⟩ := ih hcs
      exact ⟨d :: name, (escaped_quote d name).symm⟩
    | case4 c d cs hc ih =>
      rw [isPaired_cons hc] at h
      obtain ⟨name, hname⟩ := ih h
      exact ⟨c :: name, by rw [escaped_cons hc, hname]⟩
  · rintro ⟨name, rfl⟩
    induction name with
    | nil => rfl
    | cons c name ih =>
      by_cases hc : c = q
      · subst hc
        simpa [escaped_quote, isPaired] using ih
      · rwa [escaped_cons hc, isPaired_cons hc]

theorem cons_opened (q : Char) (cs : List Char) :
    (if cs.head? = some q then [] else [q]) ++ cs = q :: opened q cs := by
  cases cs with
  | nil => rfl
  | cons c cs => by_cases hc : c = q <;> simp [opened, hc]

theorem getLast?_opened (h : 1 < cs.length) : (opened q cs).getLast? = cs.getLast? := by
  match cs with
  | [] => exact absurd h (Nat.not_lt_zero 1)
  | [_] => exact absurd h (Nat.lt_irrefl 1)
  | c :: d :: cs => by_cases hc : c = q <;> simp [opened, hc, List.getLast?_cons_cons]

theorem toList_enclose (q : Char) (name : String) :
    (enclose q name).toList = q :: (inside q name.toList ++ [q]) := by
  rw [enclose, String.toList_ofList, cons_opened, inside, List.cons_append]
  split
  · next hclosed =>
    have hlast : q ∈ (opened q name.toList).getLast? := (getLast?_opened hclosed.2).trans hclosed.1
    rw [List.append_nil, List.dropLast_append_getLast? q hlast]
  · rfl

theorem inside_between (q : Char) (cs : List Char) : inside q (q :: (cs ++ [q])) = cs := by
  have hlast : (q :: (cs ++ [q])).getLast? = some q := by
    rw [← List.cons_append, List.getLast?_concat]
  simp [inside, opened, hlast]

theorem inside_of_not_mem (h : q ∉ cs) : inside q cs = cs := by
  have hhead : cs.head? ≠ some q := fun hq => h (List.mem_of_mem_head? hq)
  have hlast : cs.getLast? ≠ some q := fun hq => h (List.mem_of_mem_getLast? hq)
  rw [inside, if_neg fun hclosed => hlast hclosed.1, opened, if_neg hhead]

theorem enclose_enclose (q : Char) (name : String) : enclose q (enclose q name) = enclose q name := by
  rw [← String.toList_inj, toList_enclose, toList_enclose, inside_between]

end QuotedName

namespace Dialect
open QuotedName

/-- A quoted name stands between two quotes and stays as it is when it is quoted again. It is read as one name
exactly if the quotes between these two come in pairs, and then it is the name that is written like that;
so a name without quotes is read back. -/
theorem quoteName_read_iff (d : Dialect) (name : String) :
    let q := d.family.quoteChar
    let text := d.quoteName name
    let body := inside q name.toList
    text.toList = q :: (body ++ [q]) ∧
    d.quoteName text = text ∧
    ((∃ n, read q text.toList = some (n, [])) ↔ isPaired q body) ∧
    (∀ n, read q text.toList = some (n, []) ↔ body = escaped q n) ∧
    (q ∉ name.toList → read q text.toList = some (name.toList, [])) := by
  intro q text body
  have htext : text.toList = q :: (body ++ [q]) := toList_enclose q name
  have hread (n : List Char) : read q text.toList = some (n, []) ↔ body = escaped q n := by
    rw [htext]
    exact read_between_iff
  refine ⟨htext, enclose_enclose q name, ?_, hread, fun hq => (hread _).2 ?_⟩
  · rw [isPaired_iff]
    exact exists_congr hread
  · rw [escaped_of_not_mem hq]
    exact inside_of_not_mem hq

theorem name_in_other_quotes :
    let d : Dialect := { Dialect.standard with family := .mysql }
    d.family.quoteChar ∉ "\"id\"".toList ∧
      read d.family.quoteChar (d.quoteName "\"id\"").toList = some ("\"id\"".toList, []) := by
  intro d
  have hq : d.family.quoteChar ∉ "\"id\"".toList := by decide
  exact ⟨hq, (quoteName_read_iff d "\"id\"").2.2.2.2 hq⟩

/-- A quote in the middle of a name closes it, and the rest stands outside of the quotes. -/
theorem inner_quote_closes_name :
    let text := Dialect.standard.quoteName "a\"b"
    text = "\"a\"b\"" ∧ read '"' text.toList = some (['a'], ['b', '"']) ∧
      ¬ ∃ n, read '"' text.toList = some (n, []) := by
  intro text
  have hread : read '"' text.toList = some (['a'], ['b', '"']) := by decide
  refine ⟨by decide, hread, ?_⟩
  rintro ⟨n, hn⟩
  cases hread.symm.trans hn

end Dialect
end SqlComposer
