import Mathlib.Data.List.Basic
import SqlComposer.Dialect.Basic

/-! String literals in SQL. A literal stands in single quotes, and two quotes in it stand for one; some
backends also let a backslash take the next character with it, whatever that is. A literal whose quotes
are written twice is read as one literal exactly if every backslash that takes a character takes one that
is no quote: a backslash in front of a quote takes only the first of the two, or the closing one. -/

namespace SqlComposer

/-- What a backslash in a literal does: it is a character like any other, or it takes the next character
with it. -/
inductive Backslash where
  | ordinary
  | taking
  deriving DecidableEq, Repr

/-- A character outside all literals, or a literal with all that stands between its quotes. -/
inductive SqlPiece where
  | code (c : Char)
  | literal (body : List Char)
  deriving DecidableEq, Repr

inductive LiteralMode where
  | outside
  | inside (body : List Char)
  | taking (body : List Char)
  /-- Behind a quote, which ends the literal unless another one follows. -/
  | quote (body : List Char)

namespace SqlPiece

def lex (b : Backslash) : LiteralMode → List Char → Option (List SqlPiece)
  | .outside, [] => some []
  | .quote body, [] => some [literal body]
  | .inside _, [] => none
  | .taking _, [] => none
  | .outside, c :: cs =>
    if c = '\'' then lex b (.inside []) cs else (lex b .outside cs).map (code c :: ·)
  | .inside body, c :: cs =>
    if c = '\'' then lex b (.quote body) cs
    else if b = .taking ∧ c = '\\' then lex b (.taking (body ++ [c])) cs
    else lex b (.inside (body ++ [c])) cs
  | .taking body, c :: cs => lex b (.inside (body ++ [c])) cs
  | .quote body, c :: cs =>
    if c = '\'' then lex b (.inside (body ++ ['\'', '\''])) cs
    else (lex b .outside cs).map fun ps => literal body :: code c :: ps

def read (b : Backslash) (text : String) : Option (List SqlPiece) := lex b .outside text.toList

end SqlPiece

def doubled (cs : List Char) : List Char :=
  cs.flatMap fun c => if c = '\'' then ['\'', '\''] else [c]

@[simp] theorem doubled_nil : doubled [] = [] := rfl

@[simp] theorem doubled_quote (cs : List Char) : doubled ('\'' :: cs) = '\'' :: '\'' :: doubled cs :=
  rfl

theorem doubled_cons {c : Char} (h : c ≠ '\'') (cs : List Char) : doubled (c :: cs) = c :: doubled cs := by
  rw [doubled, List.flatMap_cons, if_neg h]
  rfl

theorem doubled_append (as bs : List Char) : doubled (as ++ bs) = doubled as ++ doubled bs :=
  List.flatMap_append

theorem toList_stringLiteral (s : String) :
    (stringLiteral s).toList = '\'' :: (doubled s.toList ++ ['\'']) := by
  rw [stringLiteral, String.toList_ofList]
  rfl

/-- Every backslash that takes a character takes one that is no quote. The flag tells whether the text
stands behind such a backslash. -/
def isSealed (b : Backslash) (taking : Bool) : List Char → Bool
  | [] => !taking
  | c :: cs =>
    if taking then c != '\'' && isSealed b false cs
    else isSealed b (b == .taking && c == '\\') cs

theorem isSealed_ordinary (cs : List Char) : isSealed .ordinary false cs = true := by
  induction cs with
  | nil => rfl
  | cons c cs ih => exact ih

def unquoted : List Char → List Char
  | '\'' :: '\'' :: cs => '\'' :: unquoted cs
  | c :: cs => c :: unquoted cs
  | [] => []

theorem unquoted_doubled (cs : List Char) : unquoted (doubled cs) = cs := by
  induction cs with
  | nil => rfl
  | cons c cs ih =>
    by_cases hc : c = '\''
    · subst hc
      rw [doubled_quote, unquoted, ih]
    · rw [doubled_cons hc, unquoted, ih]
      intro _ h
      exact absurd h hc

namespace SqlPiece
variable {b : Backslash} {body : List Char} {rest : List Char}

theorem lex_code {as : List Char} (h : '\'' ∉ as) (rest : List Char) :
    lex b .outside (as ++ rest) = (lex b .outside rest).map (as.map code ++ ·) := by
  induction as with
  | nil => simp
  | cons c as ih =>
    rw [List.mem_cons, not_or] at h
    rw [List.cons_append, lex, if_neg (Ne.symm h.1), ih h.2, Option.map_map]
    rfl

def modeIn (taking : Bool) (body : List Char) : LiteralMode :=
  if taking then .taking body else .inside body

theorem lex_modeIn_cons {c : Char} (hc : c ≠ '\'') (body cs : List Char) :
    lex b (modeIn false body) (c :: cs) =
      lex b (modeIn (b == .taking && c == '\\') (body ++ [c])) cs := by
  have hinside : lex b (.inside body) (c :: cs) =
      if b = .taking ∧ c = '\\' then lex b (.taking (body ++ [c])) cs
      else lex b (.inside (body ++ [c])) cs := if_neg hc
  rw [modeIn, if_neg Bool.false_ne_true, hinside]
  by_cases h : b = .taking ∧ c = '\\'
  · simp [modeIn, h]
  · rw [if_neg h, modeIn, if_neg]
    simpa using h

theorem lex_modeIn_taken (c : Char) (body cs : List Char) :
    lex b (modeIn true body) (c :: cs) = lex b (modeIn false (body ++ [c])) cs := rfl

theorem lex_modeIn_quotes (body cs : List Char) :
    lex b (modeIn false body) ('\'' :: '\'' :: cs) =
      lex b (modeIn false (body ++ ['\'', '\''])) cs := rfl

theorem lex_doubled {taking : Bool} {s : List Char} (h : isSealed b taking s = true)
    (body rest : List Char) :
    lex b (modeIn taking body) (doubled s ++ rest) = lex b (.inside (body ++ doubled s)) rest := by
  induction s generalizing taking body with
  | nil =>
    obtain rfl : taking = false := by simpa [isSealed] using h
    simp [modeIn]
  | cons c s ih =>
    cases taking with
    | true =>
      obtain ⟨hc, hs⟩ : c ≠ '\'' ∧ isSealed b false s = true := by simpa [isSealed] using h
      rw [doubled_cons hc, List.cons_append, lex_modeIn_taken, ih hs, List.append_assoc]
      rfl
    | false =>
      by_cases hc : c = '\''
      · subst hc
        have hs : isSealed b false s = true := by simpa [isSealed] using h
        rw [doubled_quote, List.cons_append, List.cons_append, lex_modeIn_quotes, ih hs,
          List.append_assoc]
        rfl
      · have hs : isSealed b (b == .taking && c == '\\') s = true := by simpa [isSealed] using h
        rw [doubled_cons hc, List.cons_append, lex_modeIn_cons hc, ih hs, List.append_assoc]
        rfl

theorem lex_stringLiteral {s : String} (h : isSealed b false s.toList = true)
    (hrest : rest.head? ≠ some '\'') :
    lex b .outside ((stringLiteral s).toList ++ rest) =
      (lex b .outside rest).map (literal (doubled s.toList) :: ·) := by
  have hbody := lex_doubled h [] ('\'' :: rest)
  have hopening : lex b .outside ((stringLiteral s).toList ++ rest) =
      lex b (modeIn false []) (doubled s.toList ++ '\'' :: rest) := by
    rw [toList_stringLiteral, List.cons_append, List.append_assoc]
    rfl
  have hclosing : lex b (.inside (doubled s.toList)) ('\'' :: rest) =
      lex b (.quote (doubled s.toList)) rest := rfl
  rw [hopening, hbody, List.nil_append, hclosing]
  cases rest with
  | nil => rfl
  | cons c cs =>
    have hc : c ≠ '\'' := fun hc => hrest (congrArg some hc)
    rw [lex, if_neg hc, lex, if_neg hc, Option.map_map]
    rfl

def IsBody (b : Backslash) (body : List Char) : Prop :=
  lex b (.inside []) (body ++ ['\'']) = some [literal body]

def Reached (b : Backslash) : LiteralMode → Prop
  | .outside => True
  | .inside body => ∀ rest, lex b (.inside []) (body ++ rest) = lex b (.inside body) rest
  | .taking body => ∀ rest, lex b (.inside []) (body ++ rest) = lex b (.taking body) rest
  | .quote body => ∀ rest, lex b (.inside []) (body ++ '\'' :: rest) = lex b (.quote body) rest

theorem reached_outside : Reached b .outside := trivial

theorem reached_opening : Reached b (.inside []) := fun _ => rfl

theorem Reached.closing (h : Reached b (.inside body)) : Reached b (.quote body) := by
  intro rest
  rw [h, lex, if_pos rfl]

theorem Reached.backslash (h : Reached b (.inside body)) {c : Char} (hc : c ≠ '\'')
    (ht : b = .taking ∧ c = '\\') : Reached b (.taking (body ++ [c])) := by
  intro rest
  rw [List.append_assoc, h, List.singleton_append, lex, if_neg hc, if_pos ht]

theorem Reached.further (h : Reached b (.inside body)) {c : Char} (hc : c ≠ '\'')
    (ht : ¬(b = .taking ∧ c = '\\')) : Reached b (.inside (body ++ [c])) := by
  intro rest
  rw [List.append_assoc, h, List.singleton_append, lex, if_neg hc, if_neg ht]

theorem Reached.taken (h : Reached b (.taking body)) (c : Char) :
    Reached b (.inside (body ++ [c])) := by
  intro rest
  rw [List.append_assoc, h, List.singleton_append, lex]

theorem Reached.doubled (h : Reached b (.quote body)) :
    Reached b (.inside (body ++ ['\'', '\''])) := by
  intro rest
  rw [List.append_assoc, List.cons_append, h, List.singleton_append, lex, if_pos rfl]

theorem isBody_of_mem_lex {mode : LiteralMode} (hmode : Reached b mode) {cs : List Char}
    {ps : List SqlPiece} (h : lex b mode cs = some ps) (hbody : literal body ∈ ps) :
    IsBody b body := by
  induction cs generalizing mode ps with
  | nil =>
    cases mode with
    | outside =>
      cases h
      exact absurd hbody List.not_mem_nil
    | quote read =>
      cases h
      obtain rfl := literal.inj (List.mem_singleton.1 hbody)
      exact hmode []
    | inside | taking => cases h
  | cons c cs ih =>
    cases mode with
    | outside =>
      rw [lex] at h
      split at h
      · exact ih reached_opening h hbody
      · obtain ⟨qs, hqs, rfl⟩ := Option.map_eq_some_iff.1 h
        rcases List.mem_cons.1 hbody with hbody | hbody
        · cases hbody
        · exact ih reached_outside hqs hbody
    | inside read =>
      rw [lex] at h
      split at h
      · exact ih hmode.closing h hbody
      · next hc =>
        split at h
        · next ht => exact ih (hmode.backslash hc ht) h hbody
        · next ht => exact ih (hmode.further hc ht) h hbody
    | taking read => exact ih (hmode.taken c) h hbody
    | quote read =>
      rw [lex] at h
      split at h
      · exact ih hmode.doubled h hbody
      · obtain ⟨qs, hqs, rfl⟩ := Option.map_eq_some_iff.1 h
        rcases List.mem_cons.1 hbody with hbody | hbody
        · obtain rfl := literal.inj hbody
          exact hmode []
        · rcases List.mem_cons.1 hbody with hbody | hbody
          · cases hbody
          · exact ih reached_outside hqs hbody

/-- With one quote too many in front, the quotes of a text are paired wrongly to its end. -/
theorem lex_quote_doubled_ne (s body : List Char) :
    lex b (.quote body) (doubled s ++ ['\'']) ≠ some [literal (body ++ '\'' :: doubled s)] := by
  induction s generalizing body with
  | nil => exact nofun
  | cons c s ih =>
    by_cases hc : c = '\''
    · subst hc
      have hstep : lex b (.quote body) ('\'' :: '\'' :: (doubled s ++ ['\''])) =
          lex b (.quote (body ++ ['\'', '\''])) (doubled s ++ ['\'']) := rfl
      have hrest := ih (body ++ ['\'', '\''])
      rw [List.append_assoc] at hrest
      rw [doubled_quote, List.cons_append, List.cons_append, hstep]
      exact hrest
    · rw [doubled_cons hc, List.cons_append, lex, if_neg hc]
      intro h
      obtain ⟨ps, -, hps⟩ := Option.map_eq_some_iff.1 h
      exact List.cons_ne_nil _ _ (List.cons.inj hps).2

theorem lex_doubled_eq_iff (taking : Bool) (s body : List Char) :
    lex b (modeIn taking body) (doubled s ++ ['\'']) = some [literal (body ++ doubled s)] ↔
      isSealed b taking s = true := by
  refine ⟨fun h => ?_, fun h => by rw [lex_doubled h]; rfl⟩
  induction s generalizing taking body with
  | nil =>
    cases taking with
    | true => cases h
    | false => rfl
  | cons c s ih =>
    cases taking with
    | true =>
      by_cases hc : c = '\''
      · -- The backslash takes the first of the two quotes.
        subst hc
        have hstep : lex b (modeIn true body) ('\'' :: '\'' :: (doubled s ++ ['\''])) =
            lex b (.quote (body ++ ['\''])) (doubled s ++ ['\'']) := rfl
        have hne := lex_quote_doubled_ne (b := b) s (body ++ ['\''])
        rw [List.append_assoc] at hne
        rw [doubled_quote, List.cons_append, List.cons_append, hstep] at h
        exact absurd h hne
      · have hs := ih false (body ++ [c])
        rw [List.append_assoc] at hs
        rw [doubled_cons hc, List.cons_append, lex_modeIn_taken] at h
        simpa [isSealed, hc] using hs h
    | false =>
      by_cases hc : c = '\''
      · subst hc
        have hs := ih false (body ++ ['\'', '\''])
        rw [List.append_assoc] at hs
        rw [doubled_quote, List.cons_append, List.cons_append, lex_modeIn_quotes] at h
        simpa [isSealed] using hs h
      · have hs := ih (b == .taking && c == '\\') (body ++ [c])
        rw [List.append_assoc] at hs
        rw [doubled_cons hc, List.cons_append, lex_modeIn_cons hc] at h
        simpa [isSealed] using hs h

theorem isBody_doubled_iff (s : List Char) : IsBody b (doubled s) ↔ isSealed b false s = true :=
  lex_doubled_eq_iff false s []

def contents (ps : List SqlPiece) : List String :=
  ps.filterMap fun
    | code _ => none
    | literal body => some (String.ofList (unquoted body))

end SqlPiece
end SqlComposer
