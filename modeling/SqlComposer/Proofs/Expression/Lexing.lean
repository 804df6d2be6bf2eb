import SqlComposer.Dialect.Basic
import SqlComposer.Proofs.Expression.Reading

/-! Tokens of expressions. A text is taken apart from left to right; every placeholder outside a
literal takes the next value. A word in front of a bracket names what the bracket encloses. -/

namespace SqlComposer

def startsWord (c : Char) : Bool := c.isAlpha || c == '_' || 0x80 ≤ c.toNat

def continuesWord (c : Char) : Bool := startsWord c || c.isDigit || c == '$'

def IsIdentifier (s : String) : Prop :=
  ∃ c cs, s.toList = c :: cs ∧ startsWord c ∧ ∀ d ∈ cs, continuesWord d

/-- What has been begun: nothing, a word, a literal, one that may be over, or an operator of two
characters. -/
inductive LexMode where
  | idle
  | word (cs : List Char)
  | literal (cs : List Char)
  | quote (cs : List Char)
  | operator (first : Char)

structure Lexer where
  mode : LexMode
  tokens : List ExprToken
  values : List Value

namespace Lexer

def emit (l : Lexer) (t : ExprToken) : Lexer := ⟨.idle, l.tokens ++ [t], l.values⟩

def begin (l : Lexer) (c : Char) : Option Lexer :=
  if startsWord c then some ⟨.word [c], l.tokens, l.values⟩
  else match c with
    | ' ' => some ⟨.idle, l.tokens, l.values⟩
    | '\'' => some ⟨.literal [], l.tokens, l.values⟩
    | '?' =>
      match l.values with
      | [] => none
      | v :: vs => some ⟨.idle, l.tokens ++ [.parameter v], vs⟩
    | '(' => some (l.emit (.opening .parentheses))
    | ')' => some (l.emit (.closing false))
    | ']' => some (l.emit (.closing true))
    | ',' => some (l.emit .comma)
    | '-' => some (l.emit (.operator .minus))
    | '|' | '#' | ':' => some ⟨.operator c, l.tokens, l.values⟩
    | _ => none

def step (l : Lexer) (c : Char) : Option Lexer :=
  match l.mode with
  | .idle => l.begin c
  | .word cs =>
    if continuesWord c then some { l with mode := .word (cs ++ [c]) }
    else if c = '(' then some (l.emit (.opening (.call (String.ofList cs))))
    else if c = '[' then
      if String.ofList cs = "ARRAY" then some (l.emit (.opening .array)) else none
    else (l.emit (.name (String.ofList cs))).begin c
  | .literal cs =>
    if c = '\'' then some { l with mode := .quote cs } else some { l with mode := .literal (cs ++ [c]) }
  | .quote cs =>
    if c = '\'' then some { l with mode := .literal (cs ++ [c]) }
    else (l.emit (.literal (String.ofList cs))).begin c
  | .operator first =>
    match first, c with
    | '|', '|' => some (l.emit (.operator .concat))
    | '#', '-' => some (l.emit (.operator .hashMinus))
    | ':', ':' => some (l.emit .cast)
    | _, _ => none

def flush (l : Lexer) : Option (List ExprToken) :=
  match l.mode with
  | .idle => some l.tokens
  | .word cs => some (l.tokens ++ [.name (String.ofList cs)])
  | .quote cs => some (l.tokens ++ [.literal (String.ofList cs)])
  | .literal _ | .operator _ => none

end Lexer

/-- The tokens of a text, if it takes all the values. -/
def exprTokens? (cs : List Char) (vs : List Value) : Option (List ExprToken) := do
  let l ← cs.foldlM Lexer.step ⟨.idle, [], vs⟩
  match l.values with
  | [] => l.flush
  | _ :: _ => none

def Expr.read (cs : List Char) (vs : List Value) : Option Expr := do
  let ts ← exprTokens? cs vs
  Expr.readTokens ts

def isDelimiter (c : Char) : Bool := c == ' ' || c == ',' || c == ')' || c == ']'

def isDelimited (cs : List Char) : Bool := cs.head?.any isDelimiter

/-- The text has these tokens, whatever has been read before and is still to come. -/
def Lexes (cs : List Char) (vs : List Value) (ts : List ExprToken) : Prop :=
  ∀ out rest, ∃ l, cs.foldlM Lexer.step ⟨.idle, out, vs ++ rest⟩ = some l ∧
    l.flush = some (out ++ ts) ∧ l.values = rest

def Opens (cs : List Char) (vs : List Value) (ts : List ExprToken) : Prop :=
  ∀ out rest, cs.foldlM Lexer.step ⟨.idle, out, vs ++ rest⟩ = some ⟨.idle, out ++ ts, rest⟩

variable {as bs : List Char} {vs ws : List Value} {ts us : List ExprToken}

theorem isDelimited_append (h : isDelimited as) (bs : List Char) : isDelimited (as ++ bs) := by
  cases as with
  | nil => cases h
  | cons d as => exact h

theorem Lexes.exprTokens? (h : Lexes as vs ts) : exprTokens? as vs = some ts := by
  obtain ⟨l, hl, hflush, hvalues⟩ := h [] []
  rw [List.append_nil] at hl
  rw [SqlComposer.exprTokens?, hl]
  simp only [Option.bind_eq_bind, Option.bind_some, hvalues]
  exact hflush

theorem Opens.append_lexes (ha : Opens as vs ts) (hb : Lexes bs ws us) :
    Lexes (as ++ bs) (vs ++ ws) (ts ++ us) := by
  intro out rest
  obtain ⟨l, hl, hflush, hvalues⟩ := hb (out ++ ts) rest
  refine ⟨l, ?_, by rw [hflush, List.append_assoc], hvalues⟩
  rw [List.foldlM_append, List.append_assoc, ha]
  exact hl

theorem Lexer.step_of_flush {l : Lexer} (hl : l.flush = some ts) {c : Char} (hc : isDelimiter c) :
    l.step c = begin ⟨.idle, ts, l.values⟩ c := by
  have hplain : continuesWord c = false ∧ c ≠ '(' ∧ c ≠ '[' ∧ c ≠ '\'' := by
    simp only [isDelimiter, Bool.or_eq_true, beq_iff_eq] at hc
    rcases hc with ((rfl | rfl) | rfl) | rfl <;> decide
  obtain ⟨hword, hopening, hbracket, hquote⟩ := hplain
  obtain ⟨mode, tokens, values⟩ := l
  cases mode with
  | idle =>
    cases hl
    rfl
  | word cs =>
    cases hl
    simp [step, hword, hopening, hbracket, emit]
  | quote cs =>
    cases hl
    simp [step, hquote, emit]
  | literal | operator => cases hl

theorem Lexes.append (ha : Lexes as vs ts) (hb : Lexes bs ws us)
    (hd : isDelimited bs) : Lexes (as ++ bs) (vs ++ ws) (ts ++ us) := by
  intro out rest
  obtain ⟨d, bs, rfl⟩ : ∃ d cs, bs = d :: cs := by
    cases bs with
    | nil => cases hd
    | cons d cs => exact ⟨d, cs, rfl⟩
  obtain ⟨l, hl, hflush, hvalues⟩ := ha out (ws ++ rest)
  obtain ⟨l', hl', hflush', hvalues'⟩ := hb (out ++ ts) rest
  refine ⟨l', ?_, by rw [hflush', List.append_assoc], hvalues'⟩
  -- The delimiter ends the last token of the first text, which leaves the reader idle.
  have hstep := Lexer.step_of_flush hflush hd
  rw [hvalues] at hstep
  rw [List.foldlM_append, List.append_assoc, hl]
  show (l.step d >>= fun m => bs.foldlM Lexer.step m) = some l'
  rw [hstep]
  exact hl'

theorem lexes_identifier {s : String} (h : IsIdentifier s) : Lexes s.toList [] [.name s] := by
  obtain ⟨c, cs, hs, hc, hcs⟩ := h
  have hrun (cs : List Char) (hcs : ∀ d ∈ cs, continuesWord d) (before : List Char)
      (out : List ExprToken) (vs : List Value) :
      cs.foldlM Lexer.step ⟨.word before, out, vs⟩ = some ⟨.word (before ++ cs), out, vs⟩ := by
    induction cs generalizing before with
    | nil => simp
    | cons d cs ih =>
      obtain ⟨hd, hcs⟩ := List.forall_mem_cons.1 hcs
      have hstep : Lexer.step ⟨.word before, out, vs⟩ d = some ⟨.word (before ++ [d]), out, vs⟩ :=
        if_pos hd
      rw [List.foldlM_cons, hstep, Option.bind_eq_bind, Option.bind_some, ih hcs,
        List.append_assoc, List.singleton_append]
  intro out rest
  have hstep : Lexer.step ⟨.idle, out, [] ++ rest⟩ c = some ⟨.word [c], out, rest⟩ := if_pos hc
  refine ⟨⟨.word (c :: cs), out, rest⟩, ?_, ?_, rfl⟩
  · rw [hs, List.foldlM_cons, hstep, Option.bind_eq_bind, Option.bind_some, hrun cs hcs]
    rfl
  · rw [← hs]
    simp [Lexer.flush]

theorem lexes_stringLiteral (s : String) : Lexes (stringLiteral s).toList [] [.literal s] := by
  have hrun (cs before : List Char) (out : List ExprToken) (vs : List Value) :
      (cs.flatMap fun c => if c = '\'' then ['\'', '\''] else [c]).foldlM Lexer.step
        ⟨.literal before, out, vs⟩ = some ⟨.literal (before ++ cs), out, vs⟩ := by
    induction cs generalizing before with
    | nil => simp
    | cons c cs ih =>
      have hchar : (if c = '\'' then ['\'', '\''] else [c]).foldlM Lexer.step
          ⟨.literal before, out, vs⟩ = some ⟨.literal (before ++ [c]), out, vs⟩ := by
        by_cases hc : c = '\''
        · subst hc
          rfl
        · simp [Lexer.step, hc]
      rw [List.flatMap_cons, List.foldlM_append, hchar, Option.bind_eq_bind, Option.bind_some, ih,
        List.append_assoc, List.singleton_append]
  intro out rest
  have hopening : Lexer.step ⟨.idle, out, rest⟩ '\'' = some ⟨.literal [], out, rest⟩ := rfl
  have hclosing : Lexer.step ⟨.literal s.toList, out, rest⟩ '\'' = some ⟨.quote s.toList, out, rest⟩ :=
    rfl
  refine ⟨⟨.quote s.toList, out, rest⟩, ?_, by simp [Lexer.flush], rfl⟩
  rw [stringLiteral, String.toList_ofList, List.cons_append, List.nil_append, List.foldlM_cons,
    hopening, Option.bind_eq_bind, Option.bind_some, List.foldlM_append, hrun]
  simp [hclosing]

theorem opens_comma : Opens ", ".toList [] [.comma] := by
  intro out rest
  simp [Lexer.step, Lexer.begin, Lexer.emit, startsWord]

theorem lexes_closing : Lexes ")".toList [] [.closing false] := fun _ _ => ⟨_, rfl, rfl, rfl⟩

def Infix.spaced : Infix → String
  | minus => " - "
  | concat => " || "
  | hashMinus => " #- "

theorem opens_spaced (op : Infix) : Opens op.spaced.toList [] [.operator op] := by
  intro out rest
  cases op <;> simp [Infix.spaced, Lexer.step, Lexer.begin, Lexer.emit, startsWord]

theorem isDelimited_spaced (op : Infix) : isDelimited op.spaced.toList := by
  cases op <;> decide

end SqlComposer
