import SqlComposer.Proofs.Expression.Lexing
import SqlComposer.Proofs.Expression.Wrapping
import SqlComposer.Proofs.Json.Nesting

/-! Reading the expression of the binary form. Each change is a wrapping of the expression so far, but
no parentheses are written, so a key that is removed behind a merge, an append or a path that is
removed leaves only the right operand of that operator, and what is prepended to them becomes a part
of their left operand. -/

namespace SqlComposer
namespace Json

def document (v : Value) : Expr := .cast (.parameter v) "jsonb"

def Action.wrapping? : Action → Option Wrapping
  | replace v => some (.alone (document v))
  | wrap .merge [v] | wrap .arrayAppend [v] => some (.behind .concat (document v))
  | wrap .arrayPrepend [v] => some (.ahead (.parameter v) "jsonb")
  | wrap (.setPath p create) [v] =>
    some (.within "jsonb_set"
      [.literal (bracePath p), document v, .name (if create then "true" else "false")])
  | wrap (.removeKey k) [] => some (.behind .minus (.literal k.alone))
  | wrap (.removeKeys ks) [] => some (.behind .minus (.array (ks.map fun k => .literal k.alone)))
  | wrap (.removePath p) [] => some (.behind .hashMinus (.literal (bracePath p)))
  | wrap .stripNulls [] => some (.within "jsonb_strip_nulls" [])
  | wrap .. => none

def Change.wrapping? (c : Change) : Option Wrapping := do
  let a ← c.action.toOption
  a.wrapping?

def Change.SlotFree (c : Change) : Prop :=
  ∀ op vs, c.action = .ok (.wrap op vs) → ∀ k ∈ op.keys, Json.SlotFree k.toList

theorem lexes_document (v : Value) : Lexes "?::jsonb".toList [v] (document v).tokens := by
  intro out rest
  refine ⟨⟨.word "jsonb".toList, out ++ [.parameter v, .cast], rest⟩, ?_, ?_, rfl⟩
  · simp [Lexer.step, Lexer.begin, Lexer.emit, startsWord, continuesWord]
  · simp [Lexer.flush, document, Expr.tokens]

theorem lexes_literals (ss : List String) :
    Lexes (", ".intercalate (ss.map stringLiteral)).toList []
      (Expr.listTokens (ss.map Expr.literal)) := by
  induction ss with
  | nil => exact fun out rest => ⟨_, rfl, by simp [Lexer.flush, Expr.listTokens], rfl⟩
  | cons s ss ih =>
    cases ss with
    | nil => simpa [Expr.listTokens, Expr.tokens] using lexes_stringLiteral s
    | cons s' ss =>
      have hss := (lexes_stringLiteral s).append (opens_comma.append_lexes ih)
        (isDelimited_append (by decide) _)
      rw [List.map_cons, List.map_cons, String.intercalate_cons_cons, String.toList_append,
        String.toList_append, List.append_assoc]
      exact hss

/-- The frame around a text has the tokens of the wrapping around those of the text. -/
def Frame.Wraps (fr : Frame) (vs : List Value) (w : Wrapping) : Prop :=
  ∀ inner ws ts, Lexes inner ws ts →
    Lexes (fr.before.toList ++ inner ++ fr.after.toList)
      (vs.take (marks fr.before) ++ ws ++ vs.drop (marks fr.before)) (w.tokens ts)

theorem Frame.wraps_behind {opening text : String} {vs : List Value} {op : Infix} {right : Expr}
    {front ts : List ExprToken} (ho : Opens opening.toList [] (.operator op :: front))
    (hd : isDelimited opening.toList) (ht : Lexes text.toList vs ts)
    (hright : right.tokens = front ++ ts) :
    Frame.Wraps ⟨"", opening ++ text⟩ vs (.behind op right) := by
  intro inner ws us hinner
  have hafter := ho.append_lexes ht
  have h := hinner.append hafter (isDelimited_append hd _)
  rw [Wrapping.tokens, hright, String.toList_append]
  exact h

theorem Frame.wraps_within {before after function : String} {vs : List Value} {others : List Expr}
    (hbefore : Opens before.toList [] [.opening (.call function)]) (hmarks : marks before = 0)
    (h : Lexes after.toList vs
      (others.flatMap (fun e => .comma :: e.tokens) ++ [.closing false]))
    (hd : isDelimited after.toList) :
    Frame.Wraps ⟨before, after⟩ vs (.within function others) := by
  intro inner ws ts hinner
  have hopened := hbefore.append_lexes hinner
  have hclosed := hopened.append h hd
  rw [hmarks]
  simpa [Wrapping.tokens] using hclosed

theorem Frame.wraps_ahead {before : String} {left : Expr} {type : String} {vs : List Value}
    (hbefore : Opens before.toList vs ((Expr.cast left type).tokens ++ [.operator .concat]))
    (hmarks : marks before = vs.length) : Frame.Wraps ⟨before, ""⟩ vs (.ahead left type) := by
  intro inner ws ts hinner
  have hopened := hbefore.append_lexes hinner
  rw [hmarks, List.take_length, List.drop_length]
  simpa [Wrapping.tokens] using hopened

theorem wraps_concat_document (v : Value) :
    Frame.Wraps ⟨"", " || ?::jsonb"⟩ [v] (.behind .concat (document v)) := by
  have hafter : " || ?::jsonb" = Infix.concat.spaced ++ "?::jsonb" := by decide
  rw [hafter]
  exact Frame.wraps_behind (opens_spaced .concat) (isDelimited_spaced .concat) (lexes_document v) rfl

theorem wraps_literal (op : Infix) (s : String) :
    Frame.Wraps ⟨"", op.spaced ++ stringLiteral s ++ ""⟩ [] (.behind op (.literal s)) := by
  rw [String.append_empty]
  exact Frame.wraps_behind (opens_spaced op) (isDelimited_spaced op) (lexes_stringLiteral s) rfl

theorem wraps_minus_array (ss : List String) :
    Frame.Wraps ⟨"", " - ARRAY[" ++ ", ".intercalate (ss.map stringLiteral) ++ "]"⟩ []
      (.behind .minus (.array (ss.map .literal))) := by
  have hopening : Opens " - ARRAY[".toList [] [.operator .minus, .opening .array] := by
    intro out rest
    simp [Lexer.step, Lexer.begin, Lexer.emit, startsWord, continuesWord]
  have hclosing : Lexes "]".toList [] [.closing true] := fun out rest => ⟨_, rfl, rfl, rfl⟩
  have hitems : Lexes (", ".intercalate (ss.map stringLiteral) ++ "]").toList []
      (Expr.listTokens (ss.map .literal) ++ [.closing true]) := by
    rw [String.toList_append]
    exact (lexes_literals ss).append hclosing (by decide)
  rw [String.append_assoc]
  exact Frame.wraps_behind hopening (by decide) hitems (by rw [Expr.tokens]; rfl)

theorem lexes_flag (create : Bool) :
    Lexes (if create then "true" else "false").toList []
      [.name (if create then "true" else "false")] := by
  cases create with
  | true =>
    exact lexes_identifier
      ⟨'t', "rue".toList, by decide, by decide, List.all_eq_true.1 (by decide)⟩
  | false =>
    exact lexes_identifier
      ⟨'f', "alse".toList, by decide, by decide, List.all_eq_true.1 (by decide)⟩

theorem lexes_arguments (p : Path) (create : Bool) (v : Value) :
    Lexes (", " ++ stringLiteral (bracePath p) ++ (", ?::jsonb, "
        ++ (if create then "true" else "false") ++ ")")).toList [v]
      ([Expr.literal (bracePath p), document v, .name (if create then "true" else "false")].flatMap
        (fun e => .comma :: e.tokens) ++ [.closing false]) := by
  have hvalue : Opens ", ?::jsonb, ".toList [v]
      [.comma, .parameter v, .cast, .name "jsonb", .comma] := by
    intro out rest
    simp [Lexer.step, Lexer.begin, Lexer.emit, startsWord, continuesWord]
  have hpath := opens_comma.append_lexes (lexes_stringLiteral (bracePath p))
  have hrest := hvalue.append_lexes ((lexes_flag create).append lexes_closing (by decide))
  have h := hpath.append hrest (isDelimited_append (by decide) _)
  rw [String.toList_append, String.toList_append, String.toList_append, String.toList_append,
    List.append_assoc ", ?::jsonb, ".toList]
  exact h

end Json

namespace Family
open Json

theorem binaryFrame_wraps {op : Operation} {vs : List Value} (hn : vs.length = op.valueCount) :
    ∃ w, (Action.wrap op vs).wrapping? = some w ∧ (binaryFrame op).Wraps vs w := by
  cases op with
  | merge | arrayAppend =>
    obtain ⟨v, rfl⟩ := List.length_eq_one_iff.1 hn
    exact ⟨_, rfl, wraps_concat_document v⟩
  | arrayPrepend =>
    obtain ⟨v, rfl⟩ := List.length_eq_one_iff.1 hn
    have hmarks : marks "?::jsonb || " = 1 := by decide
    refine ⟨_, rfl, Frame.wraps_ahead ?_ hmarks⟩
    intro out rest
    simp [Lexer.step, Lexer.begin, Lexer.emit, startsWord, continuesWord, Expr.tokens]
  | setPath p create =>
    obtain ⟨v, rfl⟩ := List.length_eq_one_iff.1 hn
    refine ⟨_, rfl, Frame.wraps_within ?_ (by decide) (lexes_arguments p create v) ?_⟩
    · intro out rest
      simp [Lexer.step, Lexer.begin, Lexer.emit, startsWord, continuesWord]
    · rw [String.toList_append, String.toList_append, List.append_assoc]
      exact isDelimited_append (by decide) _
  | stripNulls =>
    obtain rfl := List.length_eq_zero_iff.1 hn
    refine ⟨_, rfl, Frame.wraps_within ?_ (by decide) lexes_closing (by decide)⟩
    intro out rest
    simp [Lexer.step, Lexer.begin, Lexer.emit, startsWord, continuesWord]
  | removeKey k =>
    obtain rfl := List.length_eq_zero_iff.1 hn
    exact ⟨_, rfl, wraps_literal .minus k.alone⟩
  | removeKeys ks =>
    obtain rfl := List.length_eq_zero_iff.1 hn
    have harray := wraps_minus_array (ks.map Phrase.alone)
    rw [List.map_map, List.map_map] at harray
    exact ⟨_, rfl, harray⟩
  | removePath p =>
    obtain rfl := List.length_eq_zero_iff.1 hn
    exact ⟨_, rfl, wraps_literal .hashMinus (bracePath p)⟩

end Family

namespace Json.Revision

def Reading (r : Revision) (ch : Chain) : Prop :=
  ∃ ts, Lexes r.nested.1 r.nested.2 ts ∧ ch.Reads ts

variable {r r' : Revision} {ch : Chain}

theorem reading_start {f : Family} {t : Storage} {column : String} (h : IsIdentifier column) :
    (start f t column).Reading ⟨.name column, []⟩ :=
  ⟨[.name column], lexes_identifier h, fun _ _ _ => rfl⟩

theorem Reading.apply (hr : r.Reading ch) (hf : r.family = .postgresql) (ht : r.storage = .jsonb)
    {c : Change} (hc : c.SlotFree) (h : r.apply c = .ok r') :
    ∃ w, c.wrapping? = some w ∧ r'.Reading (w.around ch) := by
  obtain ⟨ts, hlexes, hreads⟩ := hr
  obtain ⟨tm, htm, hnested⟩ := nested_of_apply h
  unfold Reading
  rw [hnested]
  rcases template_eq_ok htm with ⟨v, ha, rfl⟩ | ⟨op, vs, fr, ha, -, hfr, rfl⟩
  · have hw : c.wrapping? = some (.alone (document v)) := by
      rw [Change.wrapping?, ha]
      rfl
    rw [nest_document, hf, ht]
    exact ⟨_, hw, _, lexes_document v, Wrapping.reads_around hreads (.alone (document v))⟩
  · have hbefore := mark_not_mem_before hfr
    have hafter := (slotFree_after_iff hfr).2 (hc op vs ha)
    rw [hf, ht] at hfr
    obtain rfl : Family.binaryFrame op = fr := Option.some.inj hfr
    obtain ⟨w, hw, hwraps⟩ := Family.binaryFrame_wraps (Change.action_valueCount ha)
    have hchange : c.wrapping? = some w := by
      rw [Change.wrapping?, ha]
      exact hw
    rw [nest_around _ hbefore hafter]
    exact ⟨w, hchange, _, hwraps _ _ _ hlexes, Wrapping.reads_around hreads w⟩

theorem Reading.applyAll (hr : r.Reading ch) (hf : r.family = .postgresql) (ht : r.storage = .jsonb)
    {cs : List Change} (hcs : ∀ c ∈ cs, c.SlotFree) (h : r.applyAll cs = .ok r') :
    ∃ ws, cs.mapM Change.wrapping? = some ws ∧ r'.Reading (Wrapping.written ch ws) := by
  induction cs generalizing r ch with
  | nil =>
    cases h
    exact ⟨[], rfl, hr⟩
  | cons c cs ih =>
    obtain ⟨r₁, h₁, h⟩ := bind_eq_ok.1 h
    obtain ⟨hc, hcs⟩ := List.forall_mem_cons.1 hcs
    obtain ⟨w, hw, hr₁⟩ := hr.apply hf ht hc h₁
    obtain ⟨hfamily, hstorage⟩ := apply_family h₁
    obtain ⟨ws, hws, hr'⟩ := ih hr₁ (hfamily.trans hf) (hstorage.trans ht) hcs h
    exact ⟨w :: ws, by simp [List.mapM_cons, hw, hws], hr'⟩

/-- For all changes of a column in the binary form: the expression can be read, and it is read as
every change applied to the whole result of those before it exactly if no key is removed from, and
nothing prepended to, an expression in which an operator that binds less strongly than a minus stands
outside all calls, or the document is replaced after that. -/
theorem read_render_eq_meant_iff {column : String} (hcolumn : IsIdentifier column)
    {cs : List Change} (hcs : ∀ c ∈ cs, c.SlotFree)
    (h : (start .postgresql .jsonb column).applyAll cs = .ok r) :
    ∃ ws e, cs.mapM Change.wrapping? = some ws ∧
      Expr.read r.render.1.toList r.render.2 = some e ∧
      (e = Wrapping.meant (.name column) ws ↔ ¬Wrapping.Misread ws) := by
  obtain ⟨ws, hws, ts, hlexes, hreads⟩ := (reading_start hcolumn).applyAll rfl rfl hcs h
  have hread : Expr.read r.render.1.toList r.render.2 =
      some (Wrapping.written ⟨.name column, []⟩ ws).value := by
    rw [render_eq_nested, String.toList_ofList, Expr.read, hlexes.exprTokens?]
    exact hreads.readTokens
  exact ⟨ws, _, hws, hread, Wrapping.value_written_eq_meant_iff rfl ws⟩

theorem removal_before_merge_read_back :
    let cs := [Change.removeKey (.text "tmp"), .merge (.int 1)]
    ∃ r, (start .postgresql .jsonb "profile").applyAll cs = .ok r ∧
      r.render = ("profile - 'tmp' || ?::jsonb", [.int 1]) ∧
      Expr.read r.render.1.toList r.render.2 = some (.binary .concat
        (.binary .minus (.name "profile") (.literal "tmp")) (document (.int 1))) := by
  intro cs
  have hcolumn : IsIdentifier "profile" :=
    ⟨'p', "rofile".toList, by decide, by decide, List.all_eq_true.1 (by decide)⟩
  have hcs : ∀ c ∈ cs, c.SlotFree := by
    intro c hc op vs ha
    rcases List.mem_cons.1 hc with rfl | hc
    · cases ha
      decide
    · obtain rfl := List.mem_singleton.1 hc
      cases ha
      decide
  have h : (start .postgresql .jsonb "profile").applyAll cs = .ok _ := rfl
  obtain ⟨ws, e, hws, hread, hmeant⟩ := read_render_eq_meant_iff hcolumn hcs h
  cases hws
  refine ⟨_, h, by rfl, hread.trans (congrArg some (hmeant.2 fun hmisread => ?_))⟩
  exact Bool.false_ne_true ((Wrapping.misread_pair _ _).1 hmisread).2

/-- A key that is removed behind the merge is removed from the merged document alone. -/
theorem removal_behind_merge_read_apart :
    let cs := [Change.merge (.int 1), .removeKey (.text "tmp")]
    let merged (e : Expr) := Expr.binary .concat (.name "profile") e
    let removed (e : Expr) := Expr.binary .minus e (.literal "tmp")
    ∃ r, (start .postgresql .jsonb "profile").applyAll cs = .ok r ∧
      r.render = ("profile || ?::jsonb - 'tmp'", [.int 1]) ∧
      (cs.mapM Change.wrapping?).map (Wrapping.meant (.name "profile")) =
        some (removed (merged (document (.int 1)))) ∧
      Expr.read r.render.1.toList r.render.2 = some (merged (removed (document (.int 1)))) ∧
      removed (merged (document (.int 1))) ≠ merged (removed (document (.int 1))) := by
  intro cs merged removed
  refine ⟨_, rfl, by rfl, rfl, by rfl, ?_⟩
  intro h
  exact Infix.noConfusion (Expr.binary.inj h).1

end Json.Revision
end SqlComposer
