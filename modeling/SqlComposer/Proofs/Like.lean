import Mathlib.Data.List.Infix
import SqlComposer.Proofs.Restated

/-! Patterns that filters bind. A backend matches a text against a pattern of LIKE from left to right: a
percent sign stands for any run of characters, an underscore for exactly one, and everything else for itself.
What is bound for a value matches every text that holds the value, begins with it or ends with it, as the
filter asks, and no other text exactly if the value has neither of the two characters. -/

namespace SqlComposer

namespace Like

/-- Whether a pattern without an escape character matches a text. -/
def covers : List Char → List Char → Bool
  | [], text => text.isEmpty
  | p :: pattern, text =>
    if p = '%' then text.tails.any (covers pattern)
    else
      match text with
      | [] => false
      | c :: text => (p = '_' || p = c) && covers pattern text

def Literal (pattern : List Char) : Prop := '%' ∉ pattern ∧ '_' ∉ pattern

instance (pattern : List Char) : Decidable (Literal pattern) :=
  inferInstanceAs (Decidable ('%' ∉ pattern ∧ '_' ∉ pattern))

/-- A text without such characters that the pattern matches: nothing for a run, a letter for one
character. -/
def specimen (pattern : List Char) : List Char :=
  pattern.flatMap fun p => if p = '%' then [] else if p = '_' then ['a'] else [p]

variable {p : Char} {pattern text : List Char}

theorem covers_nil_iff : covers [] text ↔ text = [] := List.isEmpty_iff

theorem covers_run_iff :
    covers ('%' :: pattern) text ↔ ∃ run rest, text = run ++ rest ∧ covers pattern rest := by
  have hstep : covers ('%' :: pattern) text = text.tails.any (covers pattern) := if_pos rfl
  rw [hstep, List.any_eq_true]
  constructor
  · rintro ⟨rest, hrest, hcovers⟩
    obtain ⟨run, hrun⟩ := (List.mem_tails rest text).1 hrest
    exact ⟨run, rest, hrun.symm, hcovers⟩
  · rintro ⟨run, rest, htext, hcovers⟩
    exact ⟨rest, (List.mem_tails rest text).2 ⟨run, htext.symm⟩, hcovers⟩

theorem covers_cons_iff (hp : p ≠ '%') :
    covers (p :: pattern) text ↔
      ∃ c rest, text = c :: rest ∧ (p = '_' ∨ p = c) ∧ covers pattern rest := by
  cases text with
  | nil => simp [covers, hp]
  | cons c rest => simp [covers, hp]

theorem covers_self (text : List Char) : covers text text := by
  induction text with
  | nil => exact covers_nil_iff.2 rfl
  | cons c text ih =>
    by_cases hc : c = '%'
    · subst hc
      exact covers_run_iff.2 ⟨['%'], text, rfl, ih⟩
    · exact (covers_cons_iff hc).2 ⟨c, text, rfl, .inr rfl, ih⟩

theorem covers_append_iff {front back : List Char} :
    covers (front ++ back) text ↔ ∃ a b, text = a ++ b ∧ covers front a ∧ covers back b := by
  -- Each character of the front takes a run or one character off the text, so the text varies.
  induction front generalizing text with
  | nil => simp [covers_nil_iff]
  | cons p front ih =>
    by_cases hp : p = '%'
    · subst hp
      simp only [List.cons_append, covers_run_iff, ih]
      constructor
      · rintro ⟨run, _, rfl, a, b, rfl, ha, hb⟩
        exact ⟨run ++ a, b, (List.append_assoc run a b).symm, ⟨run, a, rfl, ha⟩, hb⟩
      · rintro ⟨_, b, rfl, ⟨run, a, rfl, ha⟩, hb⟩
        exact ⟨run, a ++ b, List.append_assoc run a b, a, b, rfl, ha, hb⟩
    · simp only [List.cons_append, covers_cons_iff hp, ih]
      constructor
      · rintro ⟨c, _, rfl, hc, a, b, rfl, ha, hb⟩
        exact ⟨c :: a, b, rfl, ⟨c, a, rfl, hc, ha⟩, hb⟩
      · rintro ⟨_, b, rfl, ⟨c, a, rfl, hc, ha⟩, hb⟩
        exact ⟨c, a ++ b, rfl, hc, a, b, rfl, ha, hb⟩

theorem covers_any (text : List Char) : covers ['%'] text :=
  covers_run_iff.2 ⟨text, [], (List.append_nil text).symm, covers_nil_iff.2 rfl⟩

theorem covers_literal_iff (h : Literal pattern) : covers pattern text ↔ text = pattern := by
  induction pattern generalizing text with
  | nil => exact covers_nil_iff
  | cons p pattern ih =>
    simp only [Literal, List.mem_cons, not_or] at h
    obtain ⟨⟨hrun, hruns⟩, hone, hones⟩ := h
    rw [covers_cons_iff (Ne.symm hrun)]
    constructor
    · rintro ⟨c, rest, rfl, hp | rfl, hrest⟩
      · exact absurd hp.symm hone
      · rw [(ih ⟨hruns, hones⟩).1 hrest]
    · rintro rfl
      exact ⟨p, pattern, rfl, .inr rfl, covers_self pattern⟩

theorem covers_specimen (pattern : List Char) : covers pattern (specimen pattern) := by
  induction pattern with
  | nil => exact covers_nil_iff.2 rfl
  | cons p pattern ih =>
    by_cases hrun : p = '%'
    · subst hrun
      exact covers_run_iff.2 ⟨[], specimen pattern, rfl, ih⟩
    · by_cases hone : p = '_'
      · subst hone
        exact (covers_cons_iff hrun).2 ⟨'a', specimen pattern, rfl, .inl rfl, ih⟩
      · have hspecimen : specimen (p :: pattern) = p :: specimen pattern := by
          simp [specimen, hrun, hone]
        exact (covers_cons_iff hrun).2 ⟨p, specimen pattern, hspecimen, .inr rfl, ih⟩

theorem literal_specimen (pattern : List Char) : Literal (specimen pattern) := by
  have hmem {c : Char} (h : c ∈ specimen pattern) : c ≠ '%' ∧ c ≠ '_' := by
    obtain ⟨p, -, hp⟩ := List.mem_flatMap.1 h
    split at hp
    · cases hp
    · next hrun =>
      split at hp
      · cases List.mem_singleton.1 hp
        decide
      · next hone =>
        cases List.mem_singleton.1 hp
        exact ⟨hrun, hone⟩
  exact ⟨fun h => (hmem h).1 rfl, fun h => (hmem h).2 rfl⟩

end Like

namespace Pattern
open Like
variable {shape : Pattern} {v text : List Char}

/-- Where a text has the value that a pattern of this shape is made for. -/
def Asks (shape : Pattern) (v text : List Char) : Prop :=
  match shape with
  | contains => v <:+: text
  | startsWith => v <+: text
  | endsWith => v <:+ text
  | verbatim => text = v

theorem asks_self (shape : Pattern) (v : List Char) : shape.Asks v v := by
  cases shape with
  | contains => exact List.infix_rfl
  | startsWith => exact List.prefix_rfl
  | endsWith => exact List.suffix_rfl
  | verbatim => exact Eq.refl v

theorem Asks.subset (h : shape.Asks v text) : v ⊆ text := by
  cases shape with
  | contains => exact List.IsInfix.subset h
  | startsWith => exact List.IsPrefix.subset h
  | endsWith => exact List.IsSuffix.subset h
  | verbatim => exact (show text = v from h) ▸ List.Subset.refl v

/-- The pattern made for a value matches where a text has something that the value matches. -/
theorem covers_wrap_iff (shape : Pattern) (v : String) :
    covers (shape.wrap v).toList text ↔ ∃ w, shape.Asks w text ∧ covers v.toList w := by
  cases shape with
  | contains =>
    -- The two runs take what stands before and behind the match.
    have hwrap : (contains.wrap v).toList = '%' :: (v.toList ++ ['%']) := by
      simp [wrap]
    rw [hwrap, covers_run_iff]
    simp only [covers_append_iff]
    constructor
    · rintro ⟨front, _, rfl, w, back, rfl, hw, -⟩
      exact ⟨w, ⟨front, back, List.append_assoc front w back⟩, hw⟩
    · rintro ⟨w, ⟨front, back, rfl⟩, hw⟩
      exact ⟨front, w ++ back, List.append_assoc front w back, w, back, rfl, hw, covers_any back⟩
  | startsWith =>
    have hwrap : (startsWith.wrap v).toList = v.toList ++ ['%'] := by
      simp [wrap]
    rw [hwrap, covers_append_iff]
    constructor
    · rintro ⟨w, back, rfl, hw, -⟩
      exact ⟨w, List.prefix_append w back, hw⟩
    · rintro ⟨w, ⟨back, rfl⟩, hw⟩
      exact ⟨w, back, rfl, hw, covers_any back⟩
  | endsWith =>
    have hwrap : (endsWith.wrap v).toList = '%' :: v.toList := by
      simp [wrap]
    rw [hwrap, covers_run_iff]
    constructor
    · rintro ⟨front, w, rfl, hw⟩
      exact ⟨w, List.suffix_append front w, hw⟩
    · rintro ⟨w, ⟨front, rfl⟩, hw⟩
      exact ⟨front, w, rfl, hw⟩
  | verbatim => exact ⟨fun h => ⟨text, rfl, h⟩, fun ⟨w, hw, h⟩ => (show text = w from hw) ▸ h⟩

theorem covers_wrap_of_asks {v : String} (h : shape.Asks v.toList text) :
    covers (shape.wrap v).toList text :=
  (covers_wrap_iff shape v).2 ⟨v.toList, h, covers_self v.toList⟩

theorem covers_wrap_literal_iff {v : String} (hv : Literal v.toList) :
    covers (shape.wrap v).toList text ↔ shape.Asks v.toList text := by
  rw [covers_wrap_iff]
  simp only [covers_literal_iff hv, exists_eq_right]

/-- A value with a character that stands for others has a match that does without it. -/
theorem exists_covers_wrap_not_asks (shape : Pattern) {v : String} (hv : ¬ Literal v.toList) :
    ∃ text, covers (shape.wrap v).toList text ∧ ¬ shape.Asks v.toList text := by
  refine ⟨specimen v.toList, ?_, fun hasks => hv ?_⟩
  · exact (covers_wrap_iff shape v).2 ⟨_, shape.asks_self _, covers_specimen v.toList⟩
  · obtain ⟨hrun, hone⟩ := literal_specimen v.toList
    exact ⟨fun h => hrun (hasks.subset h), fun h => hone (hasks.subset h)⟩

end Pattern

namespace FilterEdit
variable {cs : Conditions} {logic : Named Logic} {l : Logic} {v : String}

theorem apply_pattern_text (d : Dialect) (negated : Bool) (shape : Pattern) {column : Value} {c : Phrase}
    (hc : requireText "column" column = .ok c) (hl : Logic.resolve logic = .ok l)
    (hv : Text.isBlank v = false) :
    (pattern negated shape column (.text v) logic).apply d cs = .ok (cs ++
      [⟨l, .text ((if negated then Operator.notLike else .like).predicate c.within)
        [.text (shape.wrap v)]⟩]) := by
  have hpresent : (Value.text v).isAbsent = false := hv
  have hspell : spell (.text v) = .ok v := rfl
  simp only [apply, hc, hpresent, hspell, bind, Except.bind, Conditions.add, hl]
  rfl

theorem apply_acrossPattern_text (d : Dialect) (shape : Pattern) {columns : Value} {names : List String}
    (hnames : columnNames columns = .ok names) (hl : Logic.resolve logic = .ok l)
    (hv : Text.isBlank v = false) :
    (acrossPattern shape columns (.text v) logic).apply d cs = .ok (cs ++
      [⟨l, .text ("(" ++ " OR ".intercalate (names.map Operator.like.predicate) ++ ")")
        (List.replicate names.length (.text (shape.wrap v)))⟩]) := by
  have hpresent : (Value.text v).isAbsent = false := hv
  have hspell : spell (.text v) = .ok v := rfl
  simp only [apply, hpresent, hspell, acrossColumns, hnames, bind, Except.bind, Conditions.add, hl]
  rfl

end FilterEdit

namespace Store

/-- What the filters bind for a text that is not blank is one pattern, once for every column. The
pattern matches each text that has the value where the filter asks for it, and only such texts exactly
if the value has no character that stands for others; otherwise it matches some other text. -/
theorem bound_pattern_covers (s : Store) (id : StatementId) (st : Statement) (shape : Pattern) (v : String)
    (logic : Named Logic) (l : Logic) (hst : s.get? id = some st)
    (hfits : ∀ e : FilterEdit, (Edit.filter e).fits st.body) (hl : Logic.resolve logic = .ok l)
    (hv : Text.isBlank v = false) :
    let pattern := shape.wrap v
    (∀ negated column c, requireText "column" column = .ok c →
      s.edit id (.filter (.pattern negated shape column (.text v) logic)) =
        .made (s.withCondition id st ⟨l,
          .text ((if negated then Operator.notLike else .like).predicate c.within) [.text pattern]⟩)) ∧
    (∀ columns names, FilterEdit.columnNames columns = .ok names →
      s.edit id (.filter (.acrossPattern shape columns (.text v) logic)) =
        .made (s.withCondition id st ⟨l,
          .text ("(" ++ " OR ".intercalate (names.map Operator.like.predicate) ++ ")")
            (List.replicate names.length (.text pattern))⟩)) ∧
    ((∀ text, Like.covers pattern.toList text ↔ shape.Asks v.toList text) ↔ Like.Literal v.toList) ∧
    (∀ text, shape.Asks v.toList text → Like.covers pattern.toList text) ∧
    (¬ Like.Literal v.toList →
      ∃ text, Like.covers pattern.toList text ∧ ¬ shape.Asks v.toList text) := by
  intro pattern
  have hothers := shape.exists_covers_wrap_not_asks (v := v)
  refine ⟨fun negated column c hc => ?_, fun columns names hnames => ?_,
    ⟨fun h => ?_, fun h text => ?_⟩, fun text => Pattern.covers_wrap_of_asks, hothers⟩
  · rw [edit_of_ofExcept hst (Statement.edit_filter (hfits _)),
      FilterEdit.apply_pattern_text st.dialect negated shape hc hl hv]
    rfl
  · rw [edit_of_ofExcept hst (Statement.edit_filter (hfits _)),
      FilterEdit.apply_acrossPattern_text st.dialect shape hnames hl hv]
    rfl
  · by_contra hv
    obtain ⟨text, hcovers, hasks⟩ := hothers hv
    exact hasks ((h text).1 hcovers)
  · exact Pattern.covers_wrap_literal_iff h

theorem underscore_stands_for_others :
    let s : Store := ⟨[⟨.standard, [], .select .empty⟩]⟩
    let bound (e : FilterEdit) : Option (List (List Value)) :=
      ((s.edit 0 (.filter e)).state.get? 0).map fun st => st.body.conditions.map fun c =>
        match c.predicate with
        | .text _ values => values
        | .query .. => []
    bound (.pattern false .startsWith (.text "c") (.text "a_") (.name (.text "or"))) =
        some [[.text "a_%"]] ∧
      bound (.acrossPattern .startsWith (.list [.text "c", .text "d"]) (.text "a_")
        (.name (.text "or"))) = some [[.text "a_%", .text "a_%"]] ∧
      Like.covers "a_%".toList "a_c".toList ∧ ∃ text, Like.covers "a_%".toList text ∧
        ¬ "a_".toList <+: text := by
  intro s bound
  obtain ⟨hone, hmany, -, hasked, hothers⟩ := bound_pattern_covers s 0 _ .startsWith "a_"
    (.name (.text "or")) .or rfl (fun _ => rfl) rfl (by decide)
  have hwild : ¬ Like.Literal "a_".toList := by decide
  refine ⟨?_, ?_, hasked _ ⟨['c'], rfl⟩, hothers hwild⟩
  · simp only [bound, hone false (.text "c") (.text "c") rfl]
    rfl
  · simp only [bound, hmany (.list [.text "c", .text "d"]) ["c", "d"] rfl]
    rfl

end Store
end SqlComposer
