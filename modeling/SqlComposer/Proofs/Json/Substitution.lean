import SqlComposer.Proofs.Json.Layout
import SqlComposer.Proofs.Json.Reading

/-! Substitution against direct application. A revision writes every change around a slot and fills the
slot in later; a change can as well be applied to the expression so far. A name that holds a slot tells
the two apart: filling in replaces every slot of a template, also those in names. -/

namespace SqlComposer.Json

def Change.expression (f : Family) (t : Storage) (inner : String) (c : Change) :
    Except Fault String := do
  let a ← c.action
  a.expression f t inner

def directExpression (f : Family) (t : Storage) (column : String) (cs : List Change) :
    Except Fault String :=
  cs.foldlM (Change.expression f t) column

/-- Some change has a slot in a name while the expression is another text than the slot, and the
document is not replaced after that. -/
def Displaced (column : String) (cs : List Change) : Prop :=
  ∃ before c after, cs = before ++ c :: after ∧
    (¬c.SlotFree ∧ ¬(before = [] ∧ column = slot)) ∧ ∀ x ∈ after, x.replaces = false

theorem fill_cutFrom {x : Char} {xs : List Char} (skip : Nat) (cs : List Char) :
    fill (x :: xs) (cutFrom (x :: xs) skip cs) = cs.drop skip := by
  induction cs generalizing skip with
  | nil => simp [cutFrom, fill]
  | cons c cs ih =>
    cases skip with
    | succ k => exact ih k
    | zero =>
      rw [cutFrom]
      split
      · next hp =>
        obtain ⟨rfl, rest, rfl⟩ := List.cons_prefix_cons.1 (List.isPrefixOf_iff_prefix.1 hp)
        have hrest := ih xs.length
        rw [List.drop_left] at hrest
        rw [fill, List.length_cons, Nat.add_sub_cancel, hrest, List.nil_append, List.drop_zero,
          List.cons_append]
        exact cutFrom_ne_nil _ _ _
      · have hcs := ih 0
        split
        · next piece pieces hpieces =>
          rw [hpieces] at hcs
          cases pieces with
          | nil => simpa [fill] using hcs
          | cons next pieces => simpa [fill] using hcs
        · next hpieces => exact absurd hpieces (cutFrom_ne_nil _ _ _)

theorem length_fill (e : List Char) (pieces : List (List Char)) :
    (fill e pieces).length = pieces.flatten.length + (pieces.length - 1) * e.length := by
  induction pieces with
  | nil => simp [fill]
  | cons piece pieces ih =>
    cases pieces with
    | nil => simp [fill]
    | cons next pieces =>
      have hstep : fill e (piece :: next :: pieces) = piece ++ e ++ fill e (next :: pieces) := rfl
      have hflat : (piece :: next :: pieces).flatten = piece ++ (next :: pieces).flatten := rfl
      rw [hstep, hflat, List.length_append, List.length_append, List.length_append, ih]
      simp only [List.length_cons, Nat.add_sub_cancel, Nat.succ_mul]
      omega

theorem fill_inj {a b : List Char} {pieces : List (List Char)} (h : 2 ≤ pieces.length)
    (hfill : fill a pieces = fill b pieces) : a = b := by
  have hlengths := congrArg List.length hfill
  rw [length_fill, length_fill] at hlengths
  have hlength : a.length = b.length :=
    Nat.eq_of_mul_eq_mul_left (show 0 < pieces.length - 1 by omega) (by omega)
  rcases pieces with _ | ⟨piece, _ | ⟨next, pieces⟩⟩
  · simp at h
  · simp at h
  · have hrest : piece ++ a ++ fill a (next :: pieces) = piece ++ b ++ fill b (next :: pieces) := hfill
    rw [List.append_assoc, List.append_assoc] at hrest
    exact (List.append_inj (List.append_cancel_left hrest) hlength).1

theorem two_le_length_cutFrom {cs : List Char} (h : ¬SlotFree cs) :
    2 ≤ (cutFrom slot.toList 0 cs).length := by
  replace h := Decidable.not_not.1 h
  induction cs with
  | nil => exact absurd (List.infix_nil.1 h) (by decide)
  | cons c cs ih =>
    rw [cutFrom]
    split
    · have hpos := List.length_pos_of_ne_nil (cutFrom_ne_nil slot.toList cs (slot.toList.length - 1))
      rw [List.length_cons]
      omega
    · next hp =>
      rcases List.infix_cons_iff.1 h with h | h
      · exact absurd (List.isPrefixOf_iff_prefix.2 h) hp
      · have hcs := ih h
        split
        · next piece pieces hpieces =>
          rw [hpieces] at hcs
          exact hcs
        · next hpieces => exact absurd hpieces (cutFrom_ne_nil _ _ _)

theorem fill_concat (e : List Char) {pieces : List (List Char)} (h : pieces ≠ [])
    (last : List Char) : fill e (pieces ++ [last]) = fill e pieces ++ e ++ last := by
  induction pieces with
  | nil => exact absurd rfl h
  | cons piece pieces ih =>
    cases pieces with
    | nil => rfl
    | cons next pieces =>
      have hrest := ih (List.cons_ne_nil next pieces)
      have hlong : fill e (piece :: next :: pieces ++ [last]) =
          piece ++ e ++ fill e (next :: pieces ++ [last]) := rfl
      have hshort : fill e (piece :: next :: pieces) = piece ++ e ++ fill e (next :: pieces) := rfl
      rw [hlong, hrest, hshort]
      simp only [List.append_assoc]

/-- Behind the last slot of a text stands the same, whatever is filled in. -/
theorem exists_behind_last_slot {cs : List Char} (h : ¬SlotFree cs) :
    ∃ last, (∃ front, cs = front ++ slot.toList ++ last) ∧
      ∀ e, ∃ front, fill e (cutFrom slot.toList 0 cs) = front ++ e ++ last := by
  have hcount := two_le_length_cutFrom h
  rcases (cutFrom slot.toList 0 cs).eq_nil_or_concat' with hnil | ⟨pieces, last, hpieces⟩
  · rw [hnil] at hcount
    simp at hcount
  · have hne : pieces ≠ [] := by
      rintro rfl
      rw [hpieces] at hcount
      simp at hcount
    have hslot : fill slot.toList (cutFrom slot.toList 0 cs) = cs := by
      rw [slot_toList]
      exact fill_cutFrom 0 cs
    refine ⟨last, ⟨fill slot.toList pieces, ?_⟩, fun e => ⟨fill e pieces, ?_⟩⟩
    · rw [← fill_concat _ hne, ← hpieces, hslot]
    · rw [hpieces, fill_concat e hne]

def EndsApart (cs : List Char) : Prop := ∃ c ∈ cs.getLast?, c ≠ '\x00'

theorem EndsApart.append_left {bs : List Char} (h : EndsApart bs) (as : List Char) :
    EndsApart (as ++ bs) := by
  obtain ⟨c, hc, hne⟩ := h
  exact ⟨c, by rw [List.getLast?_append, Option.mem_def.1 hc]; rfl, hne⟩

theorem endsApart_of_not_mem {cs : List Char} (h : '\x00' ∉ cs) (hne : cs ≠ []) : EndsApart cs := by
  refine ⟨cs.getLast hne, List.getLast?_eq_some_getLast hne, fun hlast => h ?_⟩
  rw [← hlast]
  exact List.getLast_mem hne

theorem not_endsApart_slot (as : List Char) : ¬EndsApart (as ++ slot.toList) := by
  rintro ⟨c, hc, hne⟩
  rw [List.getLast?_append] at hc
  exact hne (Option.some.inj hc).symm

theorem EndsApart.of_append_slot {front last : List Char}
    (h : EndsApart (front ++ slot.toList ++ last)) : EndsApart last := by
  cases last with
  | nil =>
    rw [List.append_nil] at h
    exact absurd h (not_endsApart_slot front)
  | cons c cs =>
    obtain ⟨d, hd, hne⟩ := h
    refine ⟨d, ?_, hne⟩
    rw [List.getLast?_append, List.getLast?_cons] at hd
    rwa [List.getLast?_cons]

theorem EndsApart.fill {cs : List Char} (h : EndsApart cs) (hs : ¬SlotFree cs) (e : List Char) :
    EndsApart (Json.fill e (cutFrom slot.toList 0 cs)) := by
  obtain ⟨last, ⟨front, hcs⟩, hfill⟩ := exists_behind_last_slot hs
  obtain ⟨front', hfront'⟩ := hfill e
  rw [hcs] at h
  rw [hfront']
  exact h.of_append_slot.append_left _

theorem fill_ne_of_endsApart {cs e : List Char} (hs : ¬SlotFree cs) (he : EndsApart e)
    (as bs : List Char) : as ++ fill e (cutFrom slot.toList 0 cs) ≠ bs ++ cs := by
  obtain ⟨last, ⟨front, hcs⟩, hfill⟩ := exists_behind_last_slot hs
  obtain ⟨front', hfront'⟩ := hfill e
  intro h
  rw [hfront', hcs] at h
  have hends : (as ++ front' ++ e) ++ last = (bs ++ front ++ slot.toList) ++ last := by
    simpa only [List.append_assoc] using h
  exact not_endsApart_slot _ (List.append_cancel_right hends ▸ he.append_left _)

variable {f : Family} {t : Storage} {op : Operation} {fr : Frame}

theorem endsApart_literals {ss : List String} (h : ss ≠ []) : EndsApart (literals ss).toList := by
  have hquote (s : String) : EndsApart (stringLiteral s).toList := by
    rw [toList_stringLiteral, ← List.cons_append]
    exact EndsApart.append_left ⟨'\'', rfl, by decide⟩ _
  induction ss with
  | nil => exact absurd rfl h
  | cons s ss ih =>
    cases ss with
    | nil => simpa [literals] using hquote s
    | cons s' ss =>
      have hrest := ih (List.cons_ne_nil s' ss)
      rw [literals, List.map_cons, List.map_cons, String.intercalate_cons_cons, String.toList_append]
      exact hrest.append_left _

theorem after_endsApart (h : f.frame? t op = some fr) :
    fr.after.toList = [] ∨ EndsApart fr.after.toList := by
  obtain ⟨l, hl, rfl⟩ := layout_of_frame? h
  obtain ⟨-, hopening, hclosing⟩ := mark_not_mem_layout hl
  rw [Layout.frame, String.toList_append, String.toList_append]
  by_cases hc : l.closing.toList = []
  · rw [hc, List.append_nil]
    by_cases ht : f.literalTexts op = []
    · have hnone : (literals (f.literalTexts op)).toList = [] := by rw [ht]; rfl
      rw [hnone, List.append_nil]
      by_cases ho : l.opening.toList = []
      · exact .inl ho
      · exact .inr (endsApart_of_not_mem hopening ho)
    · exact .inr ((endsApart_literals ht).append_left _)
  · exact .inr ((endsApart_of_not_mem hclosing hc).append_left _)

variable {column e : String} {cs : List Change} {c : Change} {vs : List Value}
  {written : List Char}

theorem not_displaced_nil : ¬Displaced column [] := by
  rintro ⟨before, c, after, h, -⟩
  simp at h

theorem displaced_concat (c : Change) :
    Displaced column (cs ++ [c]) ↔
      (¬c.SlotFree ∧ ¬(cs = [] ∧ column = slot)) ∨ (Displaced column cs ∧ c.replaces = false) :=
  exists_split_concat cs c

theorem Change.slotFree_iff (h : c.action = .ok (.wrap op vs)) :
    c.SlotFree ↔ ∀ k ∈ op.keys, Json.SlotFree k.toList := by
  constructor
  · exact fun hc => hc op vs h
  · intro hop op' vs' h'
    cases h.symm.trans h'
    exact hop

theorem Change.slotFree_set (v : Value) : (Change.set v).SlotFree := fun _ _ h => nomatch h

theorem Change.expression_set (f : Family) (t : Storage) (v : Value) (e : String) :
    (Change.set v).expression f t e = .ok (f.documentCast t) := rfl

theorem Change.expression_of_frame (ha : c.action = .ok (.wrap op vs)) (hop : op.isWritable)
    (hfr : f.frame? t op = some fr) (e : String) : c.expression f t e = .ok (fr.around e) := by
  rw [expression, ha]
  exact Family.jsonExpression_eq_ok.2 ⟨hop, fr, hfr, rfl⟩

/-- What the revision has written and the expression of direct application, as far as they stay
together. -/
structure Follows (column : String) (cs : List Change) (written : List Char) (e : String) : Prop where
  eq_iff : written = e.toList ↔ ¬Displaced column cs
  slot_iff : e = slot ↔ cs = [] ∧ column = slot
  endsApart : Displaced column cs → EndsApart written

theorem follows_start (column : String) : Follows column [] column.toList column where
  eq_iff := iff_of_true rfl not_displaced_nil
  slot_iff := by simp
  endsApart h := absurd h not_displaced_nil

theorem follows_set (f : Family) (t : Storage) (column : String) (cs : List Change) (v : Value) :
    Follows column (cs ++ [.set v]) (f.documentCast t).toList (f.documentCast t) := by
  have hsame : ¬Displaced column (cs ++ [.set v]) := by
    rw [displaced_concat]
    rintro (⟨hslot, -⟩ | ⟨-, hset⟩)
    · exact hslot (Change.slotFree_set v)
    · exact absurd hset Bool.noConfusion
  refine ⟨iff_of_true rfl hsame, iff_of_false ?_ (by simp), fun h => absurd h hsame⟩
  cases f <;> cases t <;> decide

theorem around_ne_slot (h : f.frame? t op = some fr) (e : String) : fr.around e ≠ slot := by
  intro hslot
  obtain ⟨c, hc, hmem⟩ := exists_not_mem_slot h
  rw [← hslot, Frame.around, String.toList_append, String.toList_append] at hmem
  rcases List.mem_append.1 hc with hc | hc
  · exact hmem (List.mem_append_left _ (List.mem_append_left _ hc))
  · exact hmem (List.mem_append_right _ hc)

theorem Follows.wrap_slotFree (h : Follows column cs written e) (ha : c.action = .ok (.wrap op vs))
    (hfr : f.frame? t op = some fr) (hc : c.SlotFree) :
    Follows column (cs ++ [c])
      (fr.before.toList ++ written ++ fill written (cutFrom slot.toList 0 fr.after.toList))
      (fr.around e) := by
  have hafter := (slotFree_after_iff hfr).2 ((Change.slotFree_iff ha).1 hc)
  have hdisplaced : Displaced column (cs ++ [c]) ↔ Displaced column cs := by
    rw [displaced_concat]
    simp [hc, Change.replaces_of_action ha]
  rw [cutFrom_of_slotFree hafter, fill]
  refine ⟨?_, iff_of_false (around_ne_slot hfr e) (by simp), ?_⟩
  · rw [hdisplaced, ← h.eq_iff, Frame.around, String.toList_append, String.toList_append,
      List.append_left_inj, List.append_right_inj]
  · intro hd
    rcases after_endsApart hfr with hnil | hends
    · rw [hnil, List.append_nil]
      exact (h.endsApart (hdisplaced.1 hd)).append_left _
    · exact hends.append_left _

theorem Follows.wrap_slot (h : Follows column cs written e) (ha : c.action = .ok (.wrap op vs))
    (hfr : f.frame? t op = some fr) (hc : ¬c.SlotFree) :
    Follows column (cs ++ [c])
      (fr.before.toList ++ written ++ fill written (cutFrom slot.toList 0 fr.after.toList))
      (fr.around e) := by
  have hafter : ¬SlotFree fr.after.toList :=
    fun hs => hc ((Change.slotFree_iff ha).2 ((slotFree_after_iff hfr).1 hs))
  have hends : EndsApart fr.after.toList := by
    rcases after_endsApart hfr with hnil | hends
    · rw [hnil] at hafter
      exact absurd (by decide) hafter
    · exact hends
  have hreplaces := Change.replaces_of_action ha
  have hdisplaced : Displaced column (cs ++ [c]) ↔ e ≠ slot ∨ Displaced column cs := by
    rw [displaced_concat, Ne, h.slot_iff]
    simp [hc, hreplaces]
  have haround : (fr.around e).toList = fr.before.toList ++ e.toList ++ fr.after.toList := by
    rw [Frame.around, String.toList_append, String.toList_append]
  refine ⟨?_, iff_of_false (around_ne_slot hfr e) (by simp), fun _ => ?_⟩
  · rw [hdisplaced, haround]
    by_cases hd : Displaced column cs
    · -- The two expressions differ already, and what was written cannot pass for a slot.
      refine iff_of_false ?_ (fun hn => hn (.inr hd))
      exact fill_ne_of_endsApart hafter (h.endsApart hd) _ _
    · have hsame : written = e.toList := h.eq_iff.2 hd
      have hslot : fill slot.toList (cutFrom slot.toList 0 fr.after.toList) = fr.after.toList := by
        rw [slot_toList]
        exact fill_cutFrom 0 _
      rw [hsame, List.append_right_inj]
      constructor
      · intro hfill
        have he := fill_inj (two_le_length_cutFrom hafter) (hfill.trans hslot.symm)
        exact fun hn => hn.elim (fun hne => hne (String.toList_inj.1 he)) hd
      · intro hn
        have he : e = slot := Decidable.not_not.1 fun hne => hn (.inl hne)
        rw [he, hslot]
  · exact (hends.fill hafter written).append_left _

namespace Revision

variable {r r' : Revision}

theorem follows_apply (h : Follows column cs r.nested.1 e) (hr : r.apply c = .ok r') :
    ∃ e', c.expression r.family r.storage e = .ok e' ∧ Follows column (cs ++ [c]) r'.nested.1 e' := by
  obtain ⟨tm, htm, hnested⟩ := nested_of_apply hr
  rw [hnested]
  rcases template_eq_ok htm with ⟨v, ha, rfl⟩ | ⟨op, vs, fr, ha, hop, hfr, rfl⟩
  · obtain rfl := Change.eq_set_of_action ha
    rw [nest_document]
    exact ⟨_, Change.expression_set _ _ v e, follows_set _ _ column cs v⟩
  · rw [nest_frame _ (mark_not_mem_before hfr)]
    refine ⟨_, Change.expression_of_frame ha hop hfr e, ?_⟩
    by_cases hc : c.SlotFree
    · exact h.wrap_slotFree ha hfr hc
    · exact h.wrap_slot ha hfr hc

/-- On the last change: the ones before it have made the same expression in both ways or not. -/
theorem follows_applyAll (h : (start f t column).applyAll cs = .ok r) :
    ∃ e, directExpression f t column cs = .ok e ∧ Follows column cs r.nested.1 e := by
  induction cs using List.reverseRecOn generalizing r with
  | nil =>
    cases h
    exact ⟨column, rfl, follows_start column⟩
  | append_singleton cs c ih =>
    obtain ⟨r₁, h₁, h⟩ := applyAll_concat.1 h
    obtain ⟨e, he, hfollows⟩ := ih h₁
    obtain ⟨e', he', hfollows'⟩ := follows_apply hfollows h
    obtain ⟨hfamily, hstorage⟩ := applyAll_family h₁
    rw [hfamily, hstorage] at he'
    refine ⟨e', ?_, hfollows'⟩
    rw [directExpression, List.foldlM_append]
    exact bind_eq_ok.2 ⟨e, he, bind_eq_ok.2 ⟨e', he', rfl⟩⟩

/-- For all changes that are accepted: filling in the slots gives the expression of direct application
exactly if no name holds a slot where the expression so far is another text, or the document is replaced
after that. -/
theorem render_eq_direct_iff (h : (start f t column).applyAll cs = .ok r) :
    ∃ e, directExpression f t column cs = .ok e ∧ (r.render.1 = e ↔ ¬Displaced column cs) := by
  obtain ⟨e, he, hfollows⟩ := follows_applyAll h
  refine ⟨e, he, ?_⟩
  rw [← hfollows.eq_iff, render_eq_nested, ← String.toList_inj, String.toList_ofList]

theorem slot_in_key_replaced :
    let cs := [Change.removeKey (.text slot), .set (.int 1), .removeKey (.text "a")]
    ∃ r, (start .postgresql .jsonb "c").applyAll cs = .ok r ∧ r.render.1 = "?::jsonb - 'a'" ∧
      directExpression .postgresql .jsonb "c" cs = .ok r.render.1 := by
  intro cs
  have h : (start .postgresql .jsonb "c").applyAll cs = .ok _ := rfl
  obtain ⟨e, he, hrender⟩ := render_eq_direct_iff h
  have haction : (Change.removeKey (.text "a")).action = .ok (.wrap (.removeKey (.text "a")) []) := rfl
  have hkey : (Change.removeKey (.text "a")).SlotFree := (Change.slotFree_iff haction).2 (by decide)
  have hset : ¬Displaced "c" ([Change.removeKey (.text slot)] ++ [.set (.int 1)]) := by
    rw [displaced_concat]
    simp [Change.slotFree_set, Change.replaces]
  have hsame : ¬Displaced "c" cs := by
    have hsplit : cs = ([Change.removeKey (.text slot)] ++ [.set (.int 1)])
        ++ [.removeKey (.text "a")] := rfl
    rw [hsplit, displaced_concat]
    simp only [hkey, hset, not_true_eq_false, false_and, or_self, not_false_eq_true]
  exact ⟨_, h, by rfl, he.trans (congrArg Except.ok (hrender.2 hsame).symm)⟩

/-- A key that is a slot becomes the column that it is removed from. -/
theorem slot_in_key_filled :
    let cs := [Change.removeKey (.text slot)]
    ∃ r, (start .postgresql .jsonb "c").applyAll cs = .ok r ∧ r.render.1 = "c - 'c'" ∧
      directExpression .postgresql .jsonb "c" cs = .ok "c - '\x00current\x00'" ∧
      "c - 'c'" ≠ "c - '\x00current\x00'" := by
  intro cs
  exact ⟨_, rfl, by rfl, by rfl, by decide⟩

end Revision
end SqlComposer.Json
