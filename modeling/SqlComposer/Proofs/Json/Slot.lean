import Mathlib.Data.List.Infix
import SqlComposer.Dialect.Json
import SqlComposer.Json.Slot
import SqlComposer.Proofs.Placeholder.Text

/-! Texts without a slot. A text around which a slot is free is cut exactly at that slot; the quotes,
commas, dots and brackets that templates put around the texts of a caller cannot be part of a slot,
so a template holds the slot of another text only if one of those texts does. -/

namespace SqlComposer.Json

theorem slot_toList : slot.toList = '\x00' :: "current\x00".toList := by decide

def SlotFree (cs : List Char) : Prop := ¬slot.toList <:+: cs

instance (cs : List Char) : Decidable (SlotFree cs) := inferInstanceAs (Decidable (¬_))

theorem slotFree_of_not_mem {cs : List Char} (h : '\x00' ∉ cs) : SlotFree cs :=
  fun hs => h (hs.mem (by decide))

theorem SlotFree.tail {c : Char} {cs : List Char} (h : SlotFree (c :: cs)) : SlotFree cs :=
  fun hs => h (List.infix_cons_iff.2 (.inr hs))

theorem SlotFree.join {a b : List Char} {c : Char} (ha : SlotFree a) (hb : SlotFree b)
    (hc : c ∉ slot.toList) : SlotFree (a ++ c :: b) := by
  intro hs
  rcases List.infix_append_iff.1 hs with h | h | ⟨l, r, hlr, hl, hr⟩
  · exact ha h
  · rcases List.infix_cons_iff.1 h with h | h
    · obtain h | ⟨t, ht, -⟩ := List.prefix_cons_iff.1 h
      · exact absurd h (by decide)
      · exact hc (by rw [ht]; exact List.mem_cons_self)
    · exact hb h
  · obtain rfl | ⟨t, rfl, -⟩ := List.prefix_cons_iff.1 hr
    · rw [List.append_nil] at hlr
      exact ha (hlr ▸ hl.isInfix)
    · exact hc (by rw [hlr]; simp)

theorem SlotFree.cons {b : List Char} {c : Char} (hb : SlotFree b) (hc : c ∉ slot.toList) :
    SlotFree (c :: b) := SlotFree.join (a := []) (by decide) hb hc

theorem SlotFree.between {a b cs : List Char} (h : SlotFree cs) (ha : '\x00' ∉ a)
    (hb : '\x00' ∉ b) : SlotFree (a ++ cs ++ b) := by
  -- A slot that reaches beyond the text leaves its first or its last character outside.
  have hends {l r : List Char} (hlr : slot.toList = l ++ r) :
      (l = [] ∨ '\x00' ∈ l) ∧ (r = [] ∨ '\x00' ∈ r) := by
    constructor
    · rcases l with _ | ⟨x, l⟩
      · exact .inl rfl
      · rw [slot_toList, List.cons_append] at hlr
        exact .inr (by rw [(List.cons.inj hlr).1]; exact List.mem_cons_self)
    · rcases r.eq_nil_or_concat' with hr | ⟨r, x, rfl⟩
      · exact .inl hr
      · have hlast := congrArg List.getLast? hlr
        rw [← List.append_assoc, List.getLast?_concat] at hlast
        obtain rfl : '\x00' = x := Option.some.inj hlast
        exact .inr (by simp)
  have hfront : SlotFree (a ++ cs) := by
    intro hs
    rcases List.infix_append_iff.1 hs with hs | hs | ⟨l, r, hlr, hl, hr⟩
    · exact slotFree_of_not_mem ha hs
    · exact h hs
    · rcases (hends hlr).1 with rfl | hmem
      · exact h (hlr ▸ hr.isInfix)
      · exact ha (hl.mem hmem)
  intro hs
  rcases List.infix_append_iff.1 hs with hs | hs | ⟨l, r, hlr, hl, hr⟩
  · exact hfront hs
  · exact slotFree_of_not_mem hb hs
  · rcases (hends hlr).2 with rfl | hmem
    · rw [List.append_nil] at hlr
      exact hfront (hlr ▸ hl.isInfix)
    · exact hb (hr.mem hmem)

theorem cutFrom_ne_nil (mark cs : List Char) (skip : Nat) : cutFrom mark skip cs ≠ [] := by
  induction cs generalizing skip with
  | nil => exact List.cons_ne_nil _ _
  | cons c cs ih =>
    cases skip with
    | succ k => exact ih k
    | zero =>
      rw [cutFrom]
      split
      · exact List.cons_ne_nil _ _
      · split <;> exact List.cons_ne_nil _ _

theorem cutFrom_of_slotFree {cs : List Char} (h : SlotFree cs) : cutFrom slot.toList 0 cs = [cs] := by
  induction cs with
  | nil => rfl
  | cons c cs ih =>
    have hp : slot.toList.isPrefixOf (c :: cs) = false := by
      rw [Bool.eq_false_iff, Ne, List.isPrefixOf_iff_prefix]
      exact fun hp => h hp.isInfix
    rw [cutFrom, hp, ih h.tail]
    rfl

theorem cutFrom_append {before : List Char} (h : '\x00' ∉ before) {rest piece : List Char}
    {pieces : List (List Char)} (hr : cutFrom slot.toList 0 rest = piece :: pieces) :
    cutFrom slot.toList 0 (before ++ rest) = (before ++ piece) :: pieces := by
  induction before with
  | nil => exact hr
  | cons c before ih =>
    rw [List.mem_cons, not_or] at h
    have hp : slot.toList.isPrefixOf (c :: (before ++ rest)) = false := by
      rw [Bool.eq_false_iff, Ne, List.isPrefixOf_iff_prefix]
      intro hp
      obtain hp | ⟨t, ht, -⟩ := List.prefix_cons_iff.1 hp
      · exact absurd hp (by decide)
      · exact h.1 (List.cons.inj (slot_toList.symm.trans ht)).1
    rw [List.cons_append, cutFrom, hp, ih h.2]
    rfl

theorem cutFrom_skip (mark xs rest : List Char) :
    cutFrom mark xs.length (xs ++ rest) = cutFrom mark 0 rest := by
  induction xs with
  | nil => rfl
  | cons x xs ih => exact ih

theorem cutFrom_slot (rest : List Char) :
    cutFrom slot.toList 0 (slot.toList ++ rest) = [] :: cutFrom slot.toList 0 rest := by
  have hp : slot.toList.isPrefixOf (slot.toList ++ rest) = true :=
    List.isPrefixOf_iff_prefix.2 (List.prefix_append _ _)
  have hskip := cutFrom_skip slot.toList "current\x00".toList rest
  rw [slot_toList] at hp hskip ⊢
  rw [List.cons_append, cutFrom, ← List.cons_append, hp, if_pos rfl]
  exact congrArg _ hskip

theorem cut_of_slotFree {text : String} (h : SlotFree text.toList) : cut text = [text.toList] :=
  cutFrom_of_slotFree h

theorem SlotFree.quoted {cs : List Char} (h : SlotFree cs) :
    SlotFree (cs.flatMap fun c => if c = '\'' then ['\'', '\''] else [c]) := by
  have hstart (p cs : List Char) (hp : '\'' ∉ p)
      (h : p <+: cs.flatMap fun c => if c = '\'' then ['\'', '\''] else [c]) : p <+: cs := by
    induction p generalizing cs with
    | nil => exact List.nil_prefix
    | cons x p ih =>
      rw [List.mem_cons, not_or] at hp
      cases cs with
      | nil => simp at h
      | cons c cs =>
        rw [List.flatMap_cons] at h
        split_ifs at h with hc
        · exact absurd (List.cons_prefix_cons.1 h).1.symm hp.1
        · rw [List.singleton_append] at h
          obtain ⟨hx, hrest⟩ := List.cons_prefix_cons.1 h
          exact List.cons_prefix_cons.2 ⟨hx, ih cs hp.2 hrest⟩
  induction cs with
  | nil => exact h
  | cons c cs ih =>
    rw [List.flatMap_cons]
    split_ifs with hc
    · exact ((ih h.tail).cons (by decide)).cons (by decide)
    · intro hs
      rcases List.infix_cons_iff.1 hs with hs | hs
      · refine h (hstart slot.toList (c :: cs) (by decide) ?_).isInfix
        rwa [List.flatMap_cons, if_neg hc]
      · exact ih h.tail hs

theorem SlotFree.around {opening text closing : String} (h : SlotFree text.toList)
    (ho : '\x00' ∉ opening.toList) (hc : '\x00' ∉ closing.toList) :
    SlotFree (opening ++ text ++ closing).toList := by
  rw [String.toList_append, String.toList_append]
  exact h.between ho hc

theorem slotFree_stringLiteral {s : String} (h : SlotFree s.toList) :
    SlotFree (stringLiteral s).toList := by
  have hquoted := h.quoted.between (a := "'".toList) (b := "'".toList) (by decide) (by decide)
  simpa [stringLiteral] using hquoted

theorem SlotFree.intercalate {ss : List String} (h : ∀ s ∈ ss, SlotFree s.toList) :
    SlotFree (", ".intercalate ss).toList ∧ SlotFree (",".intercalate ss).toList := by
  induction ss with
  | nil => exact ⟨by decide, by decide⟩
  | cons s ss ih =>
    cases ss with
    | nil => simpa using h
    | cons t ts =>
      obtain ⟨hblank, hbare⟩ := ih fun x hx => h x (List.mem_cons_of_mem _ hx)
      have hs := h s (by simp)
      rw [String.intercalate_cons_cons, String.intercalate_cons_cons]
      constructor
      · simpa using hs.join (hblank.cons (c := ' ') (by decide)) (c := ',') (by decide)
      · simpa using hs.join hbare (c := ',') (by decide)

theorem slotFree_nat (n : Nat) : SlotFree (toString n).toList :=
  slotFree_of_not_mem (not_mem_toString_nat (by decide) n)

end SqlComposer.Json
