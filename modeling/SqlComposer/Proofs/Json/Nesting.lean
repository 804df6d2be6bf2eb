import SqlComposer.Proofs.Json.Layout

/-! Nesting: the expression of a revision and its values. Every change puts its frame around the
expression so far and its own values around the values so far, split where the slot is, so each value
stays with the placeholder of the change that binds it. -/

namespace SqlComposer.Json
variable {f : Family} {t : Storage}

def Change.Plain (c : Change) : Prop := ∀ op vs, c.action = .ok (.wrap op vs) → op.Plain

def Change.replaces : Change → Bool
  | set _ => true
  | _ => false

def Change.value? : Change → Option Value
  | set v | merge v | setPath _ v _ | appendArray v | prependArray v | setElement _ v => some v
  | removeKey _ | removeKeys _ | removePath _ | removeElement _ | stripNulls => none

def Change.prepends : Change → Bool
  | prependArray _ => true
  | _ => false

def Change.write? (shown : Value → String) (f : Family) (t : Storage) (inner : List Char)
    (c : Change) : Option (List Char) :=
  match c.action with
  | .ok (.replace v) => some (substitute shown (f.documentCast t).toList [v])
  | .ok (.wrap op vs) => (f.frame? t op).map fun fr =>
      substitute shown fr.before.toList (vs.take (marks fr.before)) ++ inner
        ++ substitute shown fr.after.toList (vs.drop (marks fr.before))
  | .error _ => none

theorem Change.of_action_wrap {c : Change} {op : Operation} {vs : List Value}
    (h : c.action = .ok (.wrap op vs)) :
    c.replaces = false ∧ vs = c.value?.toList ∧ vs.length = op.valueCount ∧
      (c.prepends = true ↔ op = .arrayPrepend) := by
  cases c with
  | set v => cases h
  | removeKeys keys =>
    cases keys with
    | nil => cases h
    | cons k ks =>
      obtain ⟨ps, -, hp⟩ := bind_eq_ok.1 h
      cases hp
      exact ⟨rfl, rfl, rfl, iff_of_false nofun nofun⟩
  | setPath | removeKey | removePath | setElement | removeElement =>
    obtain ⟨p, -, hp⟩ := bind_eq_ok.1 h
    cases hp
    exact ⟨rfl, rfl, rfl, iff_of_false nofun nofun⟩
  | merge | appendArray | stripNulls =>
    cases h
    exact ⟨rfl, rfl, rfl, iff_of_false nofun nofun⟩
  | prependArray v =>
    cases h
    exact ⟨rfl, rfl, rfl, iff_of_true rfl rfl⟩

theorem Change.action_valueCount {c : Change} {op : Operation} {vs : List Value}
    (h : c.action = .ok (.wrap op vs)) : vs.length = op.valueCount := (of_action_wrap h).2.2.1

theorem Change.replaces_of_action {c : Change} {op : Operation} {vs : List Value}
    (h : c.action = .ok (.wrap op vs)) : c.replaces = false := (of_action_wrap h).1

theorem Change.eq_set_of_action {c : Change} {v : Value} (h : c.action = .ok (.replace v)) :
    c = .set v := by
  cases c with
  | set w =>
    cases h
    rfl
  | removeKeys keys =>
    cases keys with
    | nil => cases h
    | cons k ks =>
      obtain ⟨ps, -, hp⟩ := bind_eq_ok.1 h
      cases hp
  | setPath | removeKey | removePath | setElement | removeElement =>
    obtain ⟨p, -, hp⟩ := bind_eq_ok.1 h
    cases hp
  | merge | appendArray | prependArray | stripNulls => cases h

theorem marks_documentCast (f : Family) (t : Storage) : marks (f.documentCast t) = 1 := by
  cases f <;> cases t <;> decide

theorem slotFree_documentCast (f : Family) (t : Storage) : SlotFree (f.documentCast t).toList := by
  cases f <;> cases t <;> decide

namespace Revision

def nested (r : Revision) : List Char × List Value :=
  r.templates.foldl nest (r.column.toList, [])

theorem render_eq_nested (r : Revision) : r.render = (String.ofList r.nested.1, r.nested.2) := rfl

/-- A change puts its frame around the expression so far, which takes the place of every slot behind it
too, and its values around those so far. -/
theorem nest_frame (inner : List Char × List Value) {fr : Frame} (hb : '\x00' ∉ fr.before.toList)
    (vs : List Value) :
    nest inner ⟨fr.around slot, vs⟩ =
      (fr.before.toList ++ inner.1 ++ fill inner.1 (cutFrom slot.toList 0 fr.after.toList),
        vs.take (marks fr.before) ++ inner.2 ++ vs.drop (marks fr.before)) := by
  obtain ⟨piece, pieces, hrest⟩ := List.exists_cons_of_ne_nil (cutFrom_ne_nil slot.toList
    fr.after.toList 0)
  have hslot := cutFrom_slot fr.after.toList
  rw [hrest] at hslot
  have hcut : cut (fr.around slot) = fr.before.toList :: piece :: pieces := by
    rw [cut, Frame.around, String.toList_append, String.toList_append, List.append_assoc,
      cutFrom_append hb hslot, List.append_nil]
  rw [nest, hcut, hrest]
  rfl

theorem nest_around (inner : List Char × List Value) {fr : Frame} (hb : '\x00' ∉ fr.before.toList)
    (ha : SlotFree fr.after.toList) (vs : List Value) :
    nest inner ⟨fr.around slot, vs⟩ =
      (fr.before.toList ++ inner.1 ++ fr.after.toList,
        vs.take (marks fr.before) ++ inner.2 ++ vs.drop (marks fr.before)) := by
  rw [nest_frame inner hb, cutFrom_of_slotFree ha, fill]

theorem nest_document (inner : List Char × List Value) (f : Family) (t : Storage) (vs : List Value) :
    nest inner ⟨f.documentCast t, vs⟩ = ((f.documentCast t).toList, vs) := by
  rw [nest, cut_of_slotFree (slotFree_documentCast f t)]

theorem template_eq_ok {r : Revision} {c : Change} {tm : Template} (h : r.template c = .ok tm) :
    (∃ v, c.action = .ok (.replace v) ∧ tm = ⟨r.family.documentCast r.storage, [v]⟩) ∨
      ∃ op vs fr, c.action = .ok (.wrap op vs) ∧ op.isWritable ∧
        r.family.frame? r.storage op = some fr ∧ tm = ⟨fr.around slot, vs⟩ := by
  obtain ⟨a, ha, h⟩ := bind_eq_ok.1 h
  obtain ⟨text, htext, h⟩ := bind_eq_ok.1 h
  cases h
  cases a with
  | replace v =>
    cases htext
    exact .inl ⟨v, ha, rfl⟩
  | wrap op vs =>
    obtain ⟨hop, fr, hfr, rfl⟩ := Family.jsonExpression_eq_ok.1 htext
    exact .inr ⟨op, vs, fr, ha, hop, hfr, rfl⟩

theorem nested_of_apply {r r' : Revision} {c : Change} (h : r.apply c = .ok r') :
    ∃ tm, r.template c = .ok tm ∧ r'.nested = nest r.nested tm := by
  obtain ⟨tm, htm, h⟩ := bind_eq_ok.1 h
  cases h
  exact ⟨tm, htm, List.foldl_append⟩

/-- The expression binds its values, and is `written` once they stand in it. -/
def Writes (shown : Value → String) (r : Revision) (written : List Char) : Prop :=
  r.nested.1.count '?' = r.nested.2.length ∧ substitute shown r.nested.1 r.nested.2 = written

variable {shown : Value → String} {r r' : Revision} {written : List Char}

theorem writes_start {column : String} (h : marks column = 0) :
    (start f t column).Writes shown column.toList :=
  ⟨h, substitute_of_count_eq_zero shown h []⟩

theorem Writes.apply (hw : r.Writes shown written) {c : Change} (hc : c.Plain)
    (h : r.apply c = .ok r') :
    ∃ next, c.write? shown r.family r.storage written = some next ∧ r'.Writes shown next := by
  obtain ⟨tm, htm, hnested⟩ := nested_of_apply h
  unfold Writes
  rw [hnested]
  rcases template_eq_ok htm with ⟨v, ha, rfl⟩ | ⟨op, vs, fr, ha, -, hfr, rfl⟩
  · rw [nest_document]
    exact ⟨_, by rw [Change.write?, ha], marks_documentCast r.family r.storage, rfl⟩
  · have hsound : fr.Sound vs.length := by
      rw [Change.action_valueCount ha]
      exact sound_of_frame? hfr (hc op vs ha)
    have hmarks := hsound.marks_eq
    have hfront : fr.before.toList.count '?' = (vs.take (marks fr.before)).length := by
      rw [List.length_take, ← hmarks]
      exact (Nat.min_eq_left (Nat.le_add_right _ _)).symm
    have hback : fr.after.toList.count '?' = (vs.drop (marks fr.before)).length := by
      rw [List.length_drop, ← hmarks, Nat.add_sub_cancel_left]
      rfl
    have hinner : (fr.before.toList ++ r.nested.1).count '?' =
        (vs.take (marks fr.before) ++ r.nested.2).length := by
      rw [List.count_append, List.length_append, hfront, hw.1]
    have hwrite : c.write? shown r.family r.storage written =
        some (substitute shown fr.before.toList (vs.take (marks fr.before)) ++ written
          ++ substitute shown fr.after.toList (vs.drop (marks fr.before))) := by
      simp only [Change.write?, ha, hfr, Option.map_some]
    rw [nest_around _ hsound.before hsound.after]
    refine ⟨_, hwrite, ?_, ?_⟩
    · rw [List.count_append, List.length_append, hinner, hback]
    · rw [substitute_append shown hinner, substitute_append shown hfront, hw.2]

theorem apply_family (h : r.apply c = .ok r') : r'.family = r.family ∧ r'.storage = r.storage := by
  obtain ⟨tm, -, h⟩ := bind_eq_ok.1 h
  cases h
  exact ⟨rfl, rfl⟩

theorem applyAll_family {cs : List Change} (h : r.applyAll cs = .ok r') :
    r'.family = r.family ∧ r'.storage = r.storage := by
  induction cs generalizing r with
  | nil =>
    cases h
    exact ⟨rfl, rfl⟩
  | cons c cs ih =>
    obtain ⟨r₁, h₁, h⟩ := bind_eq_ok.1 h
    obtain ⟨hfamily, hstorage⟩ := apply_family h₁
    exact ⟨(ih h).1.trans hfamily, (ih h).2.trans hstorage⟩

theorem applyAll_concat {cs : List Change} {c : Change} :
    r.applyAll (cs ++ [c]) = .ok r' ↔ ∃ r₁, r.applyAll cs = .ok r₁ ∧ r₁.apply c = .ok r' := by
  have hsplit : r.applyAll (cs ++ [c]) = r.applyAll cs >>= fun r₁ => r₁.applyAll [c] :=
    List.foldlM_append
  rw [hsplit, bind_eq_ok]
  refine exists_congr fun r₁ => and_congr_right fun _ => ?_
  simp [applyAll]

theorem Writes.applyAll (hw : r.Writes shown written) {cs : List Change} (hcs : ∀ c ∈ cs, c.Plain)
    (h : r.applyAll cs = .ok r') :
    ∃ last, cs.foldlM (Change.write? shown r.family r.storage) written = some last ∧
      r'.Writes shown last := by
  induction cs generalizing r written with
  | nil =>
    cases h
    exact ⟨written, rfl, hw⟩
  | cons c cs ih =>
    obtain ⟨r₁, h₁, h⟩ := bind_eq_ok.1 h
    obtain ⟨next, hnext, hw₁⟩ := hw.apply (hcs c List.mem_cons_self) h₁
    obtain ⟨hfamily, hstorage⟩ := apply_family h₁
    obtain ⟨last, hlast, hr'⟩ := ih hw₁ (fun c hc => hcs c (List.mem_cons_of_mem _ hc)) h
    rw [hfamily, hstorage] at hlast
    exact ⟨last, by rw [List.foldlM_cons, hnext]; exact hlast, hr'⟩

end Revision
end SqlComposer.Json
