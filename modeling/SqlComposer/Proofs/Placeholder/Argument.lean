import SqlComposer.Proofs.Ensures
import SqlComposer.Proofs.Placeholder.Part

/-! Arguments without placeholders. A required text is looked at only if it can be written, and one
that may be left out only if it holds. -/

namespace SqlComposer

def Value.Unmarked (v : Value) : Prop := ∀ p, v.phrase? = some p → marks p.alone = 0

theorem Value.unmarked_text {s : String} (h : marks s = 0) : (text s).Unmarked := by
  rintro _ ⟨⟩
  exact h

def Value.Marked (v : Value) (n : Nat) : Prop := ∀ p, v.phrase? = some p → marks p.alone = n

def Value.optionalMarks (v : Value) : Nat := if v.isTrue then marks v.plain else 0

theorem requireText_eq_ok {argument : String} {v : Value} {p : Phrase}
    (h : requireText argument v = .ok p) : v.phrase? = some p := by
  unfold requireText at h
  split at h
  · next q hq =>
    split_ifs at h
    cases h
    exact hq
  · cases h

theorem Value.plain_of_phrase? {v : Value} {p : Phrase} (h : v.phrase? = some p) :
    v.plain = p.within := by
  cases v <;> cases h <;> rfl

theorem Value.Marked.ensures {v : Value} {n : Nat} (h : v.Marked n) (argument : String) :
    Ensures (requireText argument v) fun p => v.phrase? = some p ∧ marks p.alone = n :=
  fun p hp => ⟨requireText_eq_ok hp, h p (requireText_eq_ok hp)⟩

theorem Value.Unmarked.ensures {v : Value} (h : v.Unmarked) (argument : String) :
    Ensures (requireText argument v) fun p => marks p.alone = 0 :=
  fun p hp => h p (requireText_eq_ok hp)

theorem ensures_spell (v : Value) : Ensures (spell v) (· = v.plain) := by
  unfold spell
  split
  · exact ensures_error _
  · exact ensures_ok rfl

theorem ensures_optionalText (v : Value) :
    Ensures (optionalText v) fun t => (t.map marks).getD 0 = v.optionalMarks := by
  unfold optionalText
  split
  · next hv =>
    exact (ensures_spell v).map fun s hs => by simp [hs, Value.optionalMarks, hv]
  · next hv => exact ensures_ok (by simp [Value.optionalMarks, hv])

theorem leadingTexts_unmarked (argument : String) {vs : List Value} (h : ∀ v ∈ vs, v.Unmarked) :
    ∀ t ∈ (leadingTexts argument vs).state, marks t = 0 := by
  induction vs with
  | nil => exact fun t ht => absurd ht List.not_mem_nil
  | cons v vs ih =>
    obtain ⟨hv, hvs⟩ := List.forall_mem_cons.1 h
    rw [leadingTexts]
    split
    · next p hp =>
      rw [Step.map_state]
      exact List.forall_mem_cons.2 ⟨hv.ensures argument p hp, ih hvs⟩
    · exact fun t ht => absurd ht List.not_mem_nil

end SqlComposer
