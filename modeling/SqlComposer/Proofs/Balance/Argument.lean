import SqlComposer.Proofs.Balance.Text
import SqlComposer.Proofs.Placeholder.Argument

/-! Balanced arguments. Of a value that is written into a text, the text that it is written as counts;
a value that is only bound may hold any parentheses. -/

namespace SqlComposer

def Value.Balanced (v : Value) : Prop := shape v.plain = 1

instance (v : Value) : Decidable v.Balanced := inferInstanceAs (Decidable (_ = _))

namespace Value.Balanced
variable {v : Value}

theorem phrase (h : v.Balanced) {p : Phrase} (hp : v.phrase? = some p) : shape p.alone = 1 := by
  rw [← p.shape_within, ← plain_of_phrase? hp]
  exact h

theorem require (h : v.Balanced) (argument : String) :
    Ensures (requireText argument v) fun p => shape p.alone = 1 :=
  fun _ hp => h.phrase (requireText_eq_ok hp)

theorem spelled (h : v.Balanced) : Ensures (spell v) fun t => shape t = 1 := by
  unfold spell
  split
  · exact ensures_error _
  · exact ensures_ok h

theorem optional (h : v.Balanced) : Ensures (optionalText v) fun t => ∀ a ∈ t, shape a = 1 := by
  unfold optionalText
  split
  · refine h.spelled.map fun s hs a ha => ?_
    cases ha
    exact hs
  · exact ensures_ok fun a ha => nomatch ha

end Value.Balanced
end SqlComposer
