import SqlComposer.Proofs.Ensures
import SqlComposer.Proofs.Json.Frame

/-! Paths that calls build. A path is built from parts, of which texts are split at their dots, or by
adding segments, which are not split. Either way each of its keys shows something, and every path whose
keys do can be built. -/

namespace SqlComposer.Json

def Segment.Visible : Segment → Prop
  | key k => Text.isBlank k = false
  | index _ => True

namespace Segment

theorem visible_of_ofValue {v : Value} {s : Segment} (h : ofValue v = .ok s) : s.Visible := by
  cases v with
  | text t =>
    rw [ofValue] at h
    split at h
    · cases h
    · next hblank =>
      cases h
      exact Bool.eq_false_iff.2 hblank
  | operator op =>
    cases h
    cases op <;> (show Text.isBlank _ = false) <;> decide
  | int n =>
    cases n with
    | ofNat i =>
      cases h
      trivial
    | negSucc i => cases h
  | _ => cases h

theorem ofValue_ofSegment {s : Segment} (h : s.Visible) : ofValue (Value.ofSegment s) = .ok s := by
  cases s with
  | key k =>
    have hblank : ¬ Text.isBlank k = true := Bool.eq_false_iff.1 h
    exact if_neg hblank
  | index i => rfl

end Segment

namespace Path

inductive Built : Path → Prop
  | ofParts {vs : List Value} {p : Path} (h : ofParts vs = .ok p) : Built p
  | extend {p q : Path} {v : Value} (hp : Built p) (h : p.extend v = .ok q) : Built q

theorem visible_of_mapM {vs : List Value} {segments : List Segment}
    (h : vs.mapM Segment.ofValue = .ok segments) : ∀ s ∈ segments, s.Visible := by
  intro s hs
  obtain ⟨v, -, hv⟩ := (mem_of_mapM_eq_ok h).2 s hs
  exact Segment.visible_of_ofValue hv

theorem mapM_ofSegment {segments : List Segment} (h : ∀ s ∈ segments, s.Visible) :
    (segments.map Value.ofSegment).mapM Segment.ofValue = .ok segments := by
  induction segments with
  | nil => rfl
  | cons s segments ih =>
    obtain ⟨hs, hsegments⟩ := List.forall_mem_cons.1 h
    rw [List.map_cons, List.mapM_cons, Segment.ofValue_ofSegment hs, ih hsegments]
    rfl

theorem visible_of_ofValues {vs : List Value} {p : Path} (h : ofValues vs = .ok p) :
    ∀ s ∈ p.segments, s.Visible := by
  unfold ofValues at h
  split at h
  · next hsegments =>
    cases h
    exact visible_of_mapM hsegments
  · cases h

theorem extend_ofSegment {segments : List Segment} {s : Segment}
    (h : ∀ x ∈ segments ++ [s], x.Visible) :
    extend ⟨segments⟩ (Value.ofSegment s) = .ok ⟨segments ++ [s]⟩ := by
  have hvalues : (⟨segments⟩ : Path).values ++ [Value.ofSegment s] =
      (segments ++ [s]).map Value.ofSegment := by
    rw [values, List.map_append, List.map_singleton]
  rw [extend, hvalues, ofValues, mapM_ofSegment h]

theorem built_iff {p : Path} : p.Built ↔ ∀ s ∈ p.segments, s.Visible := by
  constructor
  · rintro (h | ⟨-, h⟩)
    · exact visible_of_ofValues h
    · exact visible_of_ofValues h
  · obtain ⟨segments⟩ := p
    intro h
    -- The segments are added one by one, the last one last.
    induction segments using List.reverseRecOn with
    | nil =>
      have hempty : Path.ofParts [] = .ok ⟨[]⟩ := rfl
      exact .ofParts hempty
    | append_singleton segments s ih =>
      exact (ih fun x hx => h x (List.mem_append_left _ hx)).extend (extend_ofSegment h)

end Path
end SqlComposer.Json
