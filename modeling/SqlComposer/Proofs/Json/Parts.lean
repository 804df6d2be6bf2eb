import SqlComposer.Proofs.Checked
import SqlComposer.Proofs.Json.Legs
import SqlComposer.Proofs.Numeral

/-! Paths and their parts. Each call that builds a path asks for certain segments, and is refused exactly
if one of these is neither a key that shows something nor an index. The refusal shows all of them; where
one cannot be shown, the reason for that is reported in its place. Parts may be given together or apart, and
those without a dot may also be added one by one. A path comes back from its segments if no key has a dot,
and from its text if it consists of such keys and of nothing else. -/

namespace SqlComposer

theorem not_mem_of_mem_splitOn {c : Char} {cs piece : List Char} (h : piece ∈ cs.splitOn c) :
    c ∉ piece := by
  induction cs generalizing piece with
  | nil =>
    rw [List.splitOn_nil, List.mem_singleton] at h
    exact h ▸ List.not_mem_nil
  | cons x xs ih =>
    obtain ⟨front, pieces, hxs⟩ := List.exists_cons_of_ne_nil (List.splitOn_ne_nil c xs)
    rw [hxs] at ih
    obtain ⟨hfront, hpieces⟩ := List.forall_mem_cons.1 fun _ => ih
    rw [List.splitOn_cons_eq_if_modifyHead, hxs] at h
    split at h
    · rcases List.mem_cons.1 h with rfl | h
      · exact List.not_mem_nil
      · exact ih h
    · next hx =>
      rw [List.modifyHead_cons] at h
      rcases List.mem_cons.1 h with rfl | h
      · have hne : c ≠ x := fun hc => hx (beq_iff_eq.2 hc.symm)
        exact List.not_mem_cons_of_ne_of_not_mem hne hfront
      · exact hpieces _ h

namespace Json

/-- Whether a value can be a segment: a text that shows something, an operator, by its name, or an integer
from zero on. A truth value is no integer. -/
def isSegment : Value → Bool
  | .text s => !Text.isBlank s
  | .operator _ => true
  | .int n => 0 ≤ n
  | _ => false

def Segment.Means : Segment → Value → Prop
  | key k, .text s => k = s
  | key k, .operator op => k = op.name
  | index i, .int n => n = i
  | _, _ => False

def pieces : Value → List Value
  | .text s => (s.toList.splitOn '.').map fun cs => .text (String.ofList cs)
  | .operator op => [.text op.name]
  | v => [v]

namespace Segment
variable {v : Value} {s : Segment}

theorem ofValue_eq_ok_iff : ofValue v = .ok s ↔ isSegment v ∧ s.Means v := by
  cases v with
  | text t =>
    rw [ofValue]
    cases hblank : Text.isBlank t with
    | true => simp [isSegment, hblank]
    | false => cases s <;> simp [isSegment, hblank, Means, eq_comm]
  | operator op => cases s <;> simp [ofValue, isSegment, Means, eq_comm]
  | int n =>
    cases n with
    | ofNat i =>
      cases s with
      | key k => simp [ofValue, Means]
      | index j =>
        have hmeans : (index j).Means (.int (.ofNat i)) ↔ i = j := Int.ofNat_inj
        have hvalue : isSegment (.int (.ofNat i)) := decide_eq_true (Int.natCast_nonneg i)
        have hok : ofValue (.int (.ofNat i)) = .ok (index j) ↔ i = j := by simp [ofValue]
        rw [hok, hmeans, and_iff_right hvalue]
    | negSucc i => simp [ofValue, isSegment]
  | _ => simp [ofValue, isSegment]

theorem exists_ofValue_iff : (∃ s, ofValue v = .ok s) ↔ isSegment v := by
  refine ⟨fun ⟨_, hs⟩ => (ofValue_eq_ok_iff.1 hs).1, fun hv => ?_⟩
  cases v with
  | text t => exact ⟨key t, ofValue_eq_ok_iff.2 ⟨hv, rfl⟩⟩
  | operator op => exact ⟨key op.name, rfl⟩
  | int n =>
    obtain ⟨i, rfl⟩ := Int.eq_ofNat_of_zero_le (of_decide_eq_true hv)
    exact ⟨index i, rfl⟩
  | _ => cases hv

theorem means_ofSegment (s : Segment) : s.Means (Value.ofSegment s) := by
  cases s <;> rfl

end Segment

namespace Path
variable {p q r : Path} {v : Value} {vs ws xs ys : List Value}

theorem splitDots_eq_splitOn (cs : List Char) : splitDots cs = cs.splitOn '.' := by
  induction cs with
  | nil => rfl
  | cons c cs ih =>
    obtain ⟨front, rest, hcs⟩ := List.exists_cons_of_ne_nil (List.splitOn_ne_nil '.' cs)
    rw [splitDots, ih, List.splitOn_cons_eq_if_modifyHead, hcs]
    by_cases hc : c = '.'
    · rw [if_pos hc, if_pos (beq_iff_eq.2 hc)]
    · rw [if_neg hc, if_neg (by simpa using hc), List.modifyHead_cons]

theorem splitPart_eq_pieces (v : Value) : splitPart v = pieces v := by
  cases v with
  | text s => rw [splitPart, splitDots_eq_splitOn, pieces]
  | _ => rfl

theorem ofParts_eq (vs : List Value) : ofParts vs = ofValues (vs.flatMap pieces) := by
  rw [ofParts, funext splitPart_eq_pieces]

theorem ofValues_eq_ok_iff : ofValues vs = .ok p ↔ vs.mapM Segment.ofValue = .ok p.segments := by
  rw [ofValues]
  cases vs.mapM Segment.ofValue with
  | ok segments =>
    simp only [Except.ok.injEq]
    exact ⟨fun h => congrArg Path.segments h, fun h => congrArg mk h⟩
  | error why => simp only [reduceCtorEq]

/-- The refusal of a path with these segments. -/
def Refuses (vs : List Value) (f : Fault) : Prop :=
  match Value.obstacleIn? vs with
  | none => f.argument? = some "path"
  | some why => f = .ofObstacle why

theorem reported_path (vs : List Value) (why : SegmentFault) :
    (Fault.path vs why).reported =
      match Value.obstacleIn? vs with
      | some why => .ofObstacle why
      | none => .path vs why := by
  have hshown : (Fault.path vs why).subject?.bind Value.obstacle? = Value.obstacleIn? vs := by
    simp only [Fault.subject?, Option.bind_some, Value.obstacle?]
  unfold Fault.reported
  cases hvs : Value.obstacleIn? vs with
  | none => simp only [hshown, hvs]
  | some obstacle => simp only [hshown, hvs]

theorem refuses_reported (vs : List Value) (why : SegmentFault) :
    Refuses vs (Fault.path vs why).reported := by
  rw [reported_path, Refuses]
  cases Value.obstacleIn? vs <;> rfl

theorem checked_ofValues (vs : List Value) :
    Checked (Refuses vs) (∀ v ∈ vs, isSegment v) (ofValues vs) := by
  have hiff : (∃ segments, vs.mapM Segment.ofValue = .ok segments) ↔ ∀ v ∈ vs, isSegment v := by
    rw [exists_mapM_iff]
    simp only [Segment.exists_ofValue_iff]
  rw [ofValues]
  cases hsegments : vs.mapM Segment.ofValue with
  | ok segments => exact checked_ok (hiff.1 ⟨segments, hsegments⟩) _
  | error why =>
    refine checked_error (fun h => ?_) (refuses_reported vs why)
    obtain ⟨segments, hok⟩ := hiff.2 h
    cases hsegments.symm.trans hok

theorem means_of_ofValues (h : ofValues vs = .ok p) :
    List.Forall₂ (fun v s => s.Means v) vs p.segments :=
  (forall₂_of_mapM (ofValues_eq_ok_iff.1 h)).imp fun _ _ hs => (Segment.ofValue_eq_ok_iff.1 hs).2

theorem ofParts_append_iff :
    ofParts (xs ++ ys) = .ok r ↔
      ∃ p q, ofParts xs = .ok p ∧ ofParts ys = .ok q ∧ r.segments = p.segments ++ q.segments := by
  simp only [ofParts_eq, ofValues_eq_ok_iff, List.flatMap_append, List.mapM_append]
  constructor
  · intro h
    obtain ⟨front, hfront, h⟩ := bind_eq_ok.1 h
    obtain ⟨back, hback, h⟩ := bind_eq_ok.1 h
    exact ⟨⟨front⟩, ⟨back⟩, hfront, hback, (Except.ok.inj h).symm⟩
  · rintro ⟨p, q, hp, hq, hr⟩
    exact bind_eq_ok.2 ⟨_, hp, bind_eq_ok.2 ⟨_, hq, congrArg Except.ok hr.symm⟩⟩

/-- A call that answers a path. A path may be asked for as it is, and a key or an index is added to the one
there is. -/
inductive Call where
  | of (parts : List Value)
  | coerce (source : PathSource)
  | key (k : Value)
  | index (i : Value)

namespace Call

def perform (p : Path) : Call → Except Fault Path
  | of parts => ofParts parts
  | coerce source => source.resolve
  | key v | index v => p.extend v

def asked (p : Path) : Call → List Value
  | of parts | coerce (.parts parts) => parts.flatMap pieces
  | coerce (.path q) => q.values
  | key v | index v => p.values ++ [v]

/-- A path that is asked for as it is was built itself. -/
def Given (c : Call) : Prop := ∀ q, c = coerce (.path q) → q.Built

theorem isSegment_of_mem_values (hq : q.Built) : ∀ v ∈ q.values, isSegment v :=
  List.forall_mem_map.2 fun s hs =>
    Segment.exists_ofValue_iff.1 ⟨s, Segment.ofValue_ofSegment (built_iff.1 hq s hs)⟩

theorem checked_perform (p : Path) {c : Call} (hc : c.Given) :
    Checked (Refuses (c.asked p)) (∀ v ∈ c.asked p, isSegment v) (c.perform p) := by
  cases c with
  | of parts =>
    rw [perform, ofParts_eq]
    exact checked_ofValues _
  | coerce source =>
    cases source with
    | path q => exact checked_ok (isSegment_of_mem_values (hc q rfl)) q
    | parts parts =>
      rw [perform, PathSource.resolve, ofParts_eq]
      exact checked_ofValues _
  | key v | index v => exact checked_ofValues _

theorem means_of_perform {c : Call} (h : c.perform p = .ok q) :
    List.Forall₂ (fun v s => s.Means v) (c.asked p) q.segments := by
  cases c with
  | of parts =>
    rw [perform, ofParts_eq] at h
    exact means_of_ofValues h
  | coerce source =>
    cases source with
    | path q' =>
      cases h
      exact List.forall₂_map_left_iff.2 (List.forall₂_same.2 fun s _ => s.means_ofSegment)
    | parts parts =>
      rw [perform, PathSource.resolve, ofParts_eq] at h
      exact means_of_ofValues h
  | key v | index v => exact means_of_ofValues h

theorem built_of_perform (hp : p.Built) {c : Call} (hc : c.Given) (h : c.perform p = .ok q) : q.Built := by
  cases c with
  | of parts => exact .ofParts h
  | coerce source =>
    cases source with
    | path q' =>
      cases h
      exact hc q rfl
    | parts parts => exact .ofParts h
  | key v | index v => exact hp.extend h

end Call

/-- The path after calls, of which those that are refused leave it as it is. -/
def run (calls : List Call) : Path :=
  calls.foldl (fun p c => (Step.ofExcept p (c.perform p)).state) empty

theorem built_run {calls : List Call} (h : ∀ c ∈ calls, c.Given) : (run calls).Built := by
  have hfold (p : Path) (hp : p.Built) :
      (calls.foldl (fun p c => (Step.ofExcept p (c.perform p)).state) p).Built := by
    induction calls generalizing p with
    | nil => exact hp
    | cons c calls ih =>
      obtain ⟨hc, hcalls⟩ := List.forall_mem_cons.1 h
      have hstep : (Step.ofExcept p (c.perform p)).state.Built := by
        cases hperform : c.perform p with
        | ok q => exact Call.built_of_perform hp hc hperform
        | error f => exact hp
      exact ih hcalls _ hstep
  exact hfold empty (built_iff.2 (List.forall_mem_nil _))

def refusal? : Fault → Option SegmentFault
  | .path _ why => some why
  | _ => none

def Undotted (v : Value) : Prop := ∀ s, v = .text s → '.' ∉ s.toList

theorem extend_of_visible (hp : ∀ s ∈ p.segments, s.Visible) (v : Value) :
    p.extend v = match Segment.ofValue v with
      | .ok s => .ok ⟨p.segments ++ [s]⟩
      | .error why => .error (Fault.path (p.values ++ [v]) why).reported := by
  have hvalues : p.values.mapM Segment.ofValue = .ok p.segments := mapM_ofSegment hp
  rw [extend, ofValues, List.mapM_append, hvalues, List.mapM_cons]
  cases Segment.ofValue v <;> rfl

section Told
variable {β : Type} {tell : Fault → β} {cause : SegmentFault → β}

theorem told_ofValues (h : ∀ why, tell (Fault.path vs why).reported = cause why) :
    (ofValues vs).mapError tell = ((vs.mapM Segment.ofValue).map mk).mapError cause := by
  rw [ofValues]
  cases vs.mapM Segment.ofValue with
  | ok segments => rfl
  | error why => exact congrArg Except.error (h why)

/-- One by one, a value is refused together with the segments in front of it, so what is told must not
depend on what stands behind. -/
theorem told_foldlM_extend {Q : Value → Prop}
    (hQ : ∀ v s, Segment.ofValue v = .ok s → Q v → Q (Value.ofSegment s))
    (h : ∀ ws, (∀ w ∈ ws, Q w) → ∀ why, tell (Fault.path ws why).reported = cause why)
    (hp : ∀ s ∈ p.segments, s.Visible) (hvalues : ∀ w ∈ p.values, Q w) (hvs : ∀ v ∈ vs, Q v) :
    (vs.foldlM extend p).mapError tell =
      ((vs.mapM Segment.ofValue).map fun segments => mk (p.segments ++ segments)).mapError cause := by
  induction vs generalizing p with
  | nil =>
    rw [List.foldlM_nil, List.mapM_nil]
    exact congrArg (fun segments => Except.ok (mk segments)) (List.append_nil _).symm
  | cons v vs ih =>
    obtain ⟨hv, hvs⟩ := List.forall_mem_cons.1 hvs
    rw [List.foldlM_cons, List.mapM_cons, extend_of_visible hp]
    cases hs : Segment.ofValue v with
    | error why =>
      have hshown : ∀ w ∈ p.values ++ [v], Q w :=
        List.forall_mem_append.2 ⟨hvalues, List.forall_mem_singleton.2 hv⟩
      exact congrArg Except.error (h _ hshown why)
    | ok s =>
      have hvisible : ∀ x ∈ p.segments ++ [s], x.Visible :=
        List.forall_mem_append.2 ⟨hp, List.forall_mem_singleton.2 (Segment.visible_of_ofValue hs)⟩
      have hlonger : ∀ w ∈ (mk (p.segments ++ [s])).values, Q w := by
        rw [values, List.map_append]
        exact List.forall_mem_append.2 ⟨hvalues, List.forall_mem_singleton.2 (hQ v s hs hv)⟩
      refine (ih hvisible hlonger hvs).trans ?_
      cases vs.mapM Segment.ofValue with
      | error why => rfl
      | ok segments =>
        have hsegments : p.segments ++ [s] ++ segments = p.segments ++ s :: segments := by simp
        exact congrArg (fun segments => Except.ok (mk segments)) hsegments

end Told

theorem pieces_of_undotted (h : Undotted v) : (pieces v).mapM Segment.ofValue = (do
    let s ← Segment.ofValue v
    return [s]) := by
  cases v with
  | text s =>
    have hwhole : s.toList.splitOn '.' = [s.toList] := splitOn_eq_singleton_iff.2 (h s rfl)
    rw [pieces, hwhole, List.map_singleton, String.ofList_toList, List.mapM_cons]
    rfl
  | operator op =>
    have hshown : ¬ Text.isBlank op.name := by cases op <;> decide
    have hname : Segment.ofValue (.text op.name) = Segment.ofValue (.operator op) := if_neg hshown
    rw [pieces, List.mapM_cons, hname]
    rfl
  | _ => rfl

theorem mapM_pieces_of_undotted (h : ∀ v ∈ vs, Undotted v) :
    (vs.flatMap pieces).mapM Segment.ofValue = vs.mapM Segment.ofValue := by
  induction vs with
  | nil => rfl
  | cons v vs ih =>
    obtain ⟨hv, hvs⟩ := List.forall_mem_cons.1 h
    rw [List.flatMap_cons, List.mapM_append, ih hvs, List.mapM_cons, pieces_of_undotted hv]
    cases Segment.ofValue v <;> rfl

theorem obstacleIn?_eq_none_iff : Value.obstacleIn? vs = none ↔ ∀ v ∈ vs, v.obstacle? = none := by
  induction vs with
  | nil => exact iff_of_true rfl (List.forall_mem_nil _)
  | cons v vs ih =>
    rw [Value.obstacleIn?, List.forall_mem_cons, ← ih]
    cases v.obstacle? <;> simp

theorem obstacle?_ofSegment {s : Segment} (hs : Segment.ofValue v = .ok s) (hv : v.obstacle? = none) :
    (Value.ofSegment s).obstacle? = none := by
  have hmeans := (Segment.ofValue_eq_ok_iff.1 hs).2
  cases s with
  | key k => rfl
  | index i =>
    cases v with
    | int n =>
      obtain rfl : n = i := hmeans
      exact hv
    | _ => cases hmeans

theorem obstacle?_pieces (h : v.obstacle? = none) : ∀ w ∈ pieces v, w.obstacle? = none := by
  cases v with
  | text s =>
    intro w hw
    obtain ⟨piece, -, rfl⟩ := List.mem_map.1 hw
    rfl
  | _ => exact List.forall_mem_singleton.2 h

theorem ofSegments_eq (h : ∀ v ∈ vs, Undotted v) : (ofSegments vs).toOption = (ofParts vs).toOption := by
  have htogether : (ofParts vs).mapError (fun _ => ()) =
      ((vs.mapM Segment.ofValue).map mk).mapError fun _ => () := by
    have htold (why : SegmentFault) : (fun _ => ()) (Fault.path (vs.flatMap pieces) why).reported =
        (fun _ => ()) why := rfl
    rw [ofParts_eq, told_ofValues htold, mapM_pieces_of_undotted h]
  have happart : (ofSegments vs).mapError (fun _ => ()) =
      ((vs.mapM Segment.ofValue).map mk).mapError fun _ => () :=
    told_foldlM_extend (Q := fun _ => True) (p := empty) (fun _ _ _ _ => trivial) (fun _ _ _ => rfl)
      (List.forall_mem_nil _) (fun _ _ => trivial) fun _ _ => trivial
  have hforget (x : Except Fault Path) : x.toOption = (x.mapError fun _ => ()).toOption := by
    cases x <;> rfl
  rw [hforget, hforget (ofParts vs), happart, htogether]

theorem refusal_ofSegments (h : ∀ v ∈ vs, Undotted v) (hshown : Value.obstacleIn? vs = none) :
    (ofSegments vs).mapError refusal? = (ofParts vs).mapError refusal? := by
  have hvs := obstacleIn?_eq_none_iff.1 hshown
  have htold (ws : List Value) (hws : ∀ w ∈ ws, w.obstacle? = none) (why : SegmentFault) :
      refusal? (Fault.path ws why).reported = some why := by
    rw [reported_path, obstacleIn?_eq_none_iff.2 hws]
    rfl
  have hpieces : ∀ w ∈ vs.flatMap pieces, w.obstacle? = none := by
    intro w hw
    obtain ⟨v, hv, hw⟩ := List.mem_flatMap.1 hw
    exact obstacle?_pieces (hvs v hv) w hw
  rw [ofParts_eq, told_ofValues (htold _ hpieces), mapM_pieces_of_undotted h]
  exact told_foldlM_extend (p := empty) (fun _ _ => obstacle?_ofSegment) htold (List.forall_mem_nil _)
    (List.forall_mem_nil _) hvs

theorem undotted_of_ofParts (h : ofParts vs = .ok p) : ∀ k ∈ p.keys, '.' ∉ k.toList := by
  intro k hk
  rw [ofParts_eq] at h
  obtain ⟨v, hv, hmeans⟩ := exists_of_forall₂ (means_of_ofValues h).flip _ (mem_keys.1 hk)
  obtain ⟨part, -, hpiece⟩ := List.mem_flatMap.1 hv
  cases part with
  | text s =>
    obtain ⟨piece, hsplit, rfl⟩ := List.mem_map.1 hpiece
    obtain rfl : k = String.ofList piece := hmeans
    rw [String.toList_ofList]
    exact not_mem_of_mem_splitOn hsplit
  | operator op =>
    cases List.mem_singleton.1 hpiece
    obtain rfl : k = op.name := hmeans
    cases op <;> decide
  | _ =>
    cases List.mem_singleton.1 hpiece
    cases hmeans

theorem ofParts_values_iff (hp : p.Built) :
    ofParts p.values = .ok p ↔ ∀ k ∈ p.keys, '.' ∉ k.toList := by
  refine ⟨undotted_of_ofParts, fun h => ?_⟩
  have hundotted : ∀ v ∈ p.values, Undotted v := by
    refine List.forall_mem_map.2 fun s hs t ht => ?_
    cases s with
    | key k =>
      obtain rfl : k = t := Value.text.inj ht
      exact h k (mem_keys.2 hs)
    | index i => cases ht
  rw [ofParts_eq, ofValues_eq_ok_iff, mapM_pieces_of_undotted hundotted]
  exact mapM_ofSegment (built_iff.1 hp)

theorem pieces_joined {segments : List Segment} (hne : segments ≠ [])
    (h : ∀ s ∈ segments, ∃ k, s = .key k ∧ '.' ∉ k.toList) :
    pieces (.text (Segment.joined segments)) = segments.map Value.ofSegment := by
  have htexts : ∀ t ∈ segments.map fun s => s.text.toList, '.' ∉ t := by
    refine List.forall_mem_map.2 fun s hs => ?_
    obtain ⟨k, rfl, hk⟩ := h s hs
    exact hk
  have hsplit : (Segment.joined segments).toList.splitOn '.' = segments.map fun s => s.text.toList := by
    rw [Segment.joined, String.toList_intercalate, List.map_map]
    exact List.splitOn_intercalate '.' htexts (by simpa using hne)
  rw [pieces, hsplit, List.map_map]
  refine List.map_congr_left fun s hs => ?_
  obtain ⟨k, rfl, -⟩ := h s hs
  exact congrArg Value.text String.ofList_toList

theorem ofParts_text_iff (hp : p.Built) :
    ofParts [.text p.text] = .ok p ↔
      p.segments ≠ [] ∧ ∀ s ∈ p.segments, ∃ k, s = .key k ∧ '.' ∉ k.toList := by
  constructor
  · intro h
    have hundotted := undotted_of_ofParts h
    rw [ofParts_eq, List.flatMap_singleton] at h
    have hmeans := means_of_ofValues h
    constructor
    · intro hnil
      rw [hnil, List.forall₂_nil_right_iff, pieces, List.map_eq_nil_iff] at hmeans
      exact List.splitOn_ne_nil _ _ hmeans
    · intro s hs
      obtain ⟨v, hv, hsv⟩ := exists_of_forall₂ hmeans.flip s hs
      obtain ⟨piece, -, rfl⟩ := List.mem_map.1 hv
      cases s with
      | key k => exact ⟨k, rfl, hundotted k (mem_keys.2 hs)⟩
      | index i => cases hsv
  · rintro ⟨hne, hkeys⟩
    rw [ofParts_eq, List.flatMap_singleton, text, pieces_joined hne hkeys, ofValues_eq_ok_iff]
    exact mapM_ofSegment (built_iff.1 hp)

/-- Every path that calls lead to has segments that can be segments, and each call is refused exactly if it
asks for one that cannot; otherwise it answers what it asks for. It is refused for its path if all that it
asks for can be shown, and else for the first obstacle. Parts make a path together exactly if they do apart,
and then one behind the other. Those without dots make the same path together and one by one, or none in
either way, and that for the same reason if they can be shown. A path comes back from its segments exactly if
no key has a dot, and from its text exactly if it has segments and all of them are such keys. -/
theorem calls_build_paths :
    (∀ (calls : List Call) (c : Call), (∀ d ∈ c :: calls, d.Given) →
      (∀ s ∈ (run calls).segments, s.Visible) ∧
      Checked (Refuses (c.asked (run calls))) (∀ v ∈ c.asked (run calls), isSegment v)
        (c.perform (run calls)) ∧
      ∀ q, c.perform (run calls) = .ok q →
        List.Forall₂ (fun v s => s.Means v) (c.asked (run calls)) q.segments) ∧
    (∀ xs ys r, ofParts (xs ++ ys) = .ok r ↔
      ∃ p q, ofParts xs = .ok p ∧ ofParts ys = .ok q ∧ r.segments = p.segments ++ q.segments) ∧
    (∀ parts, (∀ v ∈ parts, Undotted v) →
      (ofSegments parts).toOption = (ofParts parts).toOption ∧
      (Value.obstacleIn? parts = none →
        (ofSegments parts).mapError refusal? = (ofParts parts).mapError refusal?)) ∧
    (∀ p : Path, p.Built →
      (ofParts p.values = .ok p ↔ ∀ k ∈ p.keys, '.' ∉ k.toList) ∧
      (ofParts [.text p.text] = .ok p ↔
        p.segments ≠ [] ∧ ∀ s ∈ p.segments, ∃ k, s = .key k ∧ '.' ∉ k.toList)) := by
  refine ⟨fun calls c h => ⟨?_, ?_, fun q => Call.means_of_perform⟩, fun xs ys r => ofParts_append_iff,
    fun parts h => ⟨ofSegments_eq h, refusal_ofSegments h⟩,
    fun p hp => ⟨ofParts_values_iff hp, ofParts_text_iff hp⟩⟩
  · exact built_iff.1 (built_run (List.forall_mem_cons.1 h).2)
  · exact Call.checked_perform _ (List.forall_mem_cons.1 h).1

theorem path_behind_refused_key :
    let calls : List Call := [.coerce (.path ⟨[.key "a"]⟩), .key (.text " "), .index (.int 3)]
    let p : Path := ⟨[.key "a", .index 3]⟩
    let parts : List Value := [.text "a", .bool true]
    run calls = p ∧ (∀ s ∈ p.segments, s.Visible) ∧
      (∃ f, (Call.key (.text " ")).perform p = .error f ∧ f.argument? = some "path") ∧
      (ofSegments parts).mapError refusal? = (ofParts parts).mapError refusal? ∧
      ofParts p.values = .ok p ∧ ofParts [.text p.text] ≠ .ok p := by
  intro calls p parts
  obtain ⟨hcalls, -, hparts, hback⟩ := calls_build_paths
  have hrun : run calls = p := by decide
  have hgiven : ∀ d ∈ Call.key (.text " ") :: calls, d.Given := by
    refine List.forall_mem_cons.2 ⟨nofun, List.forall_mem_cons.2 ⟨?_, by simp [Call.Given]⟩⟩
    rintro _ ⟨⟩
    have hshown : Text.isBlank "a" = false := by decide
    exact built_iff.2 (List.forall_mem_singleton.2 hshown)
  obtain ⟨hvisible, hchecked, -⟩ := hcalls calls (.key (.text " ")) hgiven
  rw [hrun] at hvisible hchecked
  obtain ⟨hsegments, htext⟩ := hback p (built_iff.2 hvisible)
  refine ⟨hrun, hvisible, ?_, (hparts parts ?_).2 rfl, hsegments.2 (by decide), fun h => ?_⟩
  · rcases hchecked with ⟨hall, -⟩ | ⟨-, f, hf, hrefuses⟩
    · exact absurd (hall (.text " ") (by simp [Call.asked])) (by decide)
    · exact ⟨f, hf, hrefuses⟩
  · exact List.forall_mem_cons.2 ⟨by rintro _ ⟨⟩; decide, List.forall_mem_singleton.2 nofun⟩
  · obtain ⟨k, hk, -⟩ := (htext.1 h).2 (.index 3) (by decide)
    cases hk

/-- A negative index that is too long to be shown, and a statement that cannot be read: both are no segments,
and neither refusal blames the path. A blank key is blamed by itself, but not beside a long index. -/
theorem refusal_not_shown :
    let long : Nat := 10 ^ Text.Numeral.longest
    let update : Value := .unreadable "Update" (.joinsWithoutFrom "postgresql")
    let parts : List Value := [.text " ", .int (.ofNat long)]
    (Call.index (.int (.negSucc long))).perform empty = .error .longInteger ∧
      ¬ isSegment (.int (.negSucc long)) ∧ Fault.longInteger.argument? = none ∧
      (Call.of [update]).perform empty = .error (.joinsWithoutFrom "postgresql") ∧ ¬ isSegment update ∧
      (ofSegments parts).mapError refusal? ≠ (ofParts parts).mapError refusal? := by
  -- Nothing here may be evaluated at the long integer, so the refusals are stated for any.
  have hindex (n : Nat) : (Call.index (.int (.negSucc n))).perform empty =
      .error (Fault.path [.int (.negSucc n)] (.negativeIndex (.negSucc n))).reported := rfl
  have hapart (n : Nat) : ofSegments [.text " ", .int (.ofNat n)] =
      .error (.path [.text " "] .blankKey) := rfl
  have htogether (n : Nat) : ofParts [.text " ", .int (.ofNat n)] =
      .error (Fault.path [.text " ", .int (.ofNat n)] .blankKey).reported := rfl
  have hlong (n : Nat) (hn : 10 ^ Text.Numeral.longest ≤ n) : Text.Numeral.isWritable n = false :=
    Text.Numeral.isWritable_eq_false_iff.2 hn
  have hnegative (n : Nat) (hn : 10 ^ Text.Numeral.longest ≤ n + 1) :
      Value.obstacleIn? [.int (.negSucc n)] = some .longInteger := by
    simp [Value.obstacleIn?, Value.obstacle?, hlong _ hn]
  have hparts (n : Nat) (hn : 10 ^ Text.Numeral.longest ≤ n) :
      Value.obstacleIn? [.text " ", .int (.ofNat n)] = some .longInteger := by
    simp [Value.obstacleIn?, Value.obstacle?, hlong _ hn]
  intro long update parts
  refine ⟨?_, by simp [isSegment], rfl, rfl, by decide, ?_⟩
  · rw [hindex, reported_path, hnegative long (Nat.le_succ long)]
    rfl
  · rw [hapart, htogether, reported_path, hparts long le_rfl]
    nofun

end Path
end Json
end SqlComposer
