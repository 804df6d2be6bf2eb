import SqlComposer.Proofs.Expansion
import Mathlib.Data.Finset.Card
import Mathlib.Data.Finset.Range
import Mathlib.Logic.Relation

/-! References between statements. What is read of a statement depends on it and on those that it
embeds at any depth. A statement whose references all lead to statements, and never round in a circle,
is read down to the last one: a chain of references passes through different statements, so it is no
longer than there are statements. -/

namespace SqlComposer.Store
open Relation
variable {s t : Store} {id : StatementId}

def Embeds (s : Store) (outer inner : StatementId) : Prop :=
  ∃ st ps, s.get? outer = some st ∧ st.parts = .ok ps ∧ .statement inner ∈ ps

def references (s : Store) (id : StatementId) : List StatementId :=
  match (s.get? id).map Statement.parts with
  | some (.ok ps) => ps.filterMap fun
    | .statement r => some r
    | .chunk _ => none
  | _ => []

theorem embeds_iff {r : StatementId} : s.Embeds id r ↔ r ∈ s.references id := by
  have hmem (ps : List Part) : (r ∈ ps.filterMap fun
      | .statement r => some r
      | .chunk _ => none) ↔ .statement r ∈ ps := by
    rw [List.mem_filterMap]
    constructor
    · rintro ⟨p, hp, hr⟩
      cases p with
      | chunk c => cases hr
      | statement r' =>
        cases hr
        exact hp
    · exact fun hp => ⟨_, hp, rfl⟩
  unfold Embeds references
  cases hst : s.get? id with
  | none => simp
  | some st =>
    cases hps : st.parts with
    | error f => simp [hps]
    | ok ps => simpa [hps] using (hmem ps).symm

theorem mem_of_reaches {ids : List StatementId} (hids : ∀ i ∈ ids, ∀ r ∈ s.references i, r ∈ ids)
    (hid : id ∈ ids) {j : StatementId} (h : ReflTransGen s.Embeds id j) : j ∈ ids := by
  induction h with
  | refl => exact hid
  | tail _ hlast ih => exact hids _ ih _ (embeds_iff.1 hlast)

theorem size_eq_of_isSome (h : ∀ j, (t.get? j).isSome = (s.get? j).isSome) : t.size = s.size :=
  eq_of_forall_lt_iff fun j => by rw [← isSome_get?, ← isSome_get?, h]

theorem expandAt_congr
    (h : ∀ j, ReflTransGen s.Embeds id j →
      (t.get? j).map Statement.outline = (s.get? j).map Statement.outline) (depth : Nat) :
    t.expandAt depth id = s.expandAt depth id := by
  induction depth generalizing id with
  | zero => rfl
  | succ depth ih =>
    have hid := h id .refl
    rw [expandAt, expandAt, find, find]
    cases hst : s.get? id with
    | none =>
      rw [hst, Option.map_none, Option.map_eq_none_iff] at hid
      rw [hid]
      rfl
    | some st =>
      rw [hst] at hid
      obtain ⟨st', hst', houtline⟩ := Option.map_eq_some_iff.1 hid
      obtain ⟨hparts, hwritable⟩ := Prod.mk.inj houtline
      simp only [hst', bind, Except.bind, hparts, Statement.whenWritable, hwritable]
      cases hps : st.parts with
      | error f => rfl
      | ok ps =>
        have hread : expandParts (t.expandAt depth) ps = expandParts (s.expandAt depth) ps :=
          expandParts_congr fun r hr => ih fun j hj => h j (.head ⟨st, ps, hst, hps, hr⟩ hj)
        simp only [hread]

/-- Every reference leads to a statement, and none in a circle. -/
inductive Resolves (s : Store) : StatementId → Prop
  | intro {id : StatementId} {st : Statement} (hst : s.get? id = some st)
      (h : ∀ r, s.Embeds id r → s.Resolves r) : s.Resolves id

theorem resolves_of_references {st : Statement} {ids : List StatementId} (hst : s.get? id = some st)
    (hids : s.references id = ids) (h : ∀ r ∈ ids, s.Resolves r) : s.Resolves id :=
  .intro hst fun r hr => h r (hids ▸ embeds_iff.1 hr)

theorem Resolves.of_reaches (h : s.Resolves id) {j : StatementId} (hj : ReflTransGen s.Embeds id j) :
    s.Resolves j := by
  induction hj with
  | refl => exact h
  | tail _ hstep ih =>
    obtain ⟨_, hall⟩ := ih
    exact hall _ hstep

theorem Resolves.lt_size (h : s.Resolves id) : id < s.size := by
  obtain ⟨hst, -⟩ := h
  exact (List.getElem?_eq_some_iff.1 hst).1

theorem Resolves.acyclic (h : s.Resolves id) : ¬ TransGen s.Embeds id id := by
  induction h with
  | intro hst h ih =>
    intro hcircle
    obtain ⟨r, hr, hback⟩ := TransGen.head'_iff.1 hcircle
    exact ih r hr (TransGen.tail' hback hr)

theorem Resolves.expandAt_card (h : s.Resolves id)
    (hparts : ∀ j st, ReflTransGen s.Embeds id j → s.get? j = some st →
      (∃ ps, st.parts = .ok ps) ∧ st.isWritable)
    (met : Finset StatementId) (hmet : ∀ j, ReflTransGen s.Embeds id j → j ∈ met) :
    ∃ cs, s.expandAt met.card id = .ok cs := by
  induction h generalizing met with
  | @intro id st hst h ih =>
    have hself : id ∈ met := hmet id .refl
    obtain ⟨⟨ps, hps⟩, hwritable⟩ := hparts id st .refl hst
    -- Below a reference the statement itself is not met again.
    have hread : ∃ cs, expandParts (s.expandAt (met.erase id).card) ps = .ok cs := by
      refine expandParts_of_forall fun r hr => ?_
      have hstep : s.Embeds id r := ⟨st, ps, hst, hps, hr⟩
      refine ih r hstep (fun j st' hj => hparts j st' (.head hstep hj)) _ fun j hj => ?_
      refine Finset.mem_erase.2 ⟨?_, hmet j (.head hstep hj)⟩
      rintro rfl
      exact (Resolves.intro hst h).acyclic (TransGen.head' hstep hj)
    obtain ⟨cs, hcs⟩ := hread
    refine ⟨cs, ?_⟩
    rw [← Finset.card_erase_add_one hself]
    exact expandAt_succ_eq_ok.2 ⟨st, ps, hst, hps, hcs, hwritable⟩

theorem Resolves.chunks_eq_ok (h : s.Resolves id)
    (hparts : ∀ j st, ReflTransGen s.Embeds id j → s.get? j = some st →
      (∃ ps, st.parts = .ok ps) ∧ st.isWritable) :
    ∃ cs, s.chunks id = .ok cs := by
  obtain ⟨cs, hcs⟩ := h.expandAt_card hparts (Finset.range s.size) fun j hj =>
    Finset.mem_range.2 (h.of_reaches hj).lt_size
  rw [Finset.card_range] at hcs
  exact ⟨cs, hcs⟩

theorem isWritable_of_expandAt {depth : Nat} {cs : List Chunk} (h : s.expandAt depth id = .ok cs)
    {j : StatementId} (hj : ReflTransGen s.Embeds id j) {st : Statement} (hst : s.get? j = some st) :
    st.isWritable := by
  induction depth generalizing id cs with
  | zero => cases h
  | succ depth ih =>
    obtain ⟨outer, ps, houter, hps, hread, hwritable⟩ := expandAt_succ_eq_ok.1 h
    rcases ReflTransGen.cases_head hj with rfl | ⟨r, ⟨outer', ps', houter', hps', hr⟩, hj⟩
    · cases houter.symm.trans hst
      exact hwritable
    · cases houter.symm.trans houter'
      cases hps.symm.trans hps'
      obtain ⟨inner, hinner⟩ := expandParts_eq_ok_mem hread hr
      exact ih hinner hj

end SqlComposer.Store
