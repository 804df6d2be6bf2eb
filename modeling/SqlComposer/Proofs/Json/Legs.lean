import Mathlib.Data.List.SplitBy
import SqlComposer.Proofs.Json.Built

/-! Legs of native paths. A backend reads a path as one leg behind the other: behind the root each dot
begins a key and each bracket an index, and between braces every two texts are parted by a comma. A path
means one leg by each of its segments, but a separator in a key begins a further leg. So the text of a
path leads where its segments say exactly if no key holds a separator, and two paths have one text exactly
if their segments fall into the same legs. -/

namespace SqlComposer

namespace Json

def beginsLeg (c : Char) : Bool := c = '.' || c = '['

def rootedLegs (text : List Char) : List (List Char) := text.splitBy fun _ c => !beginsLeg c

def listedLegs (text : List Char) : List (List Char) := if text = [] then [] else text.splitOn ','

end Json

namespace Family
open Json

/-- The legs that a backend reads in the text of a path. -/
def readLegs (f : Family) (text : String) : List (List Char) :=
  match f with
  | postgresql => listedLegs text.toList.tail.dropLast
  | _ => rootedLegs text.toList.tail

def joinLegs (f : Family) (legs : List (List Char)) : List Char :=
  match f with
  | postgresql => '{' :: ([','].intercalate legs ++ ['}'])
  | _ => '$' :: legs.flatten

def separators : Family → List Char
  | postgresql => [',']
  | _ => ['.', '[']

/-- A segment as the one leg that it means. -/
def leg (f : Family) (s : Segment) : List Char :=
  match f with
  | postgresql => s.text.toList
  | _ => s.dollarText.toList

/-- The legs that a segment falls into. -/
def legs (f : Family) (s : Segment) : List (List Char) :=
  match f with
  | postgresql => (f.leg s).splitOn ','
  | _ => rootedLegs (f.leg s)

/-- Paths that mean the same element: PostgreSQL does not tell an index from the key with its digits. -/
def SameElement (f : Family) (p q : Path) : Prop :=
  match f with
  | postgresql => p.segments.map Segment.text = q.segments.map Segment.text
  | _ => p = q

instance (f : Family) (p q : Path) : Decidable (f.SameElement p q) :=
  match f with
  | postgresql => inferInstanceAs (Decidable (p.segments.map Segment.text = q.segments.map Segment.text))
  | ansi | mysql | sqlite => inferInstanceAs (Decidable (p = q))

end Family

theorem splitOn_eq_singleton_iff {c : Char} {cs : List Char} : cs.splitOn c = [cs] ↔ c ∉ cs := by
  constructor
  · intro h hc
    obtain ⟨as, bs, rfl⟩ := List.append_of_mem hc
    have hlength := congrArg List.length h
    rw [List.splitOn_append_cons_self, List.length_append, List.length_singleton] at hlength
    have hfront := List.length_pos_iff.2 (List.splitOn_ne_nil c as)
    have hbehind := List.length_pos_iff.2 (List.splitOn_ne_nil c bs)
    omega
  · exact List.splitOn_eq_singleton

theorem splitOn_intercalate_eq_flatMap (c : Char) {texts : List (List Char)} (h : texts ≠ []) :
    ([c].intercalate texts).splitOn c = texts.flatMap (·.splitOn c) := by
  induction texts with
  | nil => exact absurd rfl h
  | cons t texts ih =>
    cases texts with
    | nil => rw [List.intercalate_singleton, List.flatMap_singleton]
    | cons u texts =>
      rw [List.intercalate_cons_cons, List.append_assoc, List.singleton_append, List.splitOn_append_cons_self,
        ih (List.cons_ne_nil u texts)]
      rfl

theorem length_eq_one_of_length_flatMap {α β : Type} {f : α → List β} {xs : List α}
    (hne : ∀ x ∈ xs, f x ≠ []) (h : (xs.flatMap f).length = xs.length) :
    ∀ x ∈ xs, (f x).length = 1 := by
  have hle (xs : List α) (hne : ∀ x ∈ xs, f x ≠ []) : xs.length ≤ (xs.flatMap f).length := by
    induction xs with
    | nil => exact Nat.le_refl 0
    | cons x xs ih =>
      have hx := List.length_pos_iff.2 (hne x List.mem_cons_self)
      have hxs := ih fun y hy => hne y (List.mem_cons_of_mem _ hy)
      rw [List.flatMap_cons, List.length_append, List.length_cons]
      omega
  induction xs with
  | nil => exact List.forall_mem_nil _
  | cons x xs ih =>
    obtain ⟨hx, hxs⟩ := List.forall_mem_cons.1 hne
    have hpos := List.length_pos_iff.2 hx
    have hrest := hle xs hxs
    rw [List.flatMap_cons, List.length_append, List.length_cons] at h
    exact List.forall_mem_cons.2 ⟨by omega, ih hxs (by omega)⟩

namespace Json
variable {f : Family} {p q : Path} {s : Segment}

theorem forall_beginsLeg_iff {cs : List Char} :
    (∀ x ∈ cs, beginsLeg x = false) ↔ ∀ c ∈ ['.', '['], c ∉ cs := by
  constructor
  · rintro h c hc hcs
    have hbegins : ∀ c ∈ ['.', '['], beginsLeg c = true :=
      List.forall_mem_cons.2 ⟨rfl, List.forall_mem_singleton.2 rfl⟩
    exact Bool.false_ne_true ((h c hcs).symm.trans (hbegins c hc))
  · intro h x hx
    refine Bool.eq_false_iff.2 fun hbegins => h x ?_ hx
    simpa [beginsLeg] using hbegins

theorem rootedLegs_append {as bs : List Char} (h : ∀ c ∈ bs.head?, beginsLeg c) :
    rootedLegs (as ++ bs) = rootedLegs as ++ rootedLegs bs :=
  List.splitBy_append fun _ _ c hc => by rw [h c hc, Bool.not_true]

theorem flatten_rootedLegs (cs : List Char) : (rootedLegs cs).flatten = cs := List.flatten_splitBy _ cs

theorem rootedLegs_cons_eq_singleton_iff {c : Char} {cs : List Char} :
    rootedLegs (c :: cs) = [c :: cs] ↔ ∀ x ∈ cs, beginsLeg x = false := by
  have hchain : (c :: cs).IsChain (fun _ x => (!beginsLeg x) = true) ↔
      ∀ x ∈ cs, beginsLeg x = false := by
    induction cs generalizing c with
    | nil => simp
    | cons x xs ih => rw [List.isChain_cons_cons, ih, List.forall_mem_cons, Bool.not_eq_true']
  rw [← hchain]
  constructor
  · intro h
    exact List.isChain_of_mem_splitBy (h ▸ List.mem_singleton_self _)
  · exact List.splitBy_of_isChain (List.cons_ne_nil c cs)

theorem intercalate_listedLegs (cs : List Char) : [','].intercalate (listedLegs cs) = cs := by
  unfold listedLegs
  split
  · next h => rw [h]; rfl
  · exact List.intercalate_splitOn ','

def Path.Undivided (f : Family) (p : Path) : Prop := ∀ k ∈ p.keys, ∀ c ∈ f.separators, c ∉ k.toList

def IsLeg (f : Family) (leg : List Char) : Prop := ∃ s : Segment, s.Visible ∧ f.leg s = leg

def Path.ownLegs (f : Family) (p : Path) : List (List Char) := p.segments.map f.leg

def Path.legs (f : Family) (p : Path) : List (List Char) := p.segments.flatMap f.legs

theorem Segment.Visible.text_ne_nil (h : s.Visible) : s.text.toList ≠ [] := by
  cases s with
  | key k =>
    intro hk
    have hblank : Text.isBlank k = true := by
      rw [Text.isBlank, show k.toList = [] from hk]
      rfl
    exact Bool.false_ne_true (h.symm.trans hblank)
  | index i => simp [Segment.text]

theorem leg_key_rooted (hf : f ≠ .postgresql) (k : String) : f.leg (.key k) = '.' :: k.toList := by
  cases f with
  | postgresql => exact absurd rfl hf
  | ansi | mysql | sqlite => simp [Family.leg, Segment.dollarText]

theorem leg_index_rooted (hf : f ≠ .postgresql) (i : Nat) :
    f.leg (.index i) = '[' :: ((toString i).toList ++ [']']) := by
  cases f with
  | postgresql => exact absurd rfl hf
  | ansi | mysql | sqlite => simp [Family.leg, Segment.dollarText]

theorem leg_begins (hf : f ≠ .postgresql) (s : Segment) : ∃ c cs, f.leg s = c :: cs ∧ beginsLeg c := by
  cases s with
  | key k => exact ⟨_, _, leg_key_rooted hf k, rfl⟩
  | index i => exact ⟨_, _, leg_index_rooted hf i, rfl⟩

theorem legs_ne_nil (f : Family) (s : Segment) : f.legs s ≠ [] := by
  have hrooted (hf : f ≠ .postgresql) : rootedLegs (f.leg s) ≠ [] := by
    obtain ⟨c, cs, hleg, -⟩ := leg_begins hf s
    rw [hleg]
    exact List.splitBy_ne_nil.2 (List.cons_ne_nil c cs)
  cases f with
  | postgresql => exact List.splitOn_ne_nil _ _
  | ansi | mysql | sqlite => exact hrooted nofun

theorem legs_eq_singleton_of_length (h : (f.legs s).length = 1) : f.legs s = [f.leg s] := by
  obtain ⟨l, hl⟩ := List.length_eq_one_iff.1 h
  have hrooted (hlegs : f.legs s = rootedLegs (f.leg s)) : l = f.leg s := by
    rw [← flatten_rootedLegs (f.leg s), ← hlegs, hl, List.flatten_singleton]
  rw [hl]
  congr 1
  cases f with
  | postgresql =>
    have hlegs : (Family.leg .postgresql s).splitOn ',' = [l] := hl
    have hwhole : [','].intercalate ((Family.leg .postgresql s).splitOn ',') = Family.leg .postgresql s :=
      List.intercalate_splitOn ','
    rwa [hlegs, List.intercalate_singleton] at hwhole
  | ansi | mysql | sqlite => exact hrooted rfl

theorem legs_eq_singleton_iff :
    f.legs s = [f.leg s] ↔ ∀ k, s = .key k → ∀ c ∈ f.separators, c ∉ k.toList := by
  have hrooted (hf : f ≠ .postgresql) : rootedLegs (f.leg s) = [f.leg s] ↔
      ∀ k, s = .key k → ∀ c ∈ ['.', '['], c ∉ k.toList := by
    cases s with
    | key k =>
      rw [leg_key_rooted hf, rootedLegs_cons_eq_singleton_iff, forall_beginsLeg_iff]
      exact ⟨fun h _ hk => Segment.key.inj hk ▸ h, fun h => h k rfl⟩
    | index i =>
      rw [leg_index_rooted hf, rootedLegs_cons_eq_singleton_iff]
      have hdigits : ∀ c ∈ ['.', '['], c ∉ (toString i).toList :=
        List.forall_mem_cons.2 ⟨not_mem_toString_nat rfl i,
          List.forall_mem_singleton.2 (not_mem_toString_nat rfl i)⟩
      refine ⟨fun _ => nofun, fun _ => List.forall_mem_append.2 ⟨?_, List.forall_mem_singleton.2 rfl⟩⟩
      exact forall_beginsLeg_iff.2 hdigits
  cases f with
  | postgresql =>
    rw [Family.legs, splitOn_eq_singleton_iff]
    cases s with
    | key k => simp [Family.leg, Family.separators, Segment.text]
    | index i => exact ⟨fun _ => nofun, fun _ => not_mem_toString_nat rfl i⟩
  | ansi | mysql | sqlite => exact hrooted nofun

theorem legs_eq_ownLegs_iff : p.legs f = p.ownLegs f ↔ p.Undivided f := by
  have hsingle : p.legs f = p.ownLegs f ↔ ∀ s ∈ p.segments, f.legs s = [f.leg s] := by
    constructor
    · intro h s hs
      have hlength := congrArg List.length h
      rw [Path.legs, Path.ownLegs, List.length_map] at hlength
      exact legs_eq_singleton_of_length
        (length_eq_one_of_length_flatMap (fun s _ => legs_ne_nil f s) hlength s hs)
    · intro h
      rw [Path.legs, Path.ownLegs, List.map_eq_flatMap]
      exact List.flatMap_congr h
  rw [hsingle]
  simp only [legs_eq_singleton_iff, Path.Undivided, Path.mem_keys]
  exact ⟨fun h k hk => h _ hk k rfl, fun h s hs k hk => h k (hk ▸ hs)⟩

theorem toList_pathText (f : Family) (p : Path) : (f.pathText p).toList = f.joinLegs (p.ownLegs f) := by
  have hrooted : Path.native .sqlite p = '$' :: (p.ownLegs .sqlite).flatten := by
    rw [Path.ownLegs, ← List.flatMap_def]
    refine congrArg ('$' :: ·) (List.flatMap_congr fun s _ => ?_)
    cases s with
    | key k => exact (leg_key_rooted (f := .sqlite) nofun k).symm
    | index i => exact (leg_index_rooted (f := .sqlite) nofun i).symm
  rw [toList_pathText_eq_native]
  cases f with
  | postgresql => rfl
  | ansi | mysql | sqlite => exact hrooted

theorem rootedLegs_flatMap (hf : f ≠ .postgresql) (segments : List Segment) :
    rootedLegs (segments.flatMap f.leg) = segments.flatMap fun s => rootedLegs (f.leg s) := by
  induction segments with
  | nil => rfl
  | cons s segments ih =>
    have hbegins : ∀ c ∈ (segments.flatMap f.leg).head?, beginsLeg c := by
      cases segments with
      | nil => exact fun _ h => nomatch h
      | cons t segments =>
        obtain ⟨c, cs, hleg, hc⟩ := leg_begins hf t
        rw [List.flatMap_cons, hleg]
        rintro _ ⟨⟩
        exact hc
    rw [List.flatMap_cons, rootedLegs_append hbegins, ih, List.flatMap_cons]

theorem intercalate_ownLegs_eq_nil (hp : p.Built) :
    [','].intercalate (p.ownLegs .postgresql) = [] ↔ p.segments = [] := by
  have hvisible := Path.built_iff.1 hp
  unfold Path.ownLegs
  cases hsegments : p.segments with
  | nil => simp
  | cons s segments =>
    have hs : s.text.toList ≠ [] := (hvisible s (hsegments ▸ List.mem_cons_self)).text_ne_nil
    cases segments with
    | nil => simpa [Family.leg] using hs
    | cons t segments =>
      rw [List.map_cons, List.map_cons, List.intercalate_cons_cons]
      simp

theorem readLegs_pathText (hp : p.Built) : f.readLegs (f.pathText p) = p.legs f := by
  have hrooted (hf : f ≠ .postgresql) : rootedLegs (p.ownLegs f).flatten =
      p.segments.flatMap fun s => rootedLegs (f.leg s) := rootedLegs_flatMap hf p.segments
  cases f with
  | postgresql =>
    rw [Family.readLegs, toList_pathText, Family.joinLegs, List.tail_cons, List.dropLast_concat, listedLegs]
    split
    · next hnil => rw [Path.legs, (intercalate_ownLegs_eq_nil hp).1 hnil, List.flatMap_nil]
    · next hne =>
      have hown : p.ownLegs .postgresql ≠ [] := fun h => hne (by rw [h]; rfl)
      rw [splitOn_intercalate_eq_flatMap ',' hown, Path.ownLegs, List.flatMap_map]
      rfl
  | ansi | mysql | sqlite =>
    change rootedLegs (Family.pathText _ p).toList.tail = _
    rw [toList_pathText]
    exact hrooted nofun

theorem joinLegs_readLegs (f : Family) (p : Path) :
    f.joinLegs (f.readLegs (f.pathText p)) = (f.pathText p).toList := by
  rw [toList_pathText f p]
  cases f with
  | postgresql =>
    rw [Family.readLegs, toList_pathText, Family.joinLegs, Family.joinLegs, List.tail_cons,
      List.dropLast_concat, intercalate_listedLegs]
  | ansi | mysql | sqlite =>
    change '$' :: (rootedLegs (Family.pathText _ p).toList.tail).flatten = _
    rw [flatten_rootedLegs, toList_pathText]
    rfl

theorem pathText_eq_iff (hp : p.Built) (hq : q.Built) :
    f.pathText p = f.pathText q ↔ p.legs f = q.legs f := by
  rw [← readLegs_pathText hp, ← readLegs_pathText hq]
  refine ⟨congrArg _, fun h => String.toList_inj.1 ?_⟩
  rw [← joinLegs_readLegs f p, h, joinLegs_readLegs]

theorem nat_eq_of_toString_eq {i j : Nat} (h : toString i = toString j) : i = j := by
  have hdigits (n : Nat) : Nat.ofDigitChars 10 (toString n).toList 0 = n := by
    have hn : (toString n).toList = Nat.toDigits 10 n := by simp [Nat.repr]
    rw [hn, Nat.ofDigitChars_toDigits (by decide) (by decide)]
  rw [← hdigits i, h, hdigits]

theorem leg_injective (hf : f ≠ .postgresql) : Function.Injective f.leg := by
  intro s t h
  cases s with
  | key k =>
    cases t with
    | key k' =>
      rw [leg_key_rooted hf, leg_key_rooted hf] at h
      rw [String.toList_inj.1 (List.cons.inj h).2]
    | index i =>
      rw [leg_key_rooted hf, leg_index_rooted hf] at h
      cases (List.cons.inj h).1
  | index i =>
    cases t with
    | key k =>
      rw [leg_key_rooted hf, leg_index_rooted hf] at h
      cases (List.cons.inj h).1
    | index j =>
      rw [leg_index_rooted hf, leg_index_rooted hf] at h
      have hdigits := List.append_cancel_right (List.cons.inj h).2
      rw [nat_eq_of_toString_eq (String.toList_inj.1 hdigits)]

theorem ownLegs_eq_iff : p.ownLegs f = q.ownLegs f ↔ f.SameElement p q := by
  have hrooted (hf : f ≠ .postgresql) : p.ownLegs f = q.ownLegs f ↔ p = q := by
    rw [Path.ownLegs, Path.ownLegs, (List.map_injective_iff.2 (leg_injective hf)).eq_iff]
    cases p
    cases q
    simp
  cases f with
  | postgresql =>
    have htexts (p : Path) : p.ownLegs .postgresql = (p.segments.map Segment.text).map String.toList := by
      rw [List.map_map]
      rfl
    rw [htexts, htexts, (List.map_injective_iff.2 fun _ _ => String.toList_inj.1).eq_iff]
    rfl
  | ansi | mysql | sqlite => exact hrooted nofun

theorem exists_ownLegs {legs : List (List Char)} (h : ∀ l ∈ legs, IsLeg f l) :
    ∃ r : Path, r.Built ∧ r.ownLegs f = legs := by
  simp only [Path.built_iff]
  induction legs with
  | nil => exact ⟨.empty, List.forall_mem_nil _, rfl⟩
  | cons l legs ih =>
    obtain ⟨⟨s, hs, rfl⟩, hlegs⟩ := List.forall_mem_cons.1 h
    obtain ⟨⟨segments⟩, hvisible, rfl⟩ := ih hlegs
    exact ⟨⟨s :: segments⟩, List.forall_mem_cons.2 ⟨hs, hvisible⟩, rfl⟩

/-- What a path is read as, if it is read as a path at all, has no divided key. -/
theorem exists_undivided_iff (hp : p.Built) :
    (∃ r : Path, r.Built ∧ r.Undivided f ∧ f.pathText p = f.pathText r) ↔
      ∀ l ∈ p.legs f, IsLeg f l := by
  constructor
  · rintro ⟨r, hr, hundivided, htext⟩
    rw [(pathText_eq_iff hp hr).1 htext, legs_eq_ownLegs_iff.2 hundivided, Path.ownLegs]
    exact List.forall_mem_map.2 fun s hs => ⟨s, Path.built_iff.1 hr s hs, rfl⟩
  · intro h
    obtain ⟨r, hr, hown⟩ := exists_ownLegs h
    have htext : f.pathText p = f.pathText r := by
      refine String.toList_inj.1 ?_
      rw [toList_pathText f r, hown, ← readLegs_pathText hp, joinLegs_readLegs]
    -- Both texts are read as the same legs, so none of these falls apart.
    have hlegs := (pathText_eq_iff hp hr).1 htext
    exact ⟨r, hr, legs_eq_ownLegs_iff.1 (hlegs.symm.trans hown.symm), htext⟩

/-- The text of a path leads where its segments say exactly if no key holds a separator, and paths have
one text exactly if they fall into the same legs. A path with the text of an undivided one means the same
element exactly if it is undivided itself, and there is such a path if all legs are legs of segments. -/
theorem native_texts_lead_apart (f : Family) (p q : Path) (hp : p.Built) (hq : q.Built) :
    (f.readLegs (f.pathText p) = p.ownLegs f ↔ p.Undivided f) ∧
    (f.pathText p = f.pathText q ↔ p.legs f = q.legs f) ∧
    (q.Undivided f → f.pathText p = f.pathText q → (f.SameElement p q ↔ p.Undivided f)) ∧
    ((∃ r : Path, r.Built ∧ r.Undivided f ∧ f.pathText p = f.pathText r) ↔
      ∀ l ∈ p.legs f, IsLeg f l) := by
  refine ⟨?_, pathText_eq_iff hp hq, fun hundivided htext => ?_, exists_undivided_iff hp⟩
  · rw [readLegs_pathText hp]
    exact legs_eq_ownLegs_iff
  · have hlegs := (pathText_eq_iff hp hq).1 htext
    rw [← ownLegs_eq_iff, ← legs_eq_ownLegs_iff.2 hundivided, ← hlegs, eq_comm]
    exact legs_eq_ownLegs_iff

theorem digits_of_index_and_key :
    let p : Path := ⟨[.key "o'b", .index 0]⟩
    let q : Path := ⟨[.key "o'b", .key "0"]⟩
    p.Built ∧ q.Built ∧ Family.pathText .postgresql p = Family.pathText .postgresql q ∧
      Family.SameElement .postgresql p q ∧
      Family.readLegs .mysql (Family.pathText .mysql p) = p.ownLegs .mysql := by
  intro p q
  have hp : p.Built := Path.built_iff.2 (by simp [p, Segment.Visible]; decide)
  have hq : q.Built := Path.built_iff.2 (by simp [q, Segment.Visible]; decide)
  have hundivided (f : Family) : p.Undivided f ∧ q.Undivided f := by
    cases f <;> simp [Path.Undivided, Path.keys, Family.separators, p, q]
  have hpg := native_texts_lead_apart .postgresql p q hp hq
  have hmysql := native_texts_lead_apart .mysql p q hp hq
  have htext := hpg.2.1.2 (by decide)
  have hsame := (hpg.2.2.1 (hundivided .postgresql).2 htext).2 (hundivided .postgresql).1
  exact ⟨hp, hq, htext, hsame, hmysql.1.2 (hundivided .mysql).1⟩

/-- A key with a dot, added as one, and the two keys that its text is split into; on PostgreSQL a key with
a comma, and two keys. -/
theorem divided_keys_written_as_two :
    ∃ p q r t : Path,
      Path.empty.extend (.text "a.b") = .ok p ∧ Path.ofParts [.text "a.b"] = .ok q ∧ p ≠ q ∧
      (∀ f : Family, f ≠ .postgresql → f.pathText p = f.pathText q) ∧
      Path.empty.extend (.text "a,b") = .ok r ∧ Path.ofParts [.text "a", .text "b"] = .ok t ∧
      Family.pathText .postgresql r = Family.pathText .postgresql t ∧
      ¬ Family.SameElement .postgresql r t := by
  refine ⟨⟨[.key "a.b"]⟩, ⟨[.key "a", .key "b"]⟩, ⟨[.key "a,b"]⟩, ⟨[.key "a", .key "b"]⟩,
    rfl, rfl, by decide, fun f hf => ?_, rfl, rfl, by decide, by decide⟩
  cases f with
  | postgresql => exact absurd rfl hf
  | ansi | mysql | sqlite => decide

end Json
end SqlComposer
