import Mathlib.Data.List.Forall2
import SqlComposer.Argument

/-! What the answers of a check or a change ensure, whenever they are given. -/

namespace SqlComposer
variable {α β σ : Type} {P : α → Prop} {Q : β → Prop}

def Ensures (x : Except Fault α) (P : α → Prop) : Prop := ∀ a, x = .ok a → P a

theorem ensures_ok {a : α} (h : P a) : Ensures (.ok a) P := by
  rintro _ ⟨⟩
  exact h

theorem ensures_error (f : Fault) : Ensures (.error f) P := fun _ h => nomatch h

theorem Ensures.mono {P' : α → Prop} {x : Except Fault α} (hx : Ensures x P)
    (h : ∀ a, P a → P' a) : Ensures x P' := fun a ha => h a (hx a ha)

theorem Ensures.bind {x : Except Fault α} (hx : Ensures x P) {f : α → Except Fault β}
    (hf : ∀ a, P a → Ensures (f a) Q) : Ensures (x >>= f) Q := by
  intro b hb
  obtain ⟨a, ha, hb⟩ := bind_eq_ok.1 hb
  exact hf a (hx a ha) b hb

theorem Ensures.map {x : Except Fault α} (hx : Ensures x P) {f : α → β} (hf : ∀ a, P a → Q (f a)) :
    Ensures (x.map f) Q := by
  intro b hb
  obtain ⟨a, ha, rfl⟩ := map_eq_ok.1 hb
  exact hf a (hx a ha)

theorem eq_ok_of_toOption {x : Except Fault α} {a : α} (h : x.toOption = some a) : x = .ok a := by
  cases x with
  | ok b => exact congrArg Except.ok (Option.some.inj h)
  | error f => cases h

theorem ensures_any (x : Except Fault α) : Ensures x fun _ => True := fun _ _ => trivial

theorem ensures_requireMembers (refusal : Fault) (v : Value) :
    Ensures (requireMembers refusal v) fun vs => v.members? = some vs := by
  unfold requireMembers
  split
  · exact ensures_error _
  · exact ensures_error _
  · exact ensures_error _
  · split
    · next vs hvs => exact ensures_ok hvs
    · exact ensures_error _

theorem exists_of_forall₂ {R : α → β → Prop} {xs : List α} {ys : List β} (h : List.Forall₂ R xs ys) :
    ∀ x ∈ xs, ∃ y ∈ ys, R x y := by
  induction h with
  | nil => exact List.forall_mem_nil _
  | cons hy _ ih =>
    refine List.forall_mem_cons.2 ⟨⟨_, List.mem_cons_self, hy⟩, fun x hx => ?_⟩
    obtain ⟨y, hmem, hxy⟩ := ih x hx
    exact ⟨y, List.mem_cons_of_mem _ hmem, hxy⟩

section MapM
variable {ε : Type} {f : α → Except ε β} {xs : List α} {ys : List β}

theorem forall₂_of_mapM (h : xs.mapM f = .ok ys) : List.Forall₂ (fun x y => f x = .ok y) xs ys := by
  induction xs generalizing ys with
  | nil =>
    cases h
    exact .nil
  | cons x xs ih =>
    rw [List.mapM_cons] at h
    obtain ⟨y, hy, h⟩ := bind_eq_ok.1 h
    obtain ⟨zs, hzs, ⟨⟩⟩ := bind_eq_ok.1 h
    exact .cons hy (ih hzs)

theorem mem_of_mapM_eq_ok (h : xs.mapM f = .ok ys) :
    (∀ x ∈ xs, ∃ y ∈ ys, f x = .ok y) ∧ ∀ y ∈ ys, ∃ x ∈ xs, f x = .ok y := by
  have hpairs := forall₂_of_mapM h
  exact ⟨exists_of_forall₂ hpairs, exists_of_forall₂ (R := fun y x => f x = .ok y) hpairs.flip⟩

theorem length_of_mapM_eq_ok (h : xs.mapM f = .ok ys) : ys.length = xs.length :=
  (forall₂_of_mapM h).length_eq.symm

theorem exists_mapM_iff : (∃ ys, xs.mapM f = .ok ys) ↔ ∀ x ∈ xs, ∃ y, f x = .ok y := by
  induction xs with
  | nil => exact iff_of_true ⟨[], rfl⟩ (List.forall_mem_nil _)
  | cons x xs ih =>
    rw [List.forall_mem_cons, ← ih, List.mapM_cons]
    constructor
    · rintro ⟨ys, h⟩
      obtain ⟨y, hy, h⟩ := bind_eq_ok.1 h
      obtain ⟨zs, hzs, -⟩ := bind_eq_ok.1 h
      exact ⟨⟨y, hy⟩, zs, hzs⟩
    · rintro ⟨⟨y, hy⟩, zs, hzs⟩
      exact ⟨y :: zs, bind_eq_ok.2 ⟨y, hy, bind_eq_ok.2 ⟨zs, hzs, rfl⟩⟩⟩

end MapM

theorem ensures_mapM {f : α → Except Fault β} {xs : List α} (h : ∀ x ∈ xs, Ensures (f x) Q) :
    Ensures (xs.mapM f) fun ys => ∀ y ∈ ys, Q y := by
  intro ys hys y hy
  obtain ⟨x, hx, hxy⟩ := (mem_of_mapM_eq_ok hys).2 y hy
  exact h x hx y hxy

theorem Step.ofExcept_keeps {P : σ → Prop} {before : σ} (hb : P before) {r : Except Fault σ}
    (h : Ensures r P) : P (ofExcept before r).state := by
  cases r with
  | ok after => exact h after rfl
  | error f => exact hb

end SqlComposer
