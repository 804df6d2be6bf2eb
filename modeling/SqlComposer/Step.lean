import SqlComposer.Fault

/-! Steps: what a change leaves behind. Most changes are made completely or not at all, but a change
of several items may be refused after it has made some of them. -/

namespace SqlComposer

/-- The state afterwards, and the cause if the change was refused. -/
structure Step (σ : Type) where
  state : σ
  fault : Option Fault

namespace Step

def map {σ τ : Type} (f : σ → τ) (s : Step σ) : Step τ :=
  ⟨f s.state, s.fault⟩

def made {σ : Type} (after : σ) : Step σ :=
  ⟨after, none⟩

def refused {σ : Type} (before : σ) (fault : Fault) : Step σ :=
  ⟨before, some fault⟩

def reported {σ : Type} (s : Step σ) : Step σ :=
  ⟨s.state, s.fault.map Fault.reported⟩

def ofExcept {σ : Type} (before : σ) : Except Fault σ → Step σ
  | .ok after => made after
  | .error fault => refused before fault

variable {σ τ : Type} {before : σ}

@[simp] theorem map_state (f : σ → τ) (s : Step σ) : (s.map f).state = f s.state := rfl

@[simp] theorem map_fault (f : σ → τ) (s : Step σ) : (s.map f).fault = s.fault := rfl

@[simp] theorem made_state (after : σ) : (made after).state = after := rfl

@[simp] theorem made_fault (after : σ) : (made after).fault = none := rfl

@[simp] theorem refused_state (f : Fault) : (refused before f).state = before := rfl

@[simp] theorem refused_fault (f : Fault) : (refused before f).fault = some f := rfl

@[simp] theorem reported_state (s : Step σ) : s.reported.state = s.state := rfl

@[simp] theorem reported_fault_eq_none (s : Step σ) : s.reported.fault = none ↔ s.fault = none := by
  simp [reported]

end Step

theorem bind_eq_ok {ε α β : Type} {x : Except ε α} {f : α → Except ε β} {b : β} :
    (x >>= f) = .ok b ↔ ∃ a, x = .ok a ∧ f a = .ok b := by
  cases x with
  | ok a => simp [bind, Except.bind]
  | error e => simp [bind, Except.bind]

theorem map_eq_ok {ε α β : Type} {x : Except ε α} {f : α → β} {b : β} :
    x.map f = .ok b ↔ ∃ a, x = .ok a ∧ f a = b := by
  cases x with
  | ok a => simp [Except.map]
  | error e => simp [Except.map]

end SqlComposer
