import SqlComposer.Proofs.Expansion

/-! What parts bind: values and references to statements, in their order. The values of a statement are
read off its bindings alone; the texts around them do not matter. -/

namespace SqlComposer

inductive Binding where
  | value (v : Value)
  | statement (id : StatementId)

def Part.bindings : Part → List Binding
  | chunk c => c.values.map .value
  | statement id => [.statement id]

def bindingsOf (ps : List Part) : List Binding := ps.flatMap Part.bindings

def readBindings (valuesOf : StatementId → Except Fault (List Value)) :
    List Binding → Except Fault (List Value)
  | [] => .ok []
  | .value v :: bs => do
    let vs ← readBindings valuesOf bs
    return v :: vs
  | .statement id :: bs => do
    let inner ← valuesOf id
    let vs ← readBindings valuesOf bs
    return inner ++ vs

@[simp] theorem bindingsOf_nil : bindingsOf [] = [] := rfl

@[simp] theorem bindingsOf_append (ps qs : List Part) :
    bindingsOf (ps ++ qs) = bindingsOf ps ++ bindingsOf qs := List.flatMap_append

@[simp] theorem bindingsOf_cons (p : Part) (ps : List Part) :
    bindingsOf (p :: ps) = p.bindings ++ bindingsOf ps := rfl

namespace Part

@[simp] theorem bindings_text (s : String) : (text s).bindings = [] := rfl

@[simp] theorem bindings_bound (s : String) (vs : List Value) :
    (bound s vs).bindings = vs.map .value := rfl

@[simp] theorem bindings_statement (id : StatementId) :
    (statement id).bindings = [.statement id] := rfl

@[simp] theorem bindings_embedded (before : String) (query : Option StatementId) (after : String) :
    bindingsOf (embedded before query after) = query.toList.map .statement := by
  cases query <;> rfl

theorem bindings_separated (separator : String) (items : List (List Part)) :
    bindingsOf (separated separator items) = items.flatMap bindingsOf := by
  induction items with
  | nil => rfl
  | cons item items ih =>
    cases items with
    | nil => simp [separated]
    | cons item' items =>
      rw [separated, bindingsOf_append, bindingsOf_cons, bindings_text, List.nil_append, ih]
      · rfl
      · exact List.cons_ne_nil item' items

theorem bindings_clause (keyword separator : String) (items : List (List Part)) :
    bindingsOf (clause keyword separator items) = items.flatMap bindingsOf := by
  cases items with
  | nil => rfl
  | cons item items =>
    rw [clause, bindingsOf_cons, bindings_text, List.nil_append, bindings_separated]
    exact List.cons_ne_nil item items

end Part

theorem bindingsOf_flatMap {α : Type} (f : α → List Part) (items : List α) :
    bindingsOf (items.flatMap f) = items.flatMap fun a => bindingsOf (f a) := by
  rw [bindingsOf, List.flatMap_assoc]
  rfl

theorem bindings_orderingClause (items : List String) : bindingsOf (orderingClause items) = [] := by
  rw [orderingClause, Part.bindings_clause, List.flatMap_map]
  simp

theorem bindings_window (d : Dialect) (w : Window) : bindingsOf (w.clause d) = [] := by
  unfold Window.clause
  split <;> rfl

theorem readBindings_values (valuesOf : StatementId → Except Fault (List Value)) (vs : List Value)
    (bs : List Binding) :
    readBindings valuesOf (vs.map .value ++ bs) = (readBindings valuesOf bs).map (vs ++ ·) := by
  induction vs with
  | nil => cases h : readBindings valuesOf bs <;> simp [h, Except.map]
  | cons v vs ih =>
    rw [List.map_cons, List.cons_append, readBindings, ih]
    cases readBindings valuesOf bs <;> rfl

theorem readBindings_congr {f g : StatementId → Except Fault (List Value)} {bs : List Binding}
    (h : ∀ id, .statement id ∈ bs → f id = g id) : readBindings f bs = readBindings g bs := by
  induction bs with
  | nil => rfl
  | cons b bs ih =>
    have hrest := ih fun id hid => h id (List.mem_cons_of_mem b hid)
    cases b with
    | value v => rw [readBindings, readBindings, hrest]
    | statement id => rw [readBindings, readBindings, hrest, h id List.mem_cons_self]

def Binding.values (valuesOf : StatementId → Except Fault (List Value)) : Binding → List Value
  | value v => [v]
  | statement id => (valuesOf id).toOption.getD []

theorem readBindings_eq_ok {f : StatementId → Except Fault (List Value)} {bs : List Binding}
    {vs : List Value} (h : readBindings f bs = .ok vs) :
    vs = bs.flatMap (Binding.values f) ∧ ∀ id, .statement id ∈ bs → ∃ ws, f id = .ok ws := by
  induction bs generalizing vs with
  | nil =>
    cases h
    exact ⟨rfl, nofun⟩
  | cons b bs ih =>
    cases b with
    | value v =>
      obtain ⟨rest, hrest, ⟨⟩⟩ := bind_eq_ok.1 h
      obtain ⟨rfl, hall⟩ := ih hrest
      refine ⟨rfl, fun id hid => ?_⟩
      rcases List.mem_cons.1 hid with hid | hid
      · cases hid
      · exact hall id hid
    | statement r =>
      obtain ⟨inner, hinner, h⟩ := bind_eq_ok.1 h
      obtain ⟨rest, hrest, ⟨⟩⟩ := bind_eq_ok.1 h
      obtain ⟨rfl, hall⟩ := ih hrest
      constructor
      · rw [List.flatMap_cons, Binding.values, hinner]
        rfl
      · intro id hid
        rcases List.mem_cons.1 hid with hid | hid
        · cases hid
          exact ⟨inner, hinner⟩
        · exact hall id hid

theorem values_expandParts (expand : StatementId → Except Fault (List Chunk)) (ps : List Part) :
    (expandParts expand ps).map (·.flatMap Chunk.values) =
      readBindings (fun id => (expand id).map (·.flatMap Chunk.values)) (bindingsOf ps) := by
  induction ps with
  | nil => rfl
  | cons p ps ih =>
    rw [bindingsOf_cons]
    cases p with
    | chunk c =>
      rw [Part.bindings, readBindings_values, ← ih, expandParts]
      cases expandParts expand ps <;> rfl
    | statement id =>
      rw [Part.bindings_statement, List.singleton_append, readBindings, ← ih, expandParts]
      cases expand id with
      | error f => rfl
      | ok inner =>
        cases expandParts expand ps with
        | error f => rfl
        | ok rest => exact congrArg Except.ok List.flatMap_append

theorem mem_bindingsOf {id : StatementId} {ps : List Part} :
    .statement id ∈ bindingsOf ps ↔ .statement id ∈ ps := by
  rw [bindingsOf, List.mem_flatMap]
  constructor
  · rintro ⟨p, hp, hid⟩
    cases p with
    | chunk c => simp [Part.bindings] at hid
    | statement r =>
      cases List.mem_singleton.1 hid
      exact hp
  · exact fun h => ⟨_, h, List.mem_singleton_self _⟩

theorem chunksParameters_eq (cs : List Chunk) : chunksParameters cs = ⟨cs.flatMap Chunk.values⟩ :=
  congrArg Parameters.mk (chunksParameters_values cs)

end SqlComposer
