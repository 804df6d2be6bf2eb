import SqlComposer.Proofs.Balance.Shape
import SqlComposer.Proofs.Ensures
import SqlComposer.Proofs.Expansion

/-! Shapes of parts. A reference adds nothing to the shape of the parts around it as long as what it
stands for is balanced; so what is read of balanced parts is balanced. -/

namespace SqlComposer

def partsShape : List Part → Shape
  | [] => 1
  | .chunk c :: ps => shape c.text * partsShape ps
  | .statement _ :: ps => partsShape ps

def BalancedParts (ps : List Part) : Prop := partsShape ps = 1

instance (ps : List Part) : Decidable (BalancedParts ps) := inferInstanceAs (Decidable (_ = _))

@[simp] theorem partsShape_nil : partsShape [] = 1 := rfl

@[simp] theorem partsShape_text (s : String) (ps : List Part) :
    partsShape (.text s :: ps) = shape s * partsShape ps := rfl

@[simp] theorem partsShape_bound (s : String) (vs : List Value) (ps : List Part) :
    partsShape (.bound s vs :: ps) = shape s * partsShape ps := rfl

@[simp] theorem partsShape_statement (id : StatementId) (ps : List Part) :
    partsShape (.statement id :: ps) = partsShape ps := rfl

@[simp] theorem partsShape_append (ps qs : List Part) :
    partsShape (ps ++ qs) = partsShape ps * partsShape qs := by
  induction ps with
  | nil => exact (one_mul _).symm
  | cons p ps ih =>
    cases p with
    | chunk c => rw [List.cons_append, partsShape, partsShape, ih, mul_assoc]
    | statement id => exact ih

variable {α : Type} {ps qs : List Part} {separator keyword before after : String}

theorem BalancedParts.append (hp : BalancedParts ps) (hq : BalancedParts qs) :
    BalancedParts (ps ++ qs) := by
  rw [BalancedParts, partsShape_append, hp, hq, one_mul]

theorem balancedParts_nil : BalancedParts [] := rfl

theorem BalancedParts.text_cons {s : String} (hs : shape s = 1) (h : BalancedParts ps) :
    BalancedParts (.text s :: ps) := by
  rw [BalancedParts, partsShape_text, hs, h, one_mul]

theorem balancedParts_bound {s : String} (hs : shape s = 1) (vs : List Value) :
    BalancedParts [.bound s vs] := by
  rw [BalancedParts, partsShape_bound, hs, partsShape_nil, one_mul]

theorem balancedParts_text {s : String} (hs : shape s = 1) : BalancedParts [.text s] :=
  balancedParts_bound hs []

theorem balancedParts_flatMap {f : α → List Part} {xs : List α} (h : ∀ x ∈ xs, BalancedParts (f x)) :
    BalancedParts (xs.flatMap f) := by
  induction xs with
  | nil => exact balancedParts_nil
  | cons x xs ih =>
    obtain ⟨hx, hxs⟩ := List.forall_mem_cons.1 h
    exact hx.append (ih hxs)

theorem balancedParts_embedded (h : shape before * shape after = 1) {query : Option StatementId}
    (hq : query.isSome) : BalancedParts (Part.embedded before query after) := by
  obtain ⟨id, rfl⟩ := Option.isSome_iff_exists.1 hq
  rw [BalancedParts, Part.embedded, partsShape_text, partsShape_statement, partsShape_text,
    partsShape_nil, mul_one]
  exact h

theorem balancedParts_separated (hs : shape separator = 1) {items : List (List Part)}
    (h : ∀ item ∈ items, BalancedParts item) : BalancedParts (Part.separated separator items) := by
  induction items with
  | nil => exact balancedParts_nil
  | cons item items ih =>
    obtain ⟨hitem, hitems⟩ := List.forall_mem_cons.1 h
    cases items with
    | nil => exact hitem
    | cons next items => exact hitem.append ((ih hitems).text_cons hs)

theorem balancedParts_clause (hk : shape keyword = 1) (hs : shape separator = 1) {f : α → List Part}
    {xs : List α} (h : ∀ x ∈ xs, BalancedParts (f x)) :
    BalancedParts (Part.clause keyword separator (xs.map f)) := by
  cases xs with
  | nil => exact balancedParts_nil
  | cons x xs => exact (balancedParts_separated hs (List.forall_mem_map.2 h)).text_cons hk

variable {expand : StatementId → Except Fault (List Chunk)}

theorem shape_expandParts
    (he : ∀ id, .statement id ∈ ps → Ensures (expand id) fun cs => shape (chunksSql cs) = 1) :
    Ensures (expandParts expand ps) fun cs => shape (chunksSql cs) = partsShape ps := by
  induction ps with
  | nil => exact ensures_ok rfl
  | cons p ps ih =>
    have hrest := ih fun id hid => he id (List.mem_cons_of_mem _ hid)
    cases p with
    | chunk c =>
      refine hrest.bind fun cs hcs => ensures_ok ?_
      rw [chunksSql, shape_append, hcs, partsShape]
    | statement id =>
      refine (he id List.mem_cons_self).bind fun inner hinner => hrest.bind fun cs hcs => ensures_ok ?_
      rw [chunksSql_append, shape_append, hinner, hcs, one_mul, partsShape]

end SqlComposer
