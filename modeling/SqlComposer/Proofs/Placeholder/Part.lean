import SqlComposer.Proofs.Expansion
import SqlComposer.Proofs.Placeholder.Text

/-! Aligned parts: each chunk has as many values as its own text has placeholders. What is read from
aligned parts puts the values of every chunk into the placeholders of that chunk, however deep the
statements refer to each other. -/

namespace SqlComposer

def Chunk.Aligned (c : Chunk) : Prop := marks c.text = c.values.length

def Part.Aligned : Part → Prop
  | .chunk c => c.Aligned
  | .statement _ => True

instance : (p : Part) → Decidable p.Aligned
  | .chunk c => inferInstanceAs (Decidable (marks c.text = c.values.length))
  | .statement _ => inferInstanceAs (Decidable True)

def AlignedParts (ps : List Part) : Prop := ∀ p ∈ ps, p.Aligned

instance (ps : List Part) : Decidable (AlignedParts ps) :=
  inferInstanceAs (Decidable (∀ p ∈ ps, p.Aligned))

@[simp] theorem alignedParts_nil : AlignedParts [] := by simp [AlignedParts]

@[simp] theorem alignedParts_cons {p : Part} {ps : List Part} :
    AlignedParts (p :: ps) ↔ p.Aligned ∧ AlignedParts ps := by
  simp [AlignedParts]

@[simp] theorem alignedParts_append {ps qs : List Part} :
    AlignedParts (ps ++ qs) ↔ AlignedParts ps ∧ AlignedParts qs := by
  simp only [AlignedParts, List.mem_append, or_imp, forall_and]

@[simp] theorem Part.aligned_text {s : String} : (text s).Aligned ↔ marks s = 0 := Iff.rfl

@[simp] theorem Part.aligned_bound {s : String} {vs : List Value} :
    (bound s vs).Aligned ↔ marks s = vs.length := Iff.rfl

@[simp] theorem Part.aligned_statement {id : StatementId} : (statement id).Aligned := trivial

variable {α : Type} {separator keyword before after : String}

theorem alignedParts_flatMap {f : α → List Part} {xs : List α} (h : ∀ x ∈ xs, AlignedParts (f x)) :
    AlignedParts (xs.flatMap f) := by
  intro p hp
  obtain ⟨x, hx, hpx⟩ := List.mem_flatMap.1 hp
  exact h x hx p hpx

theorem alignedParts_embedded (hb : marks before = 0) (query : Option StatementId)
    (ha : marks after = 0) : AlignedParts (Part.embedded before query after) := by
  cases query <;> simp [Part.embedded, hb, ha]

theorem alignedParts_separated (hs : marks separator = 0) {items : List (List Part)}
    (h : ∀ item ∈ items, AlignedParts item) : AlignedParts (Part.separated separator items) := by
  induction items with
  | nil => exact alignedParts_nil
  | cons item items ih =>
    have hrest := ih fun x hx => h x (List.mem_cons_of_mem _ hx)
    have hitem := h item List.mem_cons_self
    cases items with
    | nil => exact hitem
    | cons next items => exact alignedParts_append.2 ⟨hitem, alignedParts_cons.2 ⟨hs, hrest⟩⟩

theorem alignedParts_clause (hk : marks keyword = 0) (hs : marks separator = 0) {f : α → List Part}
    {xs : List α} (h : ∀ x ∈ xs, AlignedParts (f x)) :
    AlignedParts (Part.clause keyword separator (xs.map f)) := by
  cases xs with
  | nil => exact alignedParts_nil
  | cons x xs =>
    refine alignedParts_cons.2 ⟨hk, alignedParts_separated hs ?_⟩
    exact List.forall_mem_map.2 h

theorem expandParts_aligned {expand : StatementId → Except Fault (List Chunk)}
    (he : ∀ id cs, expand id = .ok cs → ∀ c ∈ cs, c.Aligned) {ps : List Part} (hp : AlignedParts ps)
    {cs : List Chunk} (h : expandParts expand ps = .ok cs) : ∀ c ∈ cs, c.Aligned := by
  induction ps generalizing cs with
  | nil =>
    cases h
    exact fun c hc => absurd hc List.not_mem_nil
  | cons p ps ih =>
    obtain ⟨hhead, htail⟩ := alignedParts_cons.1 hp
    cases p with
    | chunk c =>
      obtain ⟨cs, hcs, h⟩ := bind_eq_ok.1 h
      cases h
      exact List.forall_mem_cons.2 ⟨hhead, ih htail hcs⟩
    | statement id =>
      obtain ⟨inner, hinner, h⟩ := bind_eq_ok.1 h
      obtain ⟨cs, hcs, h⟩ := bind_eq_ok.1 h
      cases h
      exact List.forall_mem_append.2 ⟨he id inner hinner, ih htail hcs⟩

variable (shown : Value → String)

def Chunk.written (c : Chunk) : List Char := substitute shown c.text.toList c.values

def writeParts (write : StatementId → Except Fault (List Char)) :
    List Part → Except Fault (List Char)
  | [] => .ok []
  | .chunk c :: ps => do
    let rest ← writeParts write ps
    return c.written shown ++ rest
  | .statement id :: ps => do
    let inner ← write id
    let rest ← writeParts write ps
    return inner ++ rest

namespace Store

/-- A statement read with every value written where it was given, followed down to a depth. -/
def writtenAt (s : Store) : Nat → StatementId → Except Fault (List Char)
  | 0, _ => .error .unresolvedStatement
  | depth + 1, id => do
    let st ← s.find id
    let ps ← st.parts
    let text ← writeParts shown (s.writtenAt depth) ps
    st.whenWritable text

def written (s : Store) (id : StatementId) : Except Fault (List Char) :=
  s.writtenAt shown s.size id

def countWritten (s : Store) (id : StatementId) : Except Fault (List Char) := do
  let st ← s.find id
  let ps ← st.countParts
  writeParts shown (s.writtenAt shown s.size) ps

end Store

theorem writeParts_eq_expandParts {expand : StatementId → Except Fault (List Chunk)}
    {write : StatementId → Except Fault (List Char)}
    (h : ∀ id, write id = (expand id).map fun cs => cs.flatMap (Chunk.written shown))
    (ps : List Part) :
    writeParts shown write ps = (expandParts expand ps).map fun cs => cs.flatMap (Chunk.written shown) := by
  induction ps with
  | nil => rfl
  | cons p ps ih =>
    cases p with
    | chunk c =>
      rw [writeParts, expandParts, ih]
      cases expandParts expand ps <;> rfl
    | statement id =>
      rw [writeParts, expandParts, ih, h]
      cases expand id with
      | error f => rfl
      | ok inner =>
        cases expandParts expand ps with
        | error f => rfl
        | ok cs => simp [Except.map, bind, Except.bind, pure, Except.pure]

theorem Store.writtenAt_eq_expandAt (s : Store) (depth : Nat) (id : StatementId) :
    s.writtenAt shown depth id =
      (s.expandAt depth id).map fun cs => cs.flatMap (Chunk.written shown) := by
  induction depth generalizing id with
  | zero => rfl
  | succ depth ih =>
    rw [writtenAt, expandAt]
    cases s.find id with
    | error f => rfl
    | ok st =>
      cases hps : st.parts with
      | error f => simp [bind, Except.bind, Except.map, hps]
      | ok ps =>
        simp only [bind, Except.bind, hps, writeParts_eq_expandParts shown ih ps]
        cases expandParts (s.expandAt depth) ps with
        | error f => rfl
        | ok cs => exact (st.map_whenWritable _ cs).symm

/-- Values put into the whole text come to stand where they stand in the chunks. -/
theorem chunks_align {cs : List Chunk} (h : ∀ c ∈ cs, c.Aligned) :
    marks (chunksSql cs) = (chunksParameters cs).length ∧
      substitute shown (chunksSql cs).toList (chunksParameters cs).values =
        cs.flatMap (Chunk.written shown) := by
  induction cs with
  | nil => exact ⟨by decide, rfl⟩
  | cons c cs ih =>
    obtain ⟨hc, hcs⟩ := List.forall_mem_cons.1 h
    obtain ⟨hmarks, hwritten⟩ := ih hcs
    constructor
    · rw [chunksSql, marks_append, hc, hmarks, Parameters.length, Parameters.length,
        chunksParameters_cons, List.length_append]
    · rw [chunksSql, String.toList_append, chunksParameters_cons, substitute_append shown hc, hwritten,
        List.flatMap_cons, Chunk.written]

end SqlComposer
