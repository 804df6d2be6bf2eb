import SqlComposer.Proofs.Balance.Argument
import SqlComposer.Proofs.Json.Nesting

/-! Parentheses in the expression of a JSON column. A path has the shape of its text, however the family
writes it; an operation writes balanced texts around the expression, and cutting its template at the
slots and filling in a balanced expression keeps the shape, whether or not a name holds a slot. -/

namespace SqlComposer

theorem shape_join (ss : List String) : shape (String.join ss) = (ss.map shape).prod := by
  induction ss with
  | nil => rfl
  | cons s ss ih => rw [String.join_cons, shape_append, ih, List.map_cons, List.prod_cons]

namespace Json

theorem Path.shape_text (p : Path) : shape p.text = (p.segments.map fun g => shape g.text).prod := by
  rw [text, Segment.joined, shape_intercalate (by decide), List.map_map]
  rfl

theorem shape_bracePath (p : Path) : shape (bracePath p) = shape p.text := by
  have hbraces : shape "\x7b" = 1 ∧ shape "\x7d" = 1 := by decide
  rw [bracePath, shape_append, shape_append, shape_intercalate (by decide), List.map_map, p.shape_text,
    hbraces.1, hbraces.2, one_mul, mul_one]
  rfl

theorem shape_dollarPath (p : Path) : shape (dollarPath p) = shape p.text := by
  have hroot : shape "$" = 1 := by decide
  have hdot : shape "." = 1 := by decide
  have hbrackets : shape "[" = 1 ∧ shape "]" = 1 := by decide
  rw [dollarPath, shape_append, shape_join, List.map_map, p.shape_text, hroot, one_mul]
  congr 1
  refine List.map_congr_left fun g _ => ?_
  cases g with
  | key k => simp only [Function.comp_apply, shape_append, hdot, one_mul, Segment.text]
  | index i => simp only [Function.comp_apply, shape_append, shape_nat, hbrackets, Segment.text, mul_one]

theorem Segment.shape_ofValue {v : Value} {g : Segment} (h : ofValue v = .ok g) :
    shape g.text = shape v.plain := by
  cases v with
  | text s =>
    rw [ofValue] at h
    split at h <;> cases h
    rfl
  | operator op =>
    cases h
    exact op.shape_name.trans op.shape_fullName.symm
  | int n =>
    cases n with
    | ofNat i =>
      cases h
      exact (shape_nat i).trans (shape_int (.ofNat i)).symm
    | negSucc i => cases h
  | _ => cases h

theorem Path.shape_ofValues {vs : List Value} {p : Path} (h : ofValues vs = .ok p) :
    shape p.text = (vs.map fun v => shape v.plain).prod := by
  have hsegments {vs : List Value} {gs : List Segment} (h : vs.mapM Segment.ofValue = .ok gs) :
      (gs.map fun g => shape g.text) = vs.map fun v => shape v.plain := by
    have hpairs := forall₂_of_mapM h
    clear h
    induction hpairs with
    | nil => rfl
    | cons hv _ ih => rw [List.map_cons, List.map_cons, Segment.shape_ofValue hv, ih]
  unfold ofValues at h
  split at h
  · next gs hgs =>
    cases h
    rw [shape_text, hsegments hgs]
  · cases h

theorem Path.prod_splitDots (cs : List Char) :
    ((splitDots cs).map Shape.ofChars).prod = Shape.ofChars cs := by
  have hdot : Shape.ofChar '.' = 1 := by decide
  induction cs with
  | nil => rfl
  | cons c cs ih =>
    rw [splitDots, Shape.ofChars_cons, ← ih]
    split
    · next hc => rw [List.map_cons, List.prod_cons, hc, hdot, Shape.ofChars_nil]
    · split
      · next piece pieces hpieces =>
        rw [hpieces, List.map_cons, List.prod_cons, Shape.ofChars_cons, List.map_cons, List.prod_cons,
          mul_assoc]
      · next hpieces => simp [hpieces]

theorem Path.prod_splitPart (v : Value) :
    ((splitPart v).map fun v => shape v.plain).prod = shape v.plain := by
  cases v with
  | text s =>
    rw [splitPart, List.map_map]
    refine Eq.trans ?_ (prod_splitDots s.toList)
    congr 1
    exact List.map_congr_left fun cs _ => shape_ofList cs
  | operator op =>
    rw [splitPart, List.map_singleton, List.prod_singleton]
    exact op.shape_name.trans op.shape_fullName.symm
  | _ => rw [splitPart, List.map_singleton, List.prod_singleton] <;> simp

theorem Path.ensures_ofParts {parts : List Value} (h : ∀ v ∈ parts, v.Balanced) :
    Ensures (ofParts parts) fun p => shape p.text = 1 := by
  intro p hp
  rw [shape_ofValues hp, List.map_flatMap, List.flatMap_def, List.prod_flatten, List.map_map]
  refine List.prod_eq_one (List.forall_mem_map.2 fun v hv => ?_)
  exact (prod_splitPart v).trans (h v hv)

def PathSource.Balanced : PathSource → Prop
  | path p => shape p.text = 1
  | parts vs => ∀ v ∈ vs, v.Balanced

theorem PathSource.Balanced.resolve {path : PathSource} (h : path.Balanced) :
    Ensures path.resolve fun p => shape p.text = 1 := by
  cases path with
  | path p => exact ensures_ok h
  | parts vs => exact Path.ensures_ofParts h

def Operation.Balanced : Operation → Prop
  | setPath p _ | removePath p => shape p.text = 1
  | removeKey k => shape k.alone = 1
  | removeKeys ks => ∀ k ∈ ks, shape k.alone = 1
  | merge | arrayAppend | arrayPrepend | stripNulls => True

theorem shape_pathText (f : Family) (p : Path) : shape (f.pathText p) = shape p.text := by
  cases f with
  | postgresql => exact shape_bracePath p
  | ansi | mysql | sqlite => exact shape_dollarPath p

theorem shape_keyText (f : Family) (k : Phrase) : shape (f.keyText k) = shape k.alone := by
  have hroot : shape "$." = 1 := by decide
  have hpath : shape ("$." ++ k.within) = shape k.alone := by
    rw [shape_append, hroot, one_mul, k.shape_within]
  cases f with
  | postgresql => rfl
  | ansi | mysql | sqlite => exact hpath

theorem Operation.Balanced.literalTexts {op : Operation} (h : op.Balanced) (f : Family) :
    ∀ s ∈ f.literalTexts op, shape s = 1 := by
  cases op with
  | setPath p create | removePath p =>
    exact List.forall_mem_singleton.2 ((shape_pathText f p).trans h)
  | removeKey k => exact List.forall_mem_singleton.2 ((shape_keyText f k).trans h)
  | removeKeys ks => exact List.forall_mem_map.2 fun k hk => (shape_keyText f k).trans (h k hk)
  | merge | arrayAppend | arrayPrepend | stripNulls => exact List.forall_mem_nil _

theorem shape_literals {ss : List String} (h : ∀ s ∈ ss, shape s = 1) : shape (literals ss) = 1 :=
  shape_intercalate_eq_one (by decide)
    (List.forall_mem_map.2 fun s hs => (shape_stringLiteral s).trans (h s hs))

def Frame.Balanced (fr : Frame) : Prop := shape fr.before * shape fr.after = 1

instance (fr : Frame) : Decidable fr.Balanced := inferInstanceAs (Decidable (_ = _))

theorem Frame.Balanced.around {fr : Frame} (h : fr.Balanced) {inner : String} (hi : shape inner = 1) :
    shape (fr.around inner) = 1 := by
  rw [Frame.around, shape_append, shape_append, hi, mul_one]
  exact h

theorem Frame.balanced_around {before opening text closing : String} (ht : shape text = 1)
    (h : shape before * (shape opening * shape closing) = 1) :
    Frame.Balanced ⟨before, opening ++ text ++ closing⟩ := by
  rw [Frame.Balanced, shape_append, shape_append, ht, mul_one]
  exact h

end Json

namespace Family
open Json
variable {op : Operation}

theorem frame?_balanced (f : Family) (t : Storage) (h : op.Balanced) {fr : Frame}
    (hf : f.frame? t op = some fr) : fr.Balanced := by
  obtain ⟨l, hl, rfl⟩ := layout_of_frame? hf
  have hliterals := shape_literals (h.literalTexts f)
  have hlayout := forall_layout
    (P := fun _ _ l => shape l.before * (shape l.opening * shape l.closing) = 1) (by decide) hl
  exact Frame.balanced_around hliterals hlayout

end Family

namespace Json

theorem shape_documentCast (f : Family) (t : Storage) : shape (f.documentCast t) = 1 := by
  cases f <;> cases t <;> decide

def Change.Balanced : Change → Prop
  | set _ | merge _ | appendArray _ | prependArray _ | stripNulls => True
  | setPath path _ _ | removePath path => path.Balanced
  | removeKey key => key.Balanced
  | removeKeys keys => ∀ k ∈ keys, k.Balanced
  | setElement index _ | removeElement index => index.Balanced

def Action.Balanced : Action → Prop
  | replace _ => True
  | wrap op _ => op.Balanced

theorem Change.Balanced.action {c : Change} (h : c.Balanced) : Ensures c.action Action.Balanced := by
  cases c with
  | set v | merge v | appendArray v | prependArray v => exact ensures_ok trivial
  | stripNulls => exact ensures_ok trivial
  | setPath path v create => exact (PathSource.Balanced.resolve h).bind fun p hp => ensures_ok hp
  | removePath path => exact (PathSource.Balanced.resolve h).bind fun p hp => ensures_ok hp
  | removeKey key => exact (Value.Balanced.require h "key").bind fun k hk => ensures_ok hk
  | removeKeys keys =>
    cases keys with
    | nil => exact ensures_error _
    | cons k ks =>
      exact (ensures_mapM fun v hv => (h v hv).require "key").bind fun names hn => ensures_ok hn
  | setElement i v =>
    exact (Path.ensures_ofParts (List.forall_mem_singleton.2 h)).bind fun p hp => ensures_ok hp
  | removeElement i =>
    exact (Path.ensures_ofParts (List.forall_mem_singleton.2 h)).bind fun p hp => ensures_ok hp

namespace Revision

def Balanced (r : Revision) : Prop := shape r.column = 1 ∧ ∀ t ∈ r.templates, shape t.text = 1

variable {r : Revision}

theorem Balanced.apply (h : r.Balanced) {c : Change} (hc : c.Balanced) :
    Ensures (r.apply c) Balanced := by
  intro r' hr'
  obtain ⟨tm, htm, hr'⟩ := bind_eq_ok.1 hr'
  cases hr'
  refine ⟨h.1, List.forall_mem_append.2 ⟨h.2, List.forall_mem_singleton.2 ?_⟩⟩
  rcases template_eq_ok htm with ⟨v, -, rfl⟩ | ⟨op, vs, fr, ha, -, hfr, rfl⟩
  · exact shape_documentCast r.family r.storage
  · have hop : op.Balanced := hc.action _ ha
    exact (Family.frame?_balanced r.family r.storage hop hfr).around (by decide)

theorem Balanced.applyAll (h : r.Balanced) {cs : List Change} (hcs : ∀ c ∈ cs, c.Balanced) :
    Ensures (r.applyAll cs) Balanced := by
  induction cs generalizing r with
  | nil => exact ensures_ok h
  | cons c cs ih =>
    obtain ⟨hc, hcs⟩ := List.forall_mem_cons.1 hcs
    exact (h.apply hc).bind fun r' hr' => ih hr' hcs

end Revision

theorem prod_cutFrom {x : Char} {xs : List Char} (hm : ∀ c ∈ x :: xs, Shape.ofChar c = 1) (skip : Nat)
    (cs : List Char) (h : ∀ c ∈ cs.take skip, Shape.ofChar c = 1) :
    ((cutFrom (x :: xs) skip cs).map Shape.ofChars).prod = Shape.ofChars cs := by
  induction cs generalizing skip with
  | nil => rfl
  | cons c cs ih =>
    rw [Shape.ofChars_cons]
    cases skip with
    | succ k =>
      rw [List.take_succ_cons, List.forall_mem_cons] at h
      rw [cutFrom, ih k h.2, h.1, one_mul]
    | zero =>
      rw [cutFrom]
      split
      · next hp =>
        obtain ⟨rfl, rest, rfl⟩ := List.cons_prefix_cons.1 (List.isPrefixOf_iff_prefix.1 hp)
        obtain ⟨hx, hxs⟩ := List.forall_mem_cons.1 hm
        have hskipped : ∀ c ∈ (xs ++ rest).take ((x :: xs).length - 1), Shape.ofChar c = 1 := by
          simpa using hxs
        rw [List.map_cons, List.prod_cons, ih _ hskipped, hx, Shape.ofChars_nil]
      · rw [← ih 0 (by simp)]
        split
        · next piece pieces hpieces =>
          rw [hpieces, List.map_cons, List.prod_cons, Shape.ofChars_cons, List.map_cons, List.prod_cons,
            mul_assoc]
        · next hpieces => simp [hpieces]

theorem prod_cut (text : String) : ((cut text).map Shape.ofChars).prod = shape text := by
  -- As a test of a list: a statement about all characters would be decided over all of them.
  have hslot : ('\x00' :: "current\x00".toList).all (Shape.ofChar · = 1) := by decide
  rw [cut, slot_toList]
  exact prod_cutFrom (fun c hc => of_decide_eq_true (List.all_eq_true.1 hslot c hc)) 0 text.toList
    (by simp)

theorem ofChars_fill {expression : List Char} (h : Shape.ofChars expression = 1)
    (pieces : List (List Char)) :
    Shape.ofChars (fill expression pieces) = (pieces.map Shape.ofChars).prod := by
  induction pieces with
  | nil => rfl
  | cons piece pieces ih =>
    cases pieces with
    | nil => simp [fill]
    | cons next pieces =>
      rw [fill, Shape.ofChars_append, Shape.ofChars_append, h, mul_one, ih,
        List.map_cons (l := next :: pieces), List.prod_cons]
      exact List.cons_ne_nil next pieces

namespace Revision

theorem ofChars_nest {inner : List Char × List Value} (h : Shape.ofChars inner.1 = 1) {t : Template}
    (ht : shape t.text = 1) : Shape.ofChars (nest inner t).1 = 1 := by
  unfold nest
  split
  · next before after pieces hcut =>
    exact (ofChars_fill h _).trans (by rw [← hcut, prod_cut, ht])
  · exact ht

theorem Balanced.nested {r : Revision} (h : r.Balanced) : Shape.ofChars r.nested.1 = 1 := by
  have hfold (ts : List Template) (inner : List Char × List Value) (hi : Shape.ofChars inner.1 = 1)
      (hts : ∀ t ∈ ts, shape t.text = 1) : Shape.ofChars (ts.foldl nest inner).1 = 1 := by
    induction ts generalizing inner with
    | nil => exact hi
    | cons t ts ih =>
      obtain ⟨ht, hts⟩ := List.forall_mem_cons.1 hts
      exact ih _ (ofChars_nest hi ht) hts
  exact hfold r.templates _ h.1 h.2

end Revision
end Json
end SqlComposer
