import SqlComposer.Edit
import SqlComposer.Proofs.Balance.Condition

/-! Balanced clauses. The texts of a caller are asked to be balanced as far as they are written: of
columns, groups and orders that are given together, those in front of the first refused one. -/

namespace SqlComposer

def CommonTableEdit.Balanced (e : CommonTableEdit) : Prop := e.name.Balanced ∧ e.query.isSome

def ColumnEdit.Balanced : ColumnEdit → Prop
  | columns cs => ∀ t ∈ (leadingTexts "column" cs).state, shape t = 1
  | columnAs column asName => column.Balanced ∧ asName.Balanced
  | star | distinct => True
  | aggregate function column asName => function.Balanced ∧ column.Balanced ∧ asName.Balanced
  | count asName => asName.Balanced
  | countDistinct column asName => column.Balanced ∧ asName.Balanced
  | query id asName => asName.Balanced ∧ id.isSome

def SourceEdit.Balanced : SourceEdit → Prop
  | table name asName => name.Balanced ∧ asName.Balanced
  | query id asName => asName.Balanced ∧ id.isSome

def JoinEdit.Balanced : JoinEdit → Prop
  | table _ name on asName _ => name.Balanced ∧ on.Balanced ∧ asName.Balanced
  | columns _ name names asName =>
    name.Balanced ∧ (∀ n ∈ names, shape n.alone = 1) ∧ asName.Balanced
  | natural _ name => name.Balanced
  | query _ id asName on _ => asName.Balanced ∧ on.Balanced ∧ id.isSome

def GroupingEdit.Balanced : GroupingEdit → Prop
  | groups exprs => ∀ t ∈ (leadingTexts "expr" exprs).state, shape t = 1
  | all => True

def OrderingEdit.Balanced : OrderingEdit → Prop
  | expressions exprs => ∀ t ∈ (leadingTexts "expr" exprs).state, shape t = 1
  | columns _ cs => ∀ c ∈ cs, c.Balanced
  | nulls column _ _ => column.Balanced
  | position .. => True
  | collate column collation _ => column.Balanced ∧ collation.Balanced

theorem CommonTable.balanced_clause {ts : List CommonTable} (h : ∀ t ∈ ts, BalancedParts t.parts) :
    BalancedParts (clause ts) := by
  unfold clause
  split
  · exact balancedParts_nil
  · refine (balancedParts_clause ?_ (by decide) h).append (by decide)
    unfold keyword
    split <;> decide

theorem CommonTableEdit.Balanced.apply (d : Dialect) {e : CommonTableEdit} (he : e.Balanced)
    {ts : List CommonTable} (hts : ∀ t ∈ ts, BalancedParts t.parts) :
    Ensures (e.apply d ts) fun ts => ∀ t ∈ ts, BalancedParts t.parts := by
  have htable : Ensures (e.table d) fun t => BalancedParts t.parts := by
    refine (he.1.require "name").bind fun n hn => (ensures_any _).bind fun hint _ => ?_
    refine (ensures_any _).bind fun _ _ => ensures_ok (balancedParts_embedded ?_ he.2)
    have hlead : shape hint.lead = 1 := by cases hint <;> decide
    simp only [shape_append, n.shape_within, hn, hlead]
    decide
  refine htable.bind fun t ht => ensures_ok ?_
  exact List.forall_mem_append.2 ⟨hts, List.forall_mem_singleton.2 ht⟩

def Projection.Balanced (p : Projection) : Prop := ∀ c ∈ p.columns, BalancedParts c.parts

theorem Projection.Balanced.parts {p : Projection} (h : p.Balanced) : BalancedParts p.parts := by
  refine BalancedParts.text_cons ?_ ?_
  · split <;> decide
  · split
    · decide
    · exact balancedParts_separated (by decide) (List.forall_mem_map.2 h)

theorem Projection.Balanced.add {p : Projection} (h : p.Balanced) {cs : List Column}
    (hcs : ∀ c ∈ cs, BalancedParts c.parts) : (p.add cs).Balanced :=
  List.forall_mem_append.2 ⟨h, hcs⟩

theorem balancedParts_named {query : Option StatementId} (hq : query.isSome) {name : Phrase}
    (h : shape name.alone = 1) :
    BalancedParts (Part.embedded "(" query (") AS " ++ name.within)) := by
  refine balancedParts_embedded ?_ hq
  rw [shape_append, name.shape_within, h]
  decide

theorem ColumnEdit.addText_balanced {p : Projection} (hp : p.Balanced) {text : Except Fault String}
    (h : Ensures text fun t => shape t = 1) : (addText p text).state.Balanced := by
  refine Step.ofExcept_keeps hp (h.map fun t ht => hp.add ?_)
  exact List.forall_mem_singleton.2 (balancedParts_text ht)

theorem ColumnEdit.Balanced.apply {e : ColumnEdit} (he : e.Balanced) {p : Projection}
    (hp : p.Balanced) : (e.apply p).state.Balanced := by
  cases e with
  | columns cs => exact hp.add (List.forall_mem_map.2 fun t ht => balancedParts_text (he t ht))
  | columnAs column asName =>
    refine addText_balanced hp ((he.1.require "column").bind fun c hc => ?_)
    refine he.2.optional.bind fun a ha => ensures_ok (shape_aliased ?_ ha)
    exact (c.shape_besideAlias a).trans hc
  | star => exact addText_balanced hp (ensures_ok (by decide))
  | distinct => exact hp
  | aggregate function column asName =>
    refine addText_balanced hp ((shape_aggregateText he.1 he.2.1).bind fun t ht => ?_)
    exact he.2.2.optional.bind fun a ha => ensures_ok (shape_aliased ht ha)
  | count asName =>
    refine addText_balanced hp ((Value.Balanced.optional he).bind fun a ha => ?_)
    exact ensures_ok (shape_aliased (by decide) ha)
  | countDistinct column asName =>
    refine addText_balanced hp (he.1.column.bind fun c hc => ?_)
    have hdistinct : (Value.text ("DISTINCT " ++ c.within)).Balanced := by
      show shape ("DISTINCT " ++ c.within) = 1
      rw [shape_append, hc]
      decide
    refine (shape_aggregateText (by decide) hdistinct).bind fun t ht => ?_
    exact he.2.optional.bind fun a ha => ensures_ok (shape_aliased ht ha)
  | query id asName =>
    refine Step.ofExcept_keeps hp ((he.1.require "alias").bind fun a ha => ensures_ok ?_)
    exact hp.add (List.forall_mem_singleton.2 (balancedParts_named he.2 ha))

theorem SourceEdit.Balanced.source {e : SourceEdit} (he : e.Balanced) :
    Ensures e.source fun s => BalancedParts s.parts := by
  cases e with
  | table name asName =>
    refine (he.1.require "table").bind fun t ht => he.2.optional.bind fun a ha => ensures_ok ?_
    exact balancedParts_text (shape_aliased ((t.shape_besideAlias a).trans ht) ha)
  | query id asName =>
    exact (he.1.require "alias").bind fun a ha => ensures_ok (balancedParts_named he.2 ha)

theorem SourceEdit.Balanced.apply {e : SourceEdit} (he : e.Balanced) {ss : List Source}
    (hss : ∀ s ∈ ss, BalancedParts s.parts) :
    Ensures (e.apply ss) fun ss => ∀ s ∈ ss, BalancedParts s.parts :=
  he.source.bind fun _ hs =>
    ensures_ok (List.forall_mem_append.2 ⟨hss, List.forall_mem_singleton.2 hs⟩)

theorem balanced_targetOf {table asName : Value} (ht : table.Balanced) (ha : asName.Balanced) :
    Ensures (targetOf table asName) fun t => BalancedParts t.parts := by
  refine (ht.require "table").bind fun t ht => ha.optional.bind fun a ha => ensures_ok ?_
  exact balancedParts_text (shape_aliased ((t.shape_besideAlias a).trans ht) ha)

theorem Join.balanced_parts {j : Join} (hs : BalancedParts j.source.parts)
    (hc : shape j.condition.text = 1) : BalancedParts j.parts := by
  have hlead : shape ((if j.natural then " NATURAL " else " ") ++ j.kind.keyword ++ " ") = 1 := by
    cases j.natural <;> cases j.kind <;> decide
  refine (hs.text_cons hlead).append (balancedParts_bound ?_ _)
  unfold conditionText
  split
  · rfl
  · exact hc

theorem JoinCondition.shape_ofText {t : Option String} (h : ∀ s ∈ t, shape s = 1) :
    shape (ofText t).text = 1 := by
  cases t with
  | none => rfl
  | some s =>
    rw [ofText, text, shape_append, h s rfl]
    decide

theorem JoinEdit.shape_tableCondition (kind : JoinKind) {on : Value} (h : on.Balanced) :
    Ensures (tableCondition kind on) fun c => shape c.text = 1 := by
  unfold tableCondition
  split
  · exact ensures_error _
  · exact h.optional.map fun t ht => JoinCondition.shape_ofText ht

theorem JoinEdit.Balanced.join {e : JoinEdit} (he : e.Balanced) :
    Ensures e.join fun j => BalancedParts j.parts := by
  have hsource {t : Phrase} {a : Option String} (ht : shape t.alone = 1)
      (ha : ∀ s ∈ a, shape s = 1) : BalancedParts (Source.table t.within a).parts :=
    balancedParts_text (shape_aliased (t.shape_within.trans ht) ha)
  cases e with
  | table kind name on asName values =>
    obtain ⟨hname, hon, halias⟩ := he
    refine (ensures_any _).bind fun k _ => (hname.require "table").bind fun t ht => ?_
    refine halias.optional.bind fun a ha => (shape_tableCondition k hon).bind fun c hc => ?_
    exact ensures_ok (Join.balanced_parts (hsource ht ha) hc)
  | columns kind name names asName =>
    obtain ⟨hname, hnames, halias⟩ := he
    cases names with
    | nil => exact ensures_error _
    | cons n ns =>
      refine (ensures_any _).bind fun k _ => (hname.require "table").bind fun t ht => ?_
      refine halias.optional.bind fun a ha => ensures_ok (Join.balanced_parts (hsource ht ha) ?_)
      have hlist : shape (", ".intercalate ((n :: ns).map Phrase.alone)) = 1 :=
        shape_intercalate_eq_one (by decide) (List.forall_mem_map.2 hnames)
      show shape (" USING (" ++ ", ".intercalate ((n :: ns).map Phrase.alone) ++ ")") = 1
      rw [shape_append, shape_append, hlist]
      decide
  | natural kind name =>
    refine (ensures_any _).bind fun k _ => (Value.Balanced.require he "table").bind fun t ht => ?_
    exact ensures_ok (Join.balanced_parts (hsource ht nofun) rfl)
  | query kind id asName on values =>
    obtain ⟨halias, hon, hid⟩ := he
    refine (halias.require "alias").bind fun a ha => (ensures_any _).bind fun k _ => ?_
    refine hon.optional.bind fun c hc => ensures_ok ?_
    exact Join.balanced_parts (balancedParts_named hid ha) (JoinCondition.shape_ofText hc)

theorem JoinEdit.Balanced.apply {e : JoinEdit} (he : e.Balanced) {js : List Join}
    (hjs : ∀ j ∈ js, BalancedParts j.parts) :
    Ensures (e.apply js) fun js => ∀ j ∈ js, BalancedParts j.parts :=
  he.join.bind fun _ hj =>
    ensures_ok (List.forall_mem_append.2 ⟨hjs, List.forall_mem_singleton.2 hj⟩)

def Grouping.Balanced : Grouping → Prop
  | groups exprs => ∀ e ∈ exprs, shape e = 1
  | all => True

theorem balancedParts_texts {keyword : String} (hk : shape keyword = 1) {items : List String}
    (h : ∀ i ∈ items, shape i = 1) :
    BalancedParts (Part.clause keyword ", " (items.map fun i => [.text i])) :=
  balancedParts_clause hk (by decide) fun i hi => balancedParts_text (h i hi)

theorem Grouping.Balanced.clause {g : Grouping} (h : g.Balanced) : BalancedParts g.clause := by
  cases g with
  | groups exprs => exact balancedParts_texts (by decide) h
  | all => exact balancedParts_text (by decide)

theorem GroupingEdit.Balanced.apply (d : Dialect) {e : GroupingEdit} (he : e.Balanced)
    {g : Grouping} (hg : g.Balanced) : (e.apply d g).state.Balanced := by
  cases e with
  | groups exprs =>
    cases g with
    | all => exact hg
    | groups before => exact List.forall_mem_append.2 ⟨hg, he⟩
  | all =>
    simp only [GroupingEdit.apply]
    split
    · exact hg
    · split
      · exact trivial
      · exact hg

theorem OrderingEdit.addText_balanced {items : List String} (hi : ∀ i ∈ items, shape i = 1)
    {text : Except Fault String} (h : Ensures text fun t => shape t = 1) :
    ∀ i ∈ (addText items text).state, shape i = 1 :=
  Step.ofExcept_keeps (P := fun is => ∀ i ∈ is, shape i = 1) hi (h.map fun _ ht =>
    List.forall_mem_append.2 ⟨hi, List.forall_mem_singleton.2 ht⟩)

theorem OrderingEdit.Balanced.apply {e : OrderingEdit} (he : e.Balanced) {items : List String}
    (hi : ∀ i ∈ items, shape i = 1) : ∀ i ∈ (e.apply items).state, shape i = 1 := by
  have hdirection (ascending : Bool) : shape (direction ascending) = 1 := by
    cases ascending <;> decide
  cases e with
  | expressions exprs => exact List.forall_mem_append.2 ⟨hi, he⟩
  | columns ascending cs =>
    refine Step.ofExcept_keeps (P := fun is => ∀ i ∈ is, shape i = 1) hi ?_
    refine (ensures_mapM fun c hc => (he c hc).column).bind fun ns hns => ensures_ok ?_
    refine List.forall_mem_append.2 ⟨hi, List.forall_mem_map.2 fun n hn => ?_⟩
    simp only [shape_append, hns n hn, hdirection]
    decide
  | nulls column ascending place =>
    refine addText_balanced hi ((ensures_any _).bind fun n _ => ?_)
    refine (Value.Balanced.column he).bind fun c hc => ensures_ok ?_
    have hplace : shape n.text = 1 := by cases n <;> decide
    simp only [shape_append, hc, hdirection, hplace]
    decide
  | position p ascending =>
    refine addText_balanced hi ((ensures_any _).bind fun n _ => ?_)
    refine (Value.Balanced.spelled (v := .int n) (shape_int n)).bind fun t ht => ensures_ok ?_
    simp only [shape_append, ht, hdirection]
    decide
  | collate column collation ascending =>
    refine addText_balanced hi ((he.2.require "collation").bind fun k hk => ?_)
    refine he.1.column.bind fun c hc => ensures_ok ?_
    simp only [shape_append, k.shape_within, hc, hk, hdirection]
    decide

theorem Window.balanced_clause (d : Dialect) (w : Window) : BalancedParts (w.clause d) := by
  have htext := d.family.shape_window (w.limit.map Int.ofNat) w.offset
  unfold clause
  split
  · exact balancedParts_nil
  · refine balancedParts_text ?_
    rw [shape_append, htext]
    decide

theorem UnionBranch.balanced_parts (u : UnionBranch) : BalancedParts u.parts := by
  have hkeyword : shape ("\n" ++ u.kind.keyword ++ "\n") = 1 := by cases u.kind <;> decide
  unfold parts
  cases u.query with
  | none => exact balancedParts_text hkeyword
  | some id =>
    refine balancedParts_embedded ?_ Option.isSome_some
    rw [hkeyword]
    decide

end SqlComposer
