import SqlComposer.Proofs.Placeholder.Argument
import SqlComposer.Proofs.Placeholder.Condition

/-! Aligned clauses of rows: columns, sources, joins, groups, order and window. Only the condition of
a join brings values of its own. -/

namespace SqlComposer

def CommonTableEdit.Aligned (e : CommonTableEdit) : Prop := e.name.Unmarked

def ColumnEdit.Aligned : ColumnEdit → Prop
  | columns cs => ∀ c ∈ cs, c.Unmarked
  | columnAs column asName => column.Unmarked ∧ asName.optionalMarks = 0
  | star | distinct => True
  | aggregate function column asName =>
    function.Unmarked ∧ column.Unmarked ∧ asName.optionalMarks = 0
  | count asName => asName.optionalMarks = 0
  | countDistinct column asName => column.Unmarked ∧ asName.optionalMarks = 0
  | query _ asName => asName.Unmarked

def SourceEdit.Aligned : SourceEdit → Prop
  | table name asName => name.Unmarked ∧ asName.optionalMarks = 0
  | query _ asName => asName.Unmarked

/-- A condition is written only behind a source, so a missing query comes without values. -/
def JoinEdit.Aligned : JoinEdit → Prop
  | table _ name on asName values =>
    name.Unmarked ∧ asName.optionalMarks = 0 ∧ on.optionalMarks = values.length
  | columns _ name names asName =>
    name.Unmarked ∧ (∀ n ∈ names, marks n.alone = 0) ∧ asName.optionalMarks = 0
  | natural _ name => name.Unmarked
  | query _ id asName on values =>
    asName.Unmarked ∧ on.optionalMarks = values.length ∧ (id = none → values = [])

def GroupingEdit.Aligned : GroupingEdit → Prop
  | groups exprs => ∀ e ∈ exprs, e.Unmarked
  | all => True

def OrderingEdit.Aligned : OrderingEdit → Prop
  | expressions exprs => ∀ e ∈ exprs, e.Unmarked
  | columns _ cs => ∀ c ∈ cs, c.Unmarked
  | nulls column _ _ => column.Unmarked
  | position .. => True
  | collate column collation _ => column.Unmarked ∧ collation.Unmarked

theorem marks_aliased_of_ensures {name : String} {asName : Option String} {v : Value}
    (hn : marks name = 0) (ha : (asName.map marks).getD 0 = v.optionalMarks)
    (hv : v.optionalMarks = 0) : marks (aliased name asName) = 0 := by
  rw [marks_aliased, hn, ha, hv]

namespace CommonTable

theorem aligned_clause {ts : List CommonTable} (h : ∀ t ∈ ts, AlignedParts t.parts) :
    AlignedParts (clause ts) := by
  unfold clause
  split
  · exact alignedParts_nil
  · refine alignedParts_append.2 ⟨alignedParts_clause ?_ (by decide) h, by decide⟩
    unfold keyword
    split <;> decide

end CommonTable

theorem CommonTableEdit.Aligned.apply (d : Dialect) {e : CommonTableEdit} (he : e.Aligned)
    {ts : List CommonTable} (hts : ∀ t ∈ ts, AlignedParts t.parts) :
    Ensures (e.apply d ts) fun ts => ∀ t ∈ ts, AlignedParts t.parts := by
  have htable : Ensures (e.table d) fun t => AlignedParts t.parts := by
    refine (Value.Unmarked.ensures he "name").bind fun n hn => ?_
    refine (ensures_any _).bind fun hint _ => (ensures_any _).bind fun _ _ => ensures_ok ?_
    refine alignedParts_embedded ?_ _ (by decide)
    have hlead : marks hint.lead = 0 := by cases hint <;> decide
    show marks (n.within ++ " AS " ++ hint.lead ++ "(\n") = 0
    rw [marks_append, marks_append, marks_append, n.marks_within, hn, hlead]
    decide
  refine htable.bind fun t ht => ensures_ok ?_
  exact List.forall_mem_append.2 ⟨hts, List.forall_mem_singleton.2 ht⟩

def Projection.Aligned (p : Projection) : Prop := ∀ c ∈ p.columns, AlignedParts c.parts

theorem Projection.Aligned.parts {p : Projection} (h : p.Aligned) : AlignedParts p.parts := by
  refine alignedParts_cons.2 ⟨?_, ?_⟩
  · show marks (if p.distinct then "SELECT DISTINCT " else "SELECT ") = 0
    split <;> decide
  · split
    · decide
    · exact alignedParts_separated (by decide) (List.forall_mem_map.2 h)

theorem Projection.Aligned.add {p : Projection} (h : p.Aligned) {cs : List Column}
    (hcs : ∀ c ∈ cs, AlignedParts c.parts) : (p.add cs).Aligned :=
  List.forall_mem_append.2 ⟨h, hcs⟩

theorem Column.aligned_expression {t : String} (h : marks t = 0) :
    AlignedParts (expression t).parts :=
  alignedParts_cons.2 ⟨h, alignedParts_nil⟩

theorem alignedParts_named (query : Option StatementId) {name : Phrase} (h : marks name.alone = 0) :
    AlignedParts (Part.embedded "(" query (") AS " ++ name.within)) := by
  refine alignedParts_embedded (by decide) query ?_
  rw [marks_append, name.marks_within, h]
  decide

theorem ColumnEdit.addText_aligned {p : Projection} (hp : p.Aligned) {text : Except Fault String}
    (h : Ensures text fun t => marks t = 0) : (addText p text).state.Aligned := by
  refine Step.ofExcept_keeps hp (h.map fun t ht => hp.add ?_)
  exact List.forall_mem_singleton.2 (Column.aligned_expression ht)

theorem ColumnEdit.Aligned.apply {e : ColumnEdit} (he : e.Aligned) {p : Projection}
    (hp : p.Aligned) : (e.apply p).state.Aligned := by
  cases e with
  | columns cs =>
    refine hp.add (List.forall_mem_map.2 fun t ht => Column.aligned_expression ?_)
    exact leadingTexts_unmarked "column" he t ht
  | columnAs column asName =>
    refine addText_aligned hp ((he.1.ensures "column").bind fun c hc => ?_)
    refine (ensures_optionalText asName).bind fun a ha => ensures_ok ?_
    exact marks_aliased_of_ensures (by rw [c.marks_besideAlias, hc]) ha he.2
  | star => exact addText_aligned hp (ensures_ok (by decide))
  | distinct => exact hp
  | aggregate function column asName =>
    refine addText_aligned hp ((ensures_aggregateText he.1 he.2.1).bind fun t ht => ?_)
    refine (ensures_optionalText asName).bind fun a ha => ensures_ok ?_
    exact marks_aliased_of_ensures ht ha he.2.2
  | count asName =>
    refine addText_aligned hp ((ensures_optionalText asName).bind fun a ha => ensures_ok ?_)
    exact marks_aliased_of_ensures (by decide) ha he
  | countDistinct column asName =>
    refine addText_aligned hp ((he.1.ensures "column").bind fun c hc => ?_)
    have hdistinct : marks ("DISTINCT " ++ c.within) = 0 := by
      rw [marks_append, c.marks_within, hc]
      decide
    have hcount : (Value.text AggregateFunction.count.name).Unmarked := by
      rintro _ ⟨⟩
      decide
    have hcolumn : (Value.text ("DISTINCT " ++ c.within)).Unmarked := by
      rintro _ ⟨⟩
      exact hdistinct
    refine (ensures_aggregateText hcount hcolumn).bind fun t ht => ?_
    refine (ensures_optionalText asName).bind fun a ha => ensures_ok ?_
    exact marks_aliased_of_ensures ht ha he.2
  | query id asName =>
    refine Step.ofExcept_keeps hp ((Value.Unmarked.ensures he "alias").bind fun a ha => ensures_ok ?_)
    exact hp.add (List.forall_mem_singleton.2 (alignedParts_named id ha))

theorem SourceEdit.Aligned.source {e : SourceEdit} (he : e.Aligned) :
    Ensures e.source fun s => AlignedParts s.parts := by
  cases e with
  | table name asName =>
    refine (he.1.ensures "table").bind fun t ht => ?_
    refine (ensures_optionalText asName).bind fun a ha => ensures_ok ?_
    refine alignedParts_cons.2 ⟨?_, alignedParts_nil⟩
    exact marks_aliased_of_ensures (by rw [t.marks_besideAlias, ht]) ha he.2
  | query id asName =>
    exact (Value.Unmarked.ensures he "alias").bind fun a ha => ensures_ok (alignedParts_named id ha)

theorem SourceEdit.Aligned.apply {e : SourceEdit} (he : e.Aligned) {ss : List Source}
    (hss : ∀ s ∈ ss, AlignedParts s.parts) :
    Ensures (e.apply ss) fun ss => ∀ s ∈ ss, AlignedParts s.parts :=
  he.source.bind fun _ hs =>
    ensures_ok (List.forall_mem_append.2 ⟨hss, List.forall_mem_singleton.2 hs⟩)

theorem ensures_targetOf {table asName : Value} (ht : table.Unmarked)
    (ha : asName.optionalMarks = 0) : Ensures (targetOf table asName) fun t => AlignedParts t.parts := by
  refine (ht.ensures "table").bind fun t ht => ?_
  refine (ensures_optionalText asName).bind fun a ha' => ensures_ok ?_
  refine alignedParts_cons.2 ⟨?_, alignedParts_nil⟩
  exact marks_aliased_of_ensures (by rw [t.marks_besideAlias, ht]) ha' ha

theorem Join.aligned_parts {j : Join} (hs : AlignedParts j.source.parts)
    (hc : marks j.conditionText = j.values.length) : AlignedParts j.parts := by
  have hlead : marks ((if j.natural then " NATURAL " else " ") ++ j.kind.keyword ++ " ") = 0 := by
    cases j.natural <;> cases j.kind <;> decide
  refine alignedParts_append.2 ⟨alignedParts_cons.2 ⟨hlead, hs⟩, ?_⟩
  exact alignedParts_cons.2 ⟨hc, alignedParts_nil⟩

theorem JoinCondition.marks_ofText (t : Option String) :
    marks (ofText t).text = (t.map marks).getD 0 := by
  cases t with
  | none => rfl
  | some t =>
    have h : marks " ON " = 0 := by decide
    simp [ofText, text, h]

theorem Source.aligned_table {name : String} {asName : Option String}
    (h : marks (aliased name asName) = 0) : AlignedParts (table name asName).parts :=
  alignedParts_cons.2 ⟨h, alignedParts_nil⟩

theorem JoinEdit.ensures_tableCondition (kind : JoinKind) (on : Value) :
    Ensures (tableCondition kind on) fun c => marks c.text = on.optionalMarks := by
  unfold tableCondition
  split
  · exact ensures_error _
  · exact (ensures_optionalText on).map fun t ht => by rw [JoinCondition.marks_ofText, ht]

theorem JoinEdit.Aligned.join {e : JoinEdit} (he : e.Aligned) :
    Ensures e.join fun j => AlignedParts j.parts := by
  cases e with
  | table kind name on asName values =>
    obtain ⟨hname, halias, hon⟩ := he
    refine (ensures_any _).bind fun k _ => (hname.ensures "table").bind fun t ht => ?_
    refine (ensures_optionalText asName).bind fun a ha => ?_
    refine (ensures_tableCondition k on).bind fun c hc => ensures_ok ?_
    refine Join.aligned_parts (Source.aligned_table ?_) (hc.trans hon)
    exact marks_aliased_of_ensures (by rw [t.marks_within, ht]) ha halias
  | columns kind name names asName =>
    obtain ⟨hname, hnames, halias⟩ := he
    cases names with
    | nil => exact ensures_error _
    | cons n ns =>
      refine (ensures_any _).bind fun k _ => (hname.ensures "table").bind fun t ht => ?_
      refine (ensures_optionalText asName).bind fun a ha => ensures_ok ?_
      refine Join.aligned_parts (Source.aligned_table ?_) ?_
      · exact marks_aliased_of_ensures (by rw [t.marks_within, ht]) ha halias
      · have hlist : marks (", ".intercalate ((n :: ns).map Phrase.alone)) = 0 :=
          marks_intercalate_eq_zero (by decide) (List.forall_mem_map.2 hnames)
        show marks (" USING (" ++ ", ".intercalate ((n :: ns).map Phrase.alone) ++ ")") = 0
        rw [marks_append, marks_append, hlist]
        decide
  | natural kind name =>
    refine (ensures_any _).bind fun k _ => (Value.Unmarked.ensures he "table").bind fun t ht => ?_
    refine ensures_ok (Join.aligned_parts (Source.aligned_table ?_) rfl)
    exact (t.marks_within).trans ht
  | query kind id asName on values =>
    obtain ⟨halias, hon, hnone⟩ := he
    refine (halias.ensures "alias").bind fun a ha => (ensures_any _).bind fun k _ => ?_
    refine (ensures_optionalText on).bind fun c hc => ensures_ok (Join.aligned_parts ?_ ?_)
    · exact alignedParts_named id ha
    · cases id with
      | none =>
        rw [hnone rfl]
        rfl
      | some id =>
        show marks (JoinCondition.ofText c).text = values.length
        rw [JoinCondition.marks_ofText, hc, hon]

theorem JoinEdit.Aligned.apply {e : JoinEdit} (he : e.Aligned) {js : List Join}
    (hjs : ∀ j ∈ js, AlignedParts j.parts) :
    Ensures (e.apply js) fun js => ∀ j ∈ js, AlignedParts j.parts :=
  he.join.bind fun _ hj =>
    ensures_ok (List.forall_mem_append.2 ⟨hjs, List.forall_mem_singleton.2 hj⟩)

def Grouping.Aligned : Grouping → Prop
  | groups exprs => ∀ e ∈ exprs, marks e = 0
  | all => True

theorem alignedParts_texts {keyword : String} (hk : marks keyword = 0) {items : List String}
    (h : ∀ i ∈ items, marks i = 0) :
    AlignedParts (Part.clause keyword ", " (items.map fun i => [.text i])) :=
  alignedParts_clause hk (by decide) fun i hi => alignedParts_cons.2 ⟨h i hi, alignedParts_nil⟩

theorem Grouping.Aligned.clause {g : Grouping} (h : g.Aligned) : AlignedParts g.clause := by
  cases g with
  | groups exprs => exact alignedParts_texts (by decide) h
  | all => exact alignedParts_cons.2 ⟨show marks " GROUP BY ALL" = 0 by decide, alignedParts_nil⟩

theorem GroupingEdit.Aligned.apply (d : Dialect) {e : GroupingEdit} (he : e.Aligned)
    {g : Grouping} (hg : g.Aligned) : (e.apply d g).state.Aligned := by
  cases e with
  | groups exprs =>
    cases g with
    | all => exact hg
    | groups before =>
      exact List.forall_mem_append.2 ⟨hg, leadingTexts_unmarked "expr" he⟩
  | all =>
    simp only [GroupingEdit.apply]
    split
    · exact hg
    · split
      · exact trivial
      · exact hg

theorem OrderingEdit.addText_aligned {items : List String} (hi : ∀ i ∈ items, marks i = 0)
    {text : Except Fault String} (h : Ensures text fun t => marks t = 0) :
    ∀ i ∈ (addText items text).state, marks i = 0 :=
  Step.ofExcept_keeps (P := fun is => ∀ i ∈ is, marks i = 0) hi (h.map fun _ ht =>
    List.forall_mem_append.2 ⟨hi, List.forall_mem_singleton.2 ht⟩)

theorem OrderingEdit.Aligned.apply {e : OrderingEdit} (he : e.Aligned) {items : List String}
    (hi : ∀ i ∈ items, marks i = 0) : ∀ i ∈ (e.apply items).state, marks i = 0 := by
  have hdirection (ascending : Bool) : marks (direction ascending) = 0 := by
    cases ascending <;> decide
  have hblank : marks " " = 0 := by decide
  cases e with
  | expressions exprs => exact List.forall_mem_append.2 ⟨hi, leadingTexts_unmarked "expr" he⟩
  | columns ascending cs =>
    refine Step.ofExcept_keeps (P := fun is => ∀ i ∈ is, marks i = 0) hi ?_
    refine (ensures_mapM fun c hc => (he c hc).ensures "column").bind fun ns hns => ensures_ok ?_
    refine List.forall_mem_append.2 ⟨hi, List.forall_mem_map.2 fun n hn => ?_⟩
    rw [marks_append, marks_append, n.marks_within, hns n hn, hdirection, hblank]
  | nulls column ascending place =>
    refine addText_aligned hi ((ensures_any _).bind fun n _ => ?_)
    refine (Value.Unmarked.ensures he "column").bind fun c hc => ensures_ok ?_
    have hplace : marks n.text = 0 := by cases n <;> decide
    simp only [marks_append, c.marks_within, hc, hdirection, hblank, hplace]
  | position p ascending =>
    refine addText_aligned hi ((ensures_any _).bind fun n _ => ?_)
    refine (ensures_spell (.int n)).bind fun t ht => ensures_ok ?_
    have hnumeral : marks t = 0 := ht ▸ marks_int n
    rw [marks_append, marks_append, hnumeral, hdirection, hblank]
  | collate column collation ascending =>
    refine addText_aligned hi ((he.2.ensures "collation").bind fun k hk => ?_)
    refine (he.1.ensures "column").bind fun c hc => ensures_ok ?_
    have hkeyword : marks " COLLATE " = 0 := by decide
    simp only [marks_append, Phrase.marks_within, hc, hk, hdirection, hblank, hkeyword]

theorem Window.aligned_clause (d : Dialect) (w : Window) : AlignedParts (w.clause d) := by
  have htext := d.family.marks_window (w.limit.map Int.ofNat) w.offset
  unfold clause
  split
  · exact alignedParts_nil
  · refine alignedParts_cons.2 ⟨?_, alignedParts_nil⟩
    rw [Part.aligned_text, marks_append, htext]
    decide

theorem UnionBranch.aligned_parts (u : UnionBranch) : AlignedParts u.parts :=
  alignedParts_embedded (by cases u.kind <;> decide) u.query (by decide)

end SqlComposer
