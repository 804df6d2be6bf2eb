import SqlComposer.Edit

/-! Features that not every dialect has. What is written for a feature is asked of the dialect, which
gives it or refuses with the name of the feature. A computation that asks for several features ends at the
first that is missing. -/

namespace SqlComposer

inductive Feature where
  | groupByAll
  | hint (h : Hint)
  | regexp
  | array
  | sequence
  | uuid
  | json (storage : Json.Storage) (op : Json.Operation)

/-- Which dialects have which features, and from which version on. -/
def Dialect.Supports (d : Dialect) : Feature → Prop
  | .groupByAll => d.family = .postgresql ∧ 17 ≤ d.version
  | .hint _ => d.family = .postgresql ∧ 12 ≤ d.version
  | .regexp => d.family ≠ .ansi
  | .array => d.family = .postgresql
  | .sequence => d.family = .ansi ∨ d.family = .postgresql
  | .uuid => d.family = .mysql ∨ d.family = .postgresql
  | .json storage op =>
    match d.family with
    | .ansi => False
    | .mysql => op ≠ .stripNulls
    | .postgresql => storage = .jsonb ∨ op = .stripNulls
    | .sqlite => op ≠ .stripNulls ∧ op ≠ .arrayPrepend

def Feature.text : Feature → String
  | groupByAll => "GROUP BY ALL"
  | hint h => "CTE materialization hint " ++ h.text
  | regexp => "regular expression matching"
  | array => "array values"
  | sequence => "sequences"
  | uuid => "UUID generation"
  | json storage op => op.feature ++ " on " ++ storage.title

/-- The backend that is blamed for a missing feature: JSON is looked up by the family, everything else
by the dialect itself. -/
def Feature.blamed (d : Dialect) : Feature → String
  | json .. => d.family.name
  | _ => d.name

def Feature.refusal (d : Dialect) (f : Feature) : Fault := .unsupported (f.blamed d) f.text

/-- A computation that is answered if the dialect has all of the features, and otherwise refused for one
that it has not. -/
def Gated {α : Type} (d : Dialect) (fs : List Feature) (x : Except Fault α) : Prop :=
  ((∀ f ∈ fs, d.Supports f) ∧ ∃ a, x = .ok a) ∨
    ∃ f ∈ fs, ¬ d.Supports f ∧ x = .error (f.refusal d)

variable {α β : Type} {d : Dialect} {f : Feature} {fs gs : List Feature} {x : Except Fault α}

theorem gated_ok (a : α) : Gated d [] (.ok a) := .inl ⟨by simp, a, rfl⟩

theorem gated_of_supports (h : d.Supports f) {a : α} (hx : x = .ok a) : Gated d [f] x :=
  .inl ⟨List.forall_mem_singleton.2 h, a, hx⟩

theorem gated_of_not_supports (h : ¬ d.Supports f) (hx : x = .error (f.refusal d)) :
    Gated d [f] x := .inr ⟨f, List.mem_singleton_self f, h, hx⟩

theorem Gated.bind (hx : Gated d fs x) {g : α → Except Fault β}
    (hg : ∀ a, x = .ok a → Gated d gs (g a)) : Gated d (fs ++ gs) (x >>= g) := by
  rcases hx with ⟨hfs, a, ha⟩ | ⟨f, hf, hmissing, herror⟩
  · rcases hg a ha with ⟨hgs, b, hb⟩ | ⟨f, hf, hmissing, herror⟩
    · refine .inl ⟨List.forall_mem_append.2 ⟨hfs, hgs⟩, b, ?_⟩
      exact bind_eq_ok.2 ⟨a, ha, hb⟩
    · refine .inr ⟨f, List.mem_append_right _ hf, hmissing, ?_⟩
      rw [ha]
      exact herror
  · refine .inr ⟨f, List.mem_append_left _ hf, hmissing, ?_⟩
    rw [herror]
    rfl

theorem Gated.bind_ok (hx : Gated d fs x) {g : α → Except Fault β}
    (hg : ∀ a, x = .ok a → ∃ b, g a = .ok b) : Gated d fs (x >>= g) := by
  have h : Gated d (fs ++ []) (x >>= g) := hx.bind fun a ha => by
    obtain ⟨b, hb⟩ := hg a ha
    rw [hb]
    exact gated_ok b
  rwa [List.append_nil] at h

theorem Gated.supports (hx : Gated d fs x) {a : α} (ha : x = .ok a) : ∀ f ∈ fs, d.Supports f := by
  rcases hx with ⟨hfs, -⟩ | ⟨f, -, -, herror⟩
  · exact hfs
  · rw [ha] at herror
    cases herror

namespace Dialect

theorem gated_uuidFunction (d : Dialect) : Gated d [.uuid] d.uuidFunction := by
  obtain ⟨family, name, version, naming⟩ := d
  cases family with
  | mysql => exact gated_of_supports (.inl rfl) rfl
  | postgresql => exact gated_of_supports (.inr rfl) rfl
  | ansi | sqlite => exact gated_of_not_supports (by simp [Supports]) rfl

theorem gated_nextValue (d : Dialect) (sequence : Phrase) :
    Gated d [.sequence] (d.nextValue sequence) := by
  obtain ⟨family, name, version, naming⟩ := d
  cases family with
  | ansi => exact gated_of_supports (.inl rfl) rfl
  | postgresql => exact gated_of_supports (.inr rfl) rfl
  | mysql | sqlite => exact gated_of_not_supports (by simp [Supports]) rfl

theorem gated_regexp (d : Dialect) (negated : Bool) (column : String) :
    Gated d [.regexp] (d.regexp negated column) := by
  obtain ⟨family, name, version, naming⟩ := d
  cases family with
  | ansi => exact gated_of_not_supports (fun h => h rfl) rfl
  | mysql | postgresql | sqlite => exact gated_of_supports (by simp [Supports]) rfl

theorem gated_array (d : Dialect) (t : String) :
    Gated d [.array] (match d.family with
      | .postgresql => .ok t
      | _ => .error (d.unsupported "array values")) := by
  obtain ⟨family, name, version, naming⟩ := d
  cases family with
  | postgresql => exact gated_of_supports rfl rfl
  | ansi | mysql | sqlite => exact gated_of_not_supports (by simp [Supports]) rfl

theorem gated_arrayLiteral (d : Dialect) (size : Nat) : Gated d [.array] (d.arrayLiteral size) :=
  d.gated_array _

theorem gated_arrayAppend (d : Dialect) (column : String) :
    Gated d [.array] (d.arrayAppend column) := d.gated_array _

theorem gated_arrayRemove (d : Dialect) (column : String) :
    Gated d [.array] (d.arrayRemove column) := d.gated_array _

theorem gated_jsonExpression (d : Dialect) (storage : Json.Storage) (column : String)
    {op : Json.Operation} (h : op.isWritable) :
    Gated d [.json storage op] (d.family.jsonExpression storage column op) := by
  have hexpression : d.family.jsonExpression storage column op =
      (d.family.operation? storage column op).elim (.error (d.family.unsupportedJson storage op)) .ok := by
    rw [Family.jsonExpression]
    cases d.family.operation? storage column op with
    | some e => exact if_pos h
    | none => rfl
  rw [hexpression]
  obtain ⟨family, name, version, naming⟩ := d
  cases family with
  | ansi => exact gated_of_not_supports (fun h => h) rfl
  | mysql =>
    cases op with
    | stripNulls => exact gated_of_not_supports (fun h => h rfl) rfl
    | _ => exact gated_of_supports (by simp [Supports]) rfl
  | postgresql =>
    cases storage with
    | jsonb => exact gated_of_supports (.inl rfl) rfl
    | json =>
      cases op with
      | stripNulls => exact gated_of_supports (.inr rfl) rfl
      | _ => exact gated_of_not_supports (by simp [Supports]) rfl
  | sqlite =>
    cases op with
    | stripNulls => exact gated_of_not_supports (fun h => h.1 rfl) rfl
    | arrayPrepend => exact gated_of_not_supports (fun h => h.2 rfl) rfl
    | _ => exact gated_of_supports (by simp [Supports]) rfl

theorem supports_of_jsonExpression {d : Dialect} {storage : Json.Storage} {column text : String}
    {op : Json.Operation} (h : d.family.jsonExpression storage column op = .ok text) :
    d.Supports (.json storage op) := by
  by_cases hop : op.isWritable
  · exact (d.gated_jsonExpression storage column hop).supports h _ (List.mem_singleton_self _)
  · rw [Family.jsonExpression] at h
    split at h
    · rw [if_neg hop] at h
      cases h
    · cases h

theorem supportsGroupByAll_iff (d : Dialect) : d.supportsGroupByAll ↔ d.Supports .groupByAll := by
  simp [supportsGroupByAll, Supports]

theorem supportsMaterializationHints_iff {h : Hint} (d : Dialect) :
    d.supportsMaterializationHints ↔ d.Supports (.hint h) := by
  simp [supportsMaterializationHints, Supports]

end Dialect

def Hint.features : Hint → List Feature
  | unspecified => []
  | h => [.hint h]

theorem CommonTableEdit.gated_checkHint (d : Dialect) (h : Hint) :
    Gated d h.features (checkHint d h) := by
  cases h with
  | unspecified => exact gated_ok ()
  | materialized | notMaterialized =>
    by_cases hd : d.supportsMaterializationHints
    · exact gated_of_supports (d.supportsMaterializationHints_iff.1 hd) (if_pos (.inr hd))
    · refine gated_of_not_supports (fun h => hd (d.supportsMaterializationHints_iff.2 h)) (if_neg ?_)
      simpa using hd

end SqlComposer
