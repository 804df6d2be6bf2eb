import SqlComposer.Proofs.Json.Frame
import SqlComposer.Proofs.Literal.Lexing

/-! Layouts: the fixed texts of an operation. A family writes an operation as fixed texts before the
column, behind it and at the end, with one string literal for every path or key in front of the end.
Which texts those are depends on the kind of the operation only, so whatever is known of them holds for
all names at once. -/

namespace SqlComposer
namespace Json

structure Layout where
  before : String
  opening : String
  closing : String

def literals (texts : List String) : String := ", ".intercalate (texts.map stringLiteral)

def Layout.frame (l : Layout) (texts : List String) : Frame :=
  ⟨l.before, l.opening ++ literals texts ++ l.closing⟩

end Json

namespace Family
open Json

def binaryLayout : Operation → Layout
  | .merge | .arrayAppend => ⟨"", " || ?::jsonb", ""⟩
  | .setPath _ create =>
    ⟨"jsonb_set(", ", ", ", ?::jsonb, " ++ (if create then "true" else "false") ++ ")"⟩
  | .removeKey _ => ⟨"", " - ", ""⟩
  | .removeKeys _ => ⟨"", " - ARRAY[", "]"⟩
  | .removePath _ => ⟨"", " #- ", ""⟩
  | .arrayPrepend => ⟨"?::jsonb || ", "", ""⟩
  | .stripNulls => ⟨"jsonb_strip_nulls(", ")", ""⟩

def mysqlLayout? : Operation → Option Layout
  | .merge => some ⟨"JSON_MERGE_PATCH(", ", ?)", ""⟩
  | .setPath _ create => some ⟨if create then "JSON_SET(" else "JSON_REPLACE(", ", ", ", ?)"⟩
  | .removeKey _ | .removeKeys _ | .removePath _ => some ⟨"JSON_REMOVE(", ", ", ")"⟩
  | .arrayAppend => some ⟨"JSON_ARRAY_APPEND(", ", '$', ?)", ""⟩
  | .arrayPrepend => some ⟨"JSON_ARRAY_INSERT(", ", '$[0]', ?)", ""⟩
  | .stripNulls => none

def sqliteLayout? : Operation → Option Layout
  | .merge => some ⟨"json_patch(", ", ?)", ""⟩
  | .setPath _ create => some ⟨if create then "json_set(" else "json_replace(", ", ", ", ?)"⟩
  | .removeKey _ | .removeKeys _ | .removePath _ => some ⟨"json_remove(", ", ", ")"⟩
  | .arrayAppend => some ⟨"json_insert(", ", '$[#]', ?)", ""⟩
  | .arrayPrepend | .stripNulls => none

def textualLayout? : Operation → Option Layout
  | .stripNulls => some ⟨"json_strip_nulls(", ")", ""⟩
  | _ => none

def layout? (f : Family) (t : Storage) (op : Operation) : Option Layout :=
  match f, t with
  | ansi, _ => none
  | mysql, _ => mysqlLayout? op
  | postgresql, .json => textualLayout? op
  | postgresql, .jsonb => some (binaryLayout op)
  | sqlite, _ => sqliteLayout? op

def keyText (f : Family) (k : Phrase) : String :=
  match f with
  | postgresql => k.alone
  | _ => "$." ++ k.within

def literalTexts (f : Family) : Operation → List String
  | .setPath p _ | .removePath p => [f.pathText p]
  | .removeKey k => [f.keyText k]
  | .removeKeys ks => ks.map f.keyText
  | .merge | .arrayAppend | .arrayPrepend | .stripNulls => []

theorem keyPath_eq : keyPath = fun k => stringLiteral ("$." ++ k.within) := rfl

theorem binaryFrame_eq_layout (op : Operation) :
    binaryFrame op = (binaryLayout op).frame (literalTexts .postgresql op) := by
  cases op <;>
    simp [binaryFrame, binaryLayout, Layout.frame, literals, literalTexts, keyText, pathText,
      String.append_assoc, Function.comp_def]

theorem mysqlFrame?_eq_layout (op : Operation) :
    mysqlFrame? op = (mysqlLayout? op).map (·.frame (literalTexts .mysql op)) := by
  cases op <;>
    simp [mysqlFrame?, mysqlLayout?, Layout.frame, literals, literalTexts, keyText, keyPath_eq, pathText,
      Function.comp_def]

theorem sqliteFrame?_eq_layout (op : Operation) :
    sqliteFrame? op = (sqliteLayout? op).map (·.frame (literalTexts .sqlite op)) := by
  cases op <;>
    simp [sqliteFrame?, sqliteLayout?, Layout.frame, literals, literalTexts, keyText, keyPath_eq, pathText,
      Function.comp_def]

theorem textualFrame?_eq_layout (op : Operation) :
    textualFrame? op = (textualLayout? op).map (·.frame (literalTexts .postgresql op)) := by
  cases op <;> rfl

theorem frame?_eq_layout (f : Family) (t : Storage) (op : Operation) :
    f.frame? t op = (f.layout? t op).map (·.frame (f.literalTexts op)) := by
  cases f with
  | ansi => rfl
  | mysql => exact mysqlFrame?_eq_layout op
  | sqlite => exact sqliteFrame?_eq_layout op
  | postgresql =>
    cases t with
    | json => exact textualFrame?_eq_layout op
    | jsonb => exact congrArg some (binaryFrame_eq_layout op)

end Family

namespace Json

def Operation.bare : Operation → Operation
  | setPath _ create => setPath .empty create
  | removeKey _ => removeKey (.text "")
  | removeKeys _ => removeKeys []
  | removePath _ => removePath .empty
  | merge => merge
  | arrayAppend => arrayAppend
  | arrayPrepend => arrayPrepend
  | stripNulls => stripNulls

def bareOperations : List Operation :=
  [.merge, .setPath .empty true, .setPath .empty false, .removeKey (.text ""), .removeKeys [],
    .removePath .empty, .arrayAppend, .arrayPrepend, .stripNulls]

theorem Operation.bare_mem (op : Operation) : op.bare ∈ bareOperations := by
  cases op with
  | setPath p create => cases create <;> simp [bare, bareOperations]
  | _ => simp [bare, bareOperations]

theorem layout?_bare (f : Family) (t : Storage) (op : Operation) :
    f.layout? t op.bare = f.layout? t op := by
  cases f <;> cases t <;> cases op <;> rfl

theorem forall_layout {P : Family → Operation → Layout → Prop}
    (h : ∀ f ∈ [Family.ansi, .mysql, .postgresql, .sqlite], ∀ t ∈ [Storage.json, .jsonb],
      ∀ op ∈ bareOperations, ∀ l ∈ f.layout? t op, P f op l)
    {f : Family} {t : Storage} {op : Operation} {l : Layout} (hl : f.layout? t op = some l) :
    P f op.bare l := by
  have hf : f ∈ [Family.ansi, .mysql, .postgresql, .sqlite] := by cases f <;> decide
  have ht : t ∈ [Storage.json, .jsonb] := by cases t <;> decide
  rw [← layout?_bare] at hl
  exact h f hf t ht op.bare op.bare_mem l hl

variable {f : Family} {t : Storage} {op : Operation} {l : Layout} {fr : Frame}

theorem layout_of_frame? (h : f.frame? t op = some fr) :
    ∃ l, f.layout? t op = some l ∧ l.frame (f.literalTexts op) = fr := by
  rw [Family.frame?_eq_layout] at h
  exact Option.map_eq_some_iff.1 h

theorem mark_not_mem_layout (h : f.layout? t op = some l) :
    '\x00' ∉ l.before.toList ∧ '\x00' ∉ l.opening.toList ∧ '\x00' ∉ l.closing.toList :=
  forall_layout
    (P := fun _ _ l =>
      '\x00' ∉ l.before.toList ∧ '\x00' ∉ l.opening.toList ∧ '\x00' ∉ l.closing.toList)
    (by decide) h

theorem SlotFree.of_infix {as bs : List Char} (h : SlotFree bs) (hab : as <:+: bs) : SlotFree as :=
  fun hs => h (hs.trans hab)

theorem infix_intercalate {separator s : String} {ss : List String} (h : s ∈ ss) :
    s.toList <:+: (separator.intercalate ss).toList := by
  induction ss with
  | nil => exact absurd h List.not_mem_nil
  | cons x xs ih =>
    cases xs with
    | nil =>
      obtain rfl := List.mem_singleton.1 h
      simp
    | cons y ys =>
      rw [String.intercalate_cons_cons, String.toList_append, String.toList_append, List.append_assoc]
      rcases List.mem_cons.1 h with rfl | h
      · exact (List.prefix_append _ _).isInfix
      · exact (ih h).trans (List.suffix_append_of_suffix (List.suffix_append _ _)).isInfix

theorem infix_join {s : String} {ss : List String} (h : s ∈ ss) :
    s.toList <:+: (String.join ss).toList := by
  induction ss with
  | nil => exact absurd h List.not_mem_nil
  | cons x xs ih =>
    rw [String.join_cons, String.toList_append]
    rcases List.mem_cons.1 h with rfl | h
    · exact (List.prefix_append _ _).isInfix
    · exact (ih h).trans (List.suffix_append _ _).isInfix

theorem slotFree_stringLiteral_iff {s : String} :
    SlotFree (stringLiteral s).toList ↔ SlotFree s.toList := by
  constructor
  · -- A slot has no quotes, so none of its characters is written twice.
    rintro h ⟨front, last, hs⟩
    have hslot : doubled slot.toList = slot.toList := by decide
    have hdoubled : doubled s.toList = doubled front ++ slot.toList ++ doubled last := by
      rw [← hs, doubled_append, doubled_append, hslot]
    refine h ⟨'\'' :: doubled front, doubled last ++ ['\''], ?_⟩
    rw [toList_stringLiteral, hdoubled]
    simp only [List.cons_append, List.append_assoc]
  · exact slotFree_stringLiteral

theorem slotFree_literals_iff {ss : List String} :
    SlotFree (literals ss).toList ↔ ∀ s ∈ ss, SlotFree s.toList := by
  constructor
  · intro h s hs
    exact slotFree_stringLiteral_iff.1 (h.of_infix (infix_intercalate (List.mem_map_of_mem hs)))
  · intro h
    exact (SlotFree.intercalate (List.forall_mem_map.2 fun s hs => slotFree_stringLiteral (h s hs))).1

theorem slotFree_pathText_iff (f : Family) (p : Path) :
    SlotFree (f.pathText p).toList ↔ ∀ k ∈ p.keys, SlotFree k.toList := by
  have hbrace : SlotFree (bracePath p).toList ↔ ∀ k ∈ p.keys, SlotFree k.toList := by
    refine ⟨fun h k hk => h.of_infix ?_, slotFree_bracePath⟩
    have hsegment : k ∈ p.segments.map Segment.text :=
      List.mem_map.2 ⟨.key k, Path.mem_keys.1 hk, rfl⟩
    rw [bracePath, String.toList_append, String.toList_append]
    exact (infix_intercalate hsegment).trans (List.infix_append _ _ _)
  have hdollar : SlotFree (dollarPath p).toList ↔ ∀ k ∈ p.keys, SlotFree k.toList := by
    refine ⟨fun h k hk => h.of_infix ?_, slotFree_dollarPath⟩
    have hsegment : "." ++ k ∈ p.segments.map Segment.dollarText :=
      List.mem_map.2 ⟨.key k, Path.mem_keys.1 hk, rfl⟩
    have hstep := infix_join hsegment
    rw [String.toList_append] at hstep
    rw [dollarPath_eq_join, String.toList_append]
    exact (List.suffix_append _ _).isInfix.trans
      (hstep.trans (List.suffix_append _ _).isInfix)
  cases f with
  | postgresql => exact hbrace
  | ansi | mysql | sqlite => exact hdollar

theorem slotFree_keyText_iff (f : Family) (k : Phrase) :
    SlotFree (f.keyText k).toList ↔ SlotFree k.alone.toList := by
  have hpath : SlotFree ("$." ++ k.within).toList ↔ SlotFree k.alone.toList := by
    rw [String.toList_append]
    constructor
    · intro h
      cases k with
      | text s => exact h.of_infix (List.suffix_append _ _).isInfix
      | operator op => cases op <;> decide
    · intro h
      have hfront := (slotFree_within h).between (a := "$.".toList) (b := []) (by decide) (by decide)
      rwa [List.append_nil] at hfront
  cases f with
  | postgresql => exact Iff.rfl
  | ansi | mysql | sqlite => exact hpath

theorem slotFree_literalTexts_iff (f : Family) (op : Operation) :
    (∀ s ∈ f.literalTexts op, SlotFree s.toList) ↔ ∀ k ∈ op.keys, SlotFree k.toList := by
  cases op with
  | setPath p create | removePath p =>
    rw [Family.literalTexts, List.forall_mem_singleton]
    exact slotFree_pathText_iff f p
  | removeKey k =>
    rw [Family.literalTexts, List.forall_mem_singleton, Operation.keys, List.forall_mem_singleton]
    exact slotFree_keyText_iff f k
  | removeKeys ks =>
    rw [Family.literalTexts, List.forall_mem_map, Operation.keys, List.forall_mem_map]
    exact forall₂_congr fun k _ => slotFree_keyText_iff f k
  | merge | arrayAppend | arrayPrepend | stripNulls => exact Iff.rfl

theorem mark_not_mem_before (h : f.frame? t op = some fr) : '\x00' ∉ fr.before.toList := by
  obtain ⟨l, hl, rfl⟩ := layout_of_frame? h
  exact (mark_not_mem_layout hl).1

theorem slotFree_after_iff (h : f.frame? t op = some fr) :
    SlotFree fr.after.toList ↔ ∀ k ∈ op.keys, SlotFree k.toList := by
  obtain ⟨l, hl, rfl⟩ := layout_of_frame? h
  obtain ⟨-, hopening, hclosing⟩ := mark_not_mem_layout hl
  rw [← slotFree_literalTexts_iff f, ← slotFree_literals_iff]
  refine ⟨fun hafter => hafter.of_infix ?_, fun hliterals => hliterals.around hopening hclosing⟩
  rw [Layout.frame, String.toList_append, String.toList_append]
  exact List.infix_append _ _ _

theorem exists_not_mem_slot (h : f.frame? t op = some fr) :
    ∃ c ∈ fr.before.toList ++ fr.after.toList, c ∉ slot.toList := by
  obtain ⟨l, hl, rfl⟩ := layout_of_frame? h
  -- As a test of a list: a statement about a character would be decided over all of them.
  have hany := forall_layout
    (P := fun _ _ l => (l.before.toList ++ l.opening.toList).any (· ∉ slot.toList) = true)
    (by decide) hl
  obtain ⟨c, hc, hslot⟩ := List.any_eq_true.1 hany
  refine ⟨c, ?_, of_decide_eq_true hslot⟩
  rw [Layout.frame, String.toList_append, String.toList_append]
  rcases List.mem_append.1 hc with hc | hc
  · exact List.mem_append_left _ hc
  · exact List.mem_append_right _ (List.mem_append_left _ (List.mem_append_left _ hc))

theorem marks_pathText (f : Family) {p : Path} (h : ∀ k ∈ p.keys, marks k = 0) :
    marks (f.pathText p) = 0 := by
  cases f with
  | postgresql => exact marks_bracePath h
  | ansi | mysql | sqlite => exact marks_dollarPath h

theorem marks_keyText (f : Family) {k : Phrase} (h : marks k.alone = 0) : marks (f.keyText k) = 0 := by
  have hpath : marks ("$." ++ k.within) = 0 := by
    rw [marks_append, k.marks_within, h]
    decide
  cases f with
  | postgresql => exact h
  | ansi | mysql | sqlite => exact hpath

theorem marks_literalTexts (f : Family) (h : ∀ k ∈ op.keys, marks k = 0) :
    ∀ s ∈ f.literalTexts op, marks s = 0 := by
  cases op with
  | setPath p create | removePath p => exact List.forall_mem_singleton.2 (marks_pathText f h)
  | removeKey k => exact List.forall_mem_singleton.2 (marks_keyText f (h _ List.mem_cons_self))
  | removeKeys ks =>
    exact List.forall_mem_map.2 fun k hk => marks_keyText f (h _ (List.mem_map_of_mem hk))
  | merge | arrayAppend | arrayPrepend | stripNulls => exact List.forall_mem_nil _

theorem marks_literals {ss : List String} (h : ∀ s ∈ ss, marks s = 0) : marks (literals ss) = 0 :=
  marks_intercalate_eq_zero (by decide)
    (List.forall_mem_map.2 fun s hs => (marks_stringLiteral s).trans (h s hs))

theorem Operation.valueCount_bare (op : Operation) : op.bare.valueCount = op.valueCount := by
  cases op <;> rfl

theorem marks_layout (h : f.layout? t op = some l) :
    marks l.before + (marks l.opening + marks l.closing) = op.valueCount := by
  rw [← op.valueCount_bare]
  exact forall_layout
    (P := fun _ op l => marks l.before + (marks l.opening + marks l.closing) = op.valueCount)
    (by decide) h

def Plain (s : String) : Prop := marks s = 0 ∧ SlotFree s.toList

def Operation.Plain (op : Operation) : Prop := ∀ k ∈ op.keys, Json.Plain k

structure Frame.Sound (fr : Frame) (n : Nat) : Prop where
  before : '\x00' ∉ fr.before.toList
  after : SlotFree fr.after.toList
  marks_eq : marks fr.before + marks fr.after = n

theorem sound_of_frame? (h : f.frame? t op = some fr) (hop : op.Plain) : fr.Sound op.valueCount where
  before := mark_not_mem_before h
  after := (slotFree_after_iff h).2 fun k hk => (hop k hk).2
  marks_eq := by
    obtain ⟨l, hl, rfl⟩ := layout_of_frame? h
    have hliterals := marks_literals (marks_literalTexts f fun k hk => (hop k hk).1)
    have hafter : marks (l.frame (f.literalTexts op)).after = marks l.opening + marks l.closing := by
      rw [Layout.frame, marks_append, marks_append, hliterals, Nat.add_zero]
    rw [hafter]
    exact marks_layout hl

end Json
end SqlComposer
