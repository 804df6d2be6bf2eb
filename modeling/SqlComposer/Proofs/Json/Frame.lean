import SqlComposer.Proofs.Json.Slot
import SqlComposer.Json.Revision

/-! Frames: what an operation writes before and after the expression that it wraps. The frame does not
depend on that expression, so a template is the frame around a slot, and as long as no key of a
caller holds a slot, making changes one after the other puts each frame around all that was written
before it. -/

namespace SqlComposer

namespace Json

structure Frame where
  before : String
  after : String

def Frame.around (fr : Frame) (inner : String) : String := fr.before ++ inner ++ fr.after

def Path.keys (p : Path) : List String :=
  p.segments.filterMap fun
    | .key k => some k
    | .index _ => none

def Operation.keys : Operation → List String
  | setPath p _ | removePath p => p.keys
  | removeKey k => [k.alone]
  | removeKeys ks => ks.map Phrase.alone
  | merge | arrayAppend | arrayPrepend | stripNulls => []

def Operation.valueCount : Operation → Nat
  | merge | setPath .. | arrayAppend | arrayPrepend => 1
  | removeKey _ | removeKeys _ | removePath _ | stripNulls => 0

end Json

namespace Family
open Json

def binaryFrame : Operation → Frame
  | .merge => ⟨"", " || ?::jsonb"⟩
  | .setPath p create =>
    ⟨"jsonb_set(", ", " ++ stringLiteral (bracePath p) ++ (", ?::jsonb, "
      ++ (if create then "true" else "false") ++ ")")⟩
  | .removeKey k => ⟨"", " - " ++ stringLiteral k.alone ++ ""⟩
  | .removeKeys ks =>
    ⟨"", " - ARRAY[" ++ ", ".intercalate (ks.map fun k => stringLiteral k.alone) ++ "]"⟩
  | .removePath p => ⟨"", " #- " ++ stringLiteral (bracePath p) ++ ""⟩
  | .arrayAppend => ⟨"", " || ?::jsonb"⟩
  | .arrayPrepend => ⟨"?::jsonb || ", ""⟩
  | .stripNulls => ⟨"jsonb_strip_nulls(", ")"⟩

def mysqlFrame? : Operation → Option Frame
  | .merge => some ⟨"JSON_MERGE_PATCH(", ", ?)"⟩
  | .setPath p create =>
    some ⟨if create then "JSON_SET(" else "JSON_REPLACE(",
      ", " ++ stringLiteral (dollarPath p) ++ ", ?)"⟩
  | .removeKey k => some ⟨"JSON_REMOVE(", ", " ++ keyPath k ++ ")"⟩
  | .removeKeys ks => some ⟨"JSON_REMOVE(", ", " ++ ", ".intercalate (ks.map keyPath) ++ ")"⟩
  | .removePath p => some ⟨"JSON_REMOVE(", ", " ++ stringLiteral (dollarPath p) ++ ")"⟩
  | .arrayAppend => some ⟨"JSON_ARRAY_APPEND(", ", '$', ?)"⟩
  | .arrayPrepend => some ⟨"JSON_ARRAY_INSERT(", ", '$[0]', ?)"⟩
  | .stripNulls => none

def sqliteFrame? : Operation → Option Frame
  | .merge => some ⟨"json_patch(", ", ?)"⟩
  | .setPath p create =>
    some ⟨if create then "json_set(" else "json_replace(",
      ", " ++ stringLiteral (dollarPath p) ++ ", ?)"⟩
  | .removeKey k => some ⟨"json_remove(", ", " ++ keyPath k ++ ")"⟩
  | .removeKeys ks => some ⟨"json_remove(", ", " ++ ", ".intercalate (ks.map keyPath) ++ ")"⟩
  | .removePath p => some ⟨"json_remove(", ", " ++ stringLiteral (dollarPath p) ++ ")"⟩
  | .arrayAppend => some ⟨"json_insert(", ", '$[#]', ?)"⟩
  | .arrayPrepend | .stripNulls => none

def textualFrame? : Operation → Option Frame
  | .stripNulls => some ⟨"json_strip_nulls(", ")"⟩
  | _ => none

def frame? (f : Family) (t : Storage) (op : Operation) : Option Frame :=
  match f, t with
  | ansi, _ => none
  | mysql, _ => mysqlFrame? op
  | postgresql, .json => textualFrame? op
  | postgresql, .jsonb => some (binaryFrame op)
  | sqlite, _ => sqliteFrame? op

theorem binaryOperation_eq_around (inner : String) (op : Operation) :
    binaryOperation inner op = (binaryFrame op).around inner := by
  unfold binaryOperation Frame.around
  cases op <;> simp only [binaryFrame, String.empty_append, String.append_empty, String.append_assoc]

theorem mysqlOperation?_eq_around (inner : String) (op : Operation) :
    mysqlOperation? inner op = (mysqlFrame? op).map (·.around inner) := by
  unfold mysqlOperation? Frame.around
  cases op <;> simp only [mysqlFrame?, Option.map_some, Option.map_none, String.append_assoc]

theorem sqliteOperation?_eq_around (inner : String) (op : Operation) :
    sqliteOperation? inner op = (sqliteFrame? op).map (·.around inner) := by
  unfold sqliteOperation? Frame.around
  cases op <;> simp only [sqliteFrame?, Option.map_some, Option.map_none, String.append_assoc]

theorem textualOperation?_eq_around (inner : String) (op : Operation) :
    textualOperation? inner op = (textualFrame? op).map (·.around inner) := by
  cases op <;> rfl

theorem operation?_eq_around (f : Family) (t : Storage) (inner : String) (op : Operation) :
    f.operation? t inner op = (f.frame? t op).map (·.around inner) := by
  cases f with
  | ansi => rfl
  | mysql => exact mysqlOperation?_eq_around inner op
  | sqlite => exact sqliteOperation?_eq_around inner op
  | postgresql =>
    cases t with
    | json => exact textualOperation?_eq_around inner op
    | jsonb => exact congrArg some (binaryOperation_eq_around inner op)

theorem jsonExpression_eq_ok {f : Family} {t : Storage} {inner text : String} {op : Operation} :
    f.jsonExpression t inner op = .ok text ↔
      op.isWritable ∧ ∃ fr, f.frame? t op = some fr ∧ fr.around inner = text := by
  rw [jsonExpression, operation?_eq_around]
  cases f.frame? t op <;> cases op.isWritable <;> simp

end Family

namespace Json

theorem Path.mem_keys {p : Path} {k : String} : k ∈ p.keys ↔ .key k ∈ p.segments := by
  simp only [keys, List.mem_filterMap]
  constructor
  · rintro ⟨s, hs, h⟩
    cases s with
    | key n => cases h; exact hs
    | index i => cases h
  · exact fun h => ⟨_, h, rfl⟩

theorem slotFree_within {p : Phrase} (h : SlotFree p.alone.toList) : SlotFree p.within.toList := by
  cases p with
  | text s => exact h
  | operator op => cases op <;> decide

theorem slotFree_bracePath {p : Path} (h : ∀ k ∈ p.keys, SlotFree k.toList) :
    SlotFree (bracePath p).toList := by
  have hsegments : ∀ s ∈ p.segments.map Segment.text, SlotFree s.toList := by
    intro s hs
    obtain ⟨x, hx, rfl⟩ := List.mem_map.1 hs
    cases x with
    | key k => exact h k (Path.mem_keys.2 hx)
    | index i => exact slotFree_nat i
  have hjoined := (SlotFree.intercalate hsegments).2
  have hclosed := hjoined.join (b := []) (by decide) (c := '}') (by decide)
  simpa [bracePath] using hclosed.cons (c := '{') (by decide)

def Segment.dollarText : Segment → String
  | index i => "[" ++ toString i ++ "]"
  | key k => "." ++ k

theorem dollarPath_eq_join (p : Path) :
    dollarPath p = "$" ++ String.join (p.segments.map Segment.dollarText) := by
  unfold dollarPath
  congr 3

/-- The native text of a path: its segments between braces with commas, or all of them behind the root, a key
with a dot and an index in brackets. -/
def Path.native (f : Family) (p : Path) : List Char :=
  match f with
  | .postgresql => '{' :: ([','].intercalate (p.segments.map fun s => s.text.toList) ++ ['}'])
  | _ => '$' :: p.segments.flatMap fun
    | .key k => '.' :: k.toList
    | .index i => '[' :: ((toString i).toList ++ [']'])

theorem toList_pathText_eq_native (f : Family) (p : Path) : (f.pathText p).toList = p.native f := by
  have hrooted : (dollarPath p).toList = p.native .sqlite := by
    rw [dollarPath_eq_join, String.toList_append, String.toList_join, List.flatMap_map]
    refine congrArg ('$' :: ·) (List.flatMap_congr fun s _ => ?_)
    cases s <;> simp [Segment.dollarText]
  cases f with
  | postgresql =>
    rw [Family.pathText, bracePath, String.toList_append, String.toList_append,
      String.toList_intercalate, List.map_map]
    rfl
  | ansi | mysql | sqlite => exact hrooted

/-- Behind a name comes the end or a character that no slot has. -/
theorem slotFree_dollarTexts {segments : List Segment}
    (h : ∀ k, .key k ∈ segments → SlotFree k.toList) :
    SlotFree (String.join (segments.map Segment.dollarText)).toList ∧
      ∀ c ∈ (String.join (segments.map Segment.dollarText)).toList.head?, c ∉ slot.toList := by
  induction segments with
  | nil => exact ⟨by decide, by simp⟩
  | cons x xs ih =>
    obtain ⟨hfree, hhead⟩ := ih fun k hk => h k (List.mem_cons_of_mem _ hk)
    rw [List.map_cons, String.join_cons, String.toList_append]
    cases x with
    | index i =>
      have hclosed := (slotFree_nat i).join hfree (c := ']') (by decide)
      exact ⟨by simpa [Segment.dollarText] using hclosed.cons (c := '[') (by decide),
        by simp [Segment.dollarText]; decide⟩
    | key k =>
      have hk := h k List.mem_cons_self
      have hname : SlotFree (k.toList ++ (String.join (xs.map Segment.dollarText)).toList) := by
        -- What follows the name begins with a dot or a bracket, which no slot has.
        cases hcs : (String.join (xs.map Segment.dollarText)).toList with
        | nil => rwa [List.append_nil]
        | cons c rest =>
          rw [hcs] at hfree hhead
          exact hk.join hfree.tail (hhead c rfl)
      exact ⟨by simpa [Segment.dollarText] using hname.cons (c := '.') (by decide),
        by simp [Segment.dollarText]; decide⟩

theorem slotFree_dollarPath {p : Path} (h : ∀ k ∈ p.keys, SlotFree k.toList) :
    SlotFree (dollarPath p).toList := by
  have hsteps := (slotFree_dollarTexts fun k hk => h k (Path.mem_keys.2 hk)).1
  rw [dollarPath_eq_join, String.toList_append]
  exact hsteps.cons (c := '$') (by decide)

theorem marks_bracePath {p : Path} (h : ∀ k ∈ p.keys, marks k = 0) : marks (bracePath p) = 0 := by
  have hsegments : marks (",".intercalate (p.segments.map Segment.text)) = 0 := by
    apply marks_intercalate_eq_zero (by decide)
    intro s hs
    obtain ⟨x, hx, rfl⟩ := List.mem_map.1 hs
    cases x with
    | key k => exact h k (Path.mem_keys.2 hx)
    | index i => exact marks_nat i
  rw [bracePath, marks_append, marks_append, hsegments]
  decide

theorem marks_dollarPath {p : Path} (h : ∀ k ∈ p.keys, marks k = 0) : marks (dollarPath p) = 0 := by
  have hsteps (segments : List Segment) (hs : ∀ k, .key k ∈ segments → marks k = 0) :
      marks (String.join (segments.map Segment.dollarText)) = 0 := by
    induction segments with
    | nil => rfl
    | cons x xs ih =>
      rw [List.map_cons, String.join_cons, marks_append,
        ih fun k hk => hs k (List.mem_cons_of_mem _ hk)]
      cases x with
      | key k =>
        rw [Segment.dollarText, marks_append, hs k List.mem_cons_self]
        decide
      | index i =>
        rw [Segment.dollarText, marks_append, marks_append, marks_nat]
        decide
  rw [dollarPath_eq_join, marks_append, hsteps p.segments fun k hk => h k (Path.mem_keys.2 hk)]
  decide

end Json
end SqlComposer
