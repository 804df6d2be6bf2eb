import SqlComposer.Proofs.Json.Layout

/-! Literals of JSON operations. The fixed texts of an operation that writes paths or keys hold no quotes,
so its text is read as those texts around the column, with one literal for every path or key, if each of
them is sealed; and a text that is not sealed is never read as a literal of its own. -/

namespace SqlComposer

namespace SqlPiece

def codes (s : String) : List SqlPiece := s.toList.map code

def literals : List String → List SqlPiece
  | [] => []
  | [s] => [literal (doubled s.toList)]
  | s :: ss => literal (doubled s.toList) :: (codes ", " ++ literals ss)

theorem literals_cons_cons (s s' : String) (ss : List String) :
    literals (s :: s' :: ss) = literal (doubled s.toList) :: (codes ", " ++ literals (s' :: ss)) := rfl

theorem contents_append (ps qs : List SqlPiece) :
    contents (ps ++ qs) = contents ps ++ contents qs := List.filterMap_append

theorem contents_codes (s : String) : contents (codes s) = [] := by
  rw [contents, codes, List.filterMap_map]
  exact List.filterMap_eq_nil_iff.2 fun _ _ => rfl

theorem contents_literal (s : String) (ps : List SqlPiece) :
    contents (literal (doubled s.toList) :: ps) = s :: contents ps := by
  have hhead : contents (literal (doubled s.toList) :: ps) =
      String.ofList (unquoted (doubled s.toList)) :: contents ps := rfl
  rw [hhead, unquoted_doubled, String.ofList_toList]

theorem contents_literals (ss : List String) : contents (literals ss) = ss := by
  induction ss with
  | nil => rfl
  | cons s ss ih =>
    cases ss with
    | nil => exact contents_literal s []
    | cons s' ss =>
      rw [literals_cons_cons, contents_literal, contents_append, contents_codes, ih, List.nil_append]

theorem literal_mem_literals {s : String} {ss : List String} (h : s ∈ ss) :
    literal (doubled s.toList) ∈ literals ss := by
  induction ss with
  | nil => exact absurd h List.not_mem_nil
  | cons x xs ih =>
    cases xs with
    | nil =>
      obtain rfl := List.mem_singleton.1 h
      exact List.mem_singleton.2 rfl
    | cons y ys =>
      rw [literals_cons_cons]
      rcases List.mem_cons.1 h with rfl | h
      · exact List.mem_cons_self
      · exact List.mem_cons_of_mem _ (List.mem_append_right _ (ih h))

variable {b : Backslash} {rest : List Char}

theorem lex_literals {ss : List String} (h : ∀ s ∈ ss, isSealed b false s.toList = true)
    (hrest : rest.head? ≠ some '\'') :
    lex b .outside ((Json.literals ss).toList ++ rest) =
      (lex b .outside rest).map (literals ss ++ ·) := by
  induction ss with
  | nil => simp [Json.literals, literals]
  | cons s ss ih =>
    obtain ⟨hs, hss⟩ := List.forall_mem_cons.1 h
    cases ss with
    | nil =>
      have hone : Json.literals [s] = stringLiteral s := by simp [Json.literals]
      rw [hone, lex_stringLiteral hs hrest]
      rfl
    | cons s' ss =>
      have hlist : (Json.literals (s :: s' :: ss)).toList ++ rest =
          (stringLiteral s).toList ++ (", ".toList ++ ((Json.literals (s' :: ss)).toList ++ rest)) := by
        rw [Json.literals, List.map_cons, List.map_cons, String.intercalate_cons_cons,
          String.toList_append, String.toList_append, List.append_assoc, List.append_assoc]
        rfl
      have hcomma : '\'' ∉ ", ".toList := by decide
      have hnext (cs : List Char) : (", ".toList ++ cs).head? ≠ some '\'' := by
        intro hhead
        have hsome : some ',' = some '\'' := hhead
        exact absurd (Option.some.inj hsome) (by decide)
      rw [hlist, lex_stringLiteral hs (hnext _), lex_code hcomma, ih hss, Option.map_map,
        Option.map_map, literals_cons_cons]
      simp only [Function.comp_def, codes, List.cons_append, List.append_assoc]

end SqlPiece

namespace Json
open SqlPiece

/-- The fixed texts around the column, with the texts in literals. -/
def Layout.pieces (l : Layout) (column : String) (texts : List String) : List SqlPiece :=
  codes l.before ++ codes column ++ codes l.opening ++ SqlPiece.literals texts ++ codes l.closing

structure Layout.Unquoted (l : Layout) : Prop where
  before : '\'' ∉ l.before.toList
  opening : '\'' ∉ l.opening.toList
  closing : '\'' ∉ l.closing.toList

instance (l : Layout) : Decidable l.Unquoted :=
  decidable_of_iff ('\'' ∉ l.before.toList ∧ '\'' ∉ l.opening.toList ∧ '\'' ∉ l.closing.toList)
    ⟨fun ⟨hb, ho, hc⟩ => ⟨hb, ho, hc⟩, fun h => ⟨h.before, h.opening, h.closing⟩⟩

theorem Layout.contents_pieces (l : Layout) (column : String) (texts : List String) :
    contents (l.pieces column texts) = texts := by
  simp only [Layout.pieces, contents_append, contents_codes, contents_literals, List.nil_append,
    List.append_nil]

/-- The text is read as its layout exactly if all of its texts are sealed. -/
theorem Layout.read_eq_pieces_iff {l : Layout} (hl : l.Unquoted) {column : String}
    (hcolumn : '\'' ∉ column.toList) (b : Backslash) (texts : List String) :
    SqlPiece.read b ((l.frame texts).around column) = some (l.pieces column texts) ↔
      ∀ s ∈ texts, isSealed b false s.toList = true := by
  constructor
  · intro h s hs
    have hmem : literal (doubled s.toList) ∈ l.pieces column texts :=
      List.mem_append_left _ (List.mem_append_right _ (literal_mem_literals hs))
    exact (isBody_doubled_iff s.toList).1 (isBody_of_mem_lex reached_outside h hmem)
  · intro h
    have hfront : '\'' ∉ l.before.toList ++ column.toList ++ l.opening.toList := by
      simp only [List.mem_append, not_or]
      exact ⟨⟨hl.before, hcolumn⟩, hl.opening⟩
    have hback : l.closing.toList.head? ≠ some '\'' :=
      fun hhead => hl.closing (List.mem_of_head? hhead)
    have hclosing : lex b .outside l.closing.toList = some (codes l.closing) := by
      have hcode := lex_code (b := b) hl.closing []
      rw [List.append_nil] at hcode
      rw [hcode]
      exact congrArg some (List.append_nil _)
    have htext : ((l.frame texts).around column).toList =
        (l.before.toList ++ column.toList ++ l.opening.toList)
          ++ ((Json.literals texts).toList ++ l.closing.toList) := by
      simp only [Frame.around, Layout.frame, String.toList_append, List.append_assoc]
    rw [SqlPiece.read, htext, lex_code hfront, lex_literals h hback, hclosing]
    simp [Layout.pieces, codes]

def Operation.writesNames : Operation → Bool
  | setPath .. | removeKey _ | removeKeys _ | removePath _ => true
  | merge | arrayAppend | arrayPrepend | stripNulls => false

variable {f : Family} {t : Storage} {op : Operation} {l : Layout}

theorem Operation.writesNames_bare (op : Operation) : op.bare.writesNames = op.writesNames := by
  cases op <;> rfl

theorem unquoted_layout (h : f.layout? t op = some l) (hop : op.writesNames = true) : l.Unquoted := by
  have hlayout := forall_layout (P := fun _ op l => op.writesNames = true → l.Unquoted) (by decide) h
  rw [op.writesNames_bare] at hlayout
  exact hlayout hop

theorem jsonExpression_of_layout (h : f.layout? t op = some l) (column : String) :
    f.jsonExpression t column op =
      if op.isWritable then .ok ((l.frame (f.literalTexts op)).around column)
      else .error .longInteger := by
  rw [Family.jsonExpression, Family.operation?_eq_around, Family.frame?_eq_layout, h]
  rfl

theorem exists_layout (hf : f = .mysql ∨ f = .sqlite ∨ (f = .postgresql ∧ t = .jsonb))
    (hop : op.writesNames = true) : ∃ l, f.layout? t op = some l := by
  have hcalls : ∀ op ∈ bareOperations, op.writesNames = true →
      (Family.mysqlLayout? op).isSome = true ∧ (Family.sqliteLayout? op).isSome = true := by
    decide
  rw [← op.writesNames_bare] at hop
  obtain ⟨hmysql, hsqlite⟩ := hcalls op.bare op.bare_mem hop
  rw [← layout?_bare]
  rcases hf with rfl | rfl | ⟨rfl, rfl⟩
  · exact Option.isSome_iff_exists.1 hmysql
  · exact Option.isSome_iff_exists.1 hsqlite
  · exact ⟨_, rfl⟩

theorem layout_of_jsonExpression {column text : String} (h : f.jsonExpression t column op = .ok text) :
    ∃ l, f.layout? t op = some l ∧ text = (l.frame (f.literalTexts op)).around column := by
  cases hl : f.layout? t op with
  | none =>
    rw [Family.jsonExpression, Family.operation?_eq_around, Family.frame?_eq_layout, hl] at h
    cases h
  | some l =>
    rw [jsonExpression_of_layout hl] at h
    split at h
    · exact ⟨l, rfl, (Except.ok.inj h).symm⟩
    · cases h

/-- For every operation of MySQL that writes paths or keys: its text, if the indices in it can be written,
is read as the fixed texts around the column with one literal for each of them exactly if no backslash in
them takes a quote or has nothing left to take. -/
theorem mysql_read_eq_pieces_iff (t : Storage) {column : String} (hcolumn : '\'' ∉ column.toList)
    {op : Operation} (hop : op.writesNames = true) :
    ∃ text l, Family.mysql.jsonExpression t column op =
        (if op.isWritable then .ok text else .error .longInteger) ∧
      Family.mysql.layout? t op = some l ∧
      (SqlPiece.read .taking text = some (l.pieces column (Family.mysql.literalTexts op)) ↔
        ∀ s ∈ Family.mysql.literalTexts op, isSealed .taking false s.toList = true) := by
  obtain ⟨l, hl⟩ := exists_layout (t := t) (.inl rfl) hop
  exact ⟨_, l, jsonExpression_of_layout hl column, hl,
    Layout.read_eq_pieces_iff (unquoted_layout hl hop) hcolumn .taking _⟩

theorem mysql_quoted_keys_read_back :
    let op := Operation.removeKeys [.text "o'b", .text "a\\n"]
    '\'' ∉ "c".toList ∧ op.writesNames = true ∧
    ∃ text l, Family.mysql.jsonExpression .json "c" op = .ok text ∧
      Family.mysql.layout? .json op = some l ∧ text = "JSON_REMOVE(c, '$.o''b', '$.a\\n')" ∧
      SqlPiece.read .taking text = some (l.pieces "c" ["$.o'b", "$.a\\n"]) := by
  intro op
  have hcolumn : '\'' ∉ "c".toList := by decide
  have hop : op.writesNames = true := rfl
  obtain ⟨text, l, htext, hl, hread⟩ := mysql_read_eq_pieces_iff .json hcolumn hop
  have hsealed : ∀ s ∈ Family.mysql.literalTexts op, isSealed .taking false s.toList = true := by
    decide
  exact ⟨hcolumn, hop, text, l, htext, hl, (Except.ok.inj htext).symm, hread.2 hsealed⟩

/-- A backslash at the end of a key takes the quote that should end its literal. -/
theorem mysql_backslash_key_runs_on :
    Family.mysql.jsonExpression .json "c" (.removeKey (.text "a\\")) =
        .ok "JSON_REMOVE(c, '$.a\\')" ∧
      Family.mysql.layout? .json (.removeKey (.text "a\\")) =
        some ⟨"JSON_REMOVE(", ", ", ")"⟩ ∧
      SqlPiece.read .taking "JSON_REMOVE(c, '$.a\\')" = none := by
  exact ⟨by rfl, rfl, by decide⟩

def nativeKey (f : Family) (k : Phrase) : List Char :=
  match f with
  | .postgresql => k.alone.toList
  | _ => '$' :: '.' :: k.within.toList

def Operation.natives (f : Family) : Operation → List (List Char)
  | .setPath p _ | .removePath p => [p.native f]
  | .removeKey k => [nativeKey f k]
  | .removeKeys ks => ks.map (nativeKey f)
  | .merge | .arrayAppend | .arrayPrepend | .stripNulls => []

theorem toList_keyText (f : Family) (k : Phrase) : (f.keyText k).toList = nativeKey f k := by
  cases f with
  | postgresql => rfl
  | ansi | mysql | sqlite => exact String.toList_append

theorem toList_literalTexts (f : Family) (op : Operation) :
    (f.literalTexts op).map String.toList = op.natives f := by
  cases op with
  | setPath p create | removePath p => exact congrArg (fun cs => [cs]) (toList_pathText_eq_native f p)
  | removeKey k => exact congrArg (fun cs => [cs]) (toList_keyText f k)
  | removeKeys ks =>
    rw [Family.literalTexts, List.map_map]
    exact List.map_congr_left fun k _ => toList_keyText f k
  | merge | arrayAppend | arrayPrepend | stripNulls => rfl

/-- The text is read as the layout around the column, and its literals hold the texts. -/
structure Decodes (text : String) (l : Layout) (column : String) (texts : List String) : Prop where
  read : SqlPiece.read .ordinary text = some (l.pieces column texts)
  contents : SqlPiece.contents (l.pieces column texts) = texts

theorem decodes_around (hl : l.Unquoted) {column : String} (hcolumn : '\'' ∉ column.toList)
    (texts : List String) : Decodes ((l.frame texts).around column) l column texts where
  read := (Layout.read_eq_pieces_iff hl hcolumn .ordinary texts).2 fun s _ => isSealed_ordinary s.toList
  contents := l.contents_pieces column texts

theorem Decodes.texts_eq {text column column' : String} {l l' : Layout} {texts texts' : List String}
    (h : Decodes text l column texts) (h' : Decodes text l' column' texts') : texts = texts' := by
  have hpieces := Option.some.inj (h.read.symm.trans h'.read)
  rw [← h.contents, hpieces, h'.contents]

theorem decodes_jsonExpression {column text : String} (h : f.jsonExpression t column op = .ok text)
    (hcolumn : '\'' ∉ column.toList) (hop : op.writesNames = true) :
    ∃ l, f.layout? t op = some l ∧ Decodes text l column (f.literalTexts op) := by
  obtain ⟨l, hl, rfl⟩ := layout_of_jsonExpression h
  exact ⟨l, hl, decodes_around (unquoted_layout hl hop) hcolumn _⟩

def sequenceLayout : Layout := ⟨"nextval(", "", ")"⟩

theorem decodes_nextValue {d : Dialect} {name : Phrase} {text : String} (hd : d.family = .postgresql)
    (h : d.nextValue name = .ok text) : Decodes text sequenceLayout "" [name.alone] := by
  have htext : d.nextValue name = .ok ((sequenceLayout.frame [name.alone]).around "") := by
    rw [Dialect.nextValue, hd]
    simp [sequenceLayout, Layout.frame, Frame.around, literals, String.append_assoc]
  obtain rfl := Except.ok.inj (htext.symm.trans h)
  have hunquoted : sequenceLayout.Unquoted := ⟨by decide, by decide, by decide⟩
  exact decodes_around hunquoted (by decide) _

/-- For all paths, keys and names: what SQLite and PostgreSQL write is read as fixed texts with one literal
for every path, key or name, which holds exactly that; so the same text is written only for the same paths,
keys or names. Nothing is written for a path with an index that cannot be written. -/
theorem literals_decode :
    (∀ (f : Family) (t : Storage) (column : String) (op : Operation),
      f = .sqlite ∨ (f = .postgresql ∧ t = .jsonb) → '\'' ∉ column.toList → op.writesNames = true →
      ∃ text l, f.jsonExpression t column op =
          (if op.isWritable then .ok text else .error .longInteger) ∧ f.layout? t op = some l ∧
        Decodes text l column (f.literalTexts op) ∧
        (f.literalTexts op).map String.toList = op.natives f ∧
        ∀ t' column' op', '\'' ∉ column'.toList → op'.writesNames = true →
          f.jsonExpression t' column' op' = .ok text → f.literalTexts op' = f.literalTexts op) ∧
    ∀ (d : Dialect) (name : Phrase), d.family = .postgresql →
      ∃ text, d.nextValue name = .ok text ∧ Decodes text sequenceLayout "" [name.alone] ∧
        ∀ name' : Phrase, d.nextValue name' = .ok text → name'.alone = name.alone := by
  constructor
  · intro f t column op hf hcolumn hop
    obtain ⟨l, hl⟩ := exists_layout (.inr hf) hop
    have htext := jsonExpression_of_layout hl column
    have hdecodes := decodes_around (unquoted_layout hl hop) hcolumn (f.literalTexts op)
    refine ⟨_, l, htext, hl, hdecodes, toList_literalTexts f op, fun t' column' op' hcolumn' hop' h' => ?_⟩
    obtain ⟨l', -, hdecodes'⟩ := decodes_jsonExpression h' hcolumn' hop'
    exact hdecodes'.texts_eq hdecodes
  · intro d name hd
    have htext : ∃ text, d.nextValue name = .ok text := by
      rw [Dialect.nextValue, hd]
      exact ⟨_, rfl⟩
    obtain ⟨text, htext⟩ := htext
    have hdecodes := decodes_nextValue hd htext
    refine ⟨text, htext, hdecodes, fun name' h' => ?_⟩
    exact List.singleton_inj.1 ((decodes_nextValue hd h').texts_eq hdecodes)

theorem quoted_keys_and_name_decode :
    (∃ text l, Family.sqlite.jsonExpression .json "c" (.removeKeys [.text "'", .text "o'"]) =
        .ok text ∧
      text = "json_remove(c, '$.''', '$.o''')" ∧ Decodes text l "c" ["$.'", "$.o'"]) ∧
    ∃ text, Dialect.standard.nextValue (.text "'s") = .ok text ∧ text = "nextval('''s')" ∧
      Decodes text sequenceLayout "" ["'s"] := by
  obtain ⟨hjson, hsequence⟩ := literals_decode
  obtain ⟨text, l, htext, -, hdecodes, -⟩ := hjson .sqlite .json "c"
    (.removeKeys [.text "'", .text "o'"]) (.inl rfl) (by decide) rfl
  obtain ⟨text', htext', hdecodes', -⟩ := hsequence Dialect.standard (.text "'s") rfl
  exact ⟨⟨text, l, htext, (Except.ok.inj htext).symm, hdecodes⟩,
    text', htext', (Except.ok.inj htext').symm, hdecodes'⟩

end Json
end SqlComposer
