import SqlComposer.Proofs.History
import SqlComposer.Proofs.Independence
import SqlComposer.Proofs.Window.Accepted
import SqlComposer.Proofs.Window.Reading
import SqlComposer.Proofs.Window.Tail

/-! Windows of programs. Whatever a program does to a query, its text ends with the window of the last
limit and the last offset that were accepted, and every backend reads that window from the text that is
written for it. -/

namespace SqlComposer

def Edit.window? : Edit → Option WindowEdit
  | window e => some e
  | _ => none

theorem Window.eq_all_iff {w : Window} : w = .all ↔ w.limit = none ∧ w.offset = 0 := by
  cases w
  simp [all]

theorem Part.texts_windowClause (d : Dialect) {w : Window} (hw : w ≠ .all) :
    texts (w.clause d) = " " ++ d.family.window (w.limit.map Int.ofNat) w.offset := by
  have hclause : w.clause d ≠ [] := fun h => hw ((Window.clause_eq_nil_iff d w).1 h)
  unfold Window.clause at hclause ⊢
  split at hclause
  · exact absurd rfl hclause
  · exact String.append_empty

theorem Part.texts_windowClause_eq_empty_iff (d : Dialect) (w : Window) :
    texts (w.clause d) = "" ↔ w = .all := by
  constructor
  · intro h
    by_contra hw
    rw [texts_windowClause d hw, String.append_eq_empty_iff] at h
    exact absurd h.1 (by decide)
  · intro hw
    rw [(Window.clause_eq_nil_iff d w).2 hw]
    rfl

namespace WindowEdit

theorem setPage_accepted (w : Window) {first : Int} {page : Value} (hp : page.isWhole) (v : Value) :
    (setPage w first page v).state =
        ⟨(limitGiven? v).or w.limit, (offsetOfPage? first page v).getD w.offset⟩ ∧
      ((setPage w first page v).fault = none ↔ (limitGiven? v).isSome) := by
  obtain ⟨p, hp⟩ := Value.isWhole_iff.1 hp
  obtain ⟨fault, hset⟩ := setPage_eq w hp v
  rw [hset, offsetOfPage?, hp]
  cases limitGiven? v with
  | none => exact ⟨rfl, by simp⟩
  | some n => exact ⟨rfl, by simp⟩

theorem apply_accepted {e : WindowEdit} (hp : (Edit.window e).CountsWholePages) (w : Window) :
    (e.apply w).state = e.accepted w ∧ ((e.apply w).fault = none ↔ e.IsAccepted) := by
  cases e with
  | limit v =>
    rw [apply, setLimit_eq, accepted, limit?, offset?, IsAccepted]
    cases limitGiven? v <;> simp
  | offset v =>
    rw [apply, setOffset_eq, accepted, limit?, offset?, IsAccepted]
    cases offsetGiven? v <;> simp
  | limitOffset l v =>
    rw [apply, setBoth_eq, accepted, limit?, offset?, IsAccepted]
    cases limitGiven? l with
    | none => simp
    | some n =>
      dsimp only
      rw [setOffset_eq]
      cases offsetGiven? v <;> simp
  | page p v => exact setPage_accepted w hp v
  | pageFromZero p v => exact setPage_accepted w hp v

end WindowEdit

namespace Statement

/-- The window of a query is the one of the calls it has seen, and each call was answered by whether
it was accepted. -/
def FollowsCalls (calls : List Call) (st : Statement) : Prop :=
  ∀ q, st.body = .select q → (∀ c ∈ calls, c.edit.CountsWholePages) →
    q.window = WindowEdit.lastAccepted (calls.filterMap (·.edit.window?)) ∧
      ∀ c ∈ calls, ∀ e, c.edit = .window e → (c.fault = none ↔ e.IsAccepted)

theorem New.followsCalls {st : Statement} (h : st.New) : st.FollowsCalls [] := by
  intro q hq _
  refine ⟨?_, fun c hc => absurd hc List.not_mem_nil⟩
  cases h with
  | select d sources =>
    cases hq
    rfl
  | insert | update | delete => cases hq

theorem FollowsCalls.edit {calls : List Call} {st : Statement} (h : FollowsCalls calls st) (e : Edit) :
    FollowsCalls (calls ++ [Store.callOf st e]) (st.edit e).state := by
  intro q' hq' hpages
  rw [List.forall_mem_append, List.forall_mem_singleton] at hpages ⊢
  obtain ⟨hpages, hp⟩ := hpages
  cases e with
  | window e =>
    obtain ⟨q, hq, -⟩ := select_of_edit (k := .columns) (by rintro ⟨⟩) hq'
    obtain ⟨hwindow, hfaults⟩ := h q hq hpages
    have hstep := edit_window hq e
    obtain ⟨hstate, haccepted⟩ := WindowEdit.apply_accepted hp q.window
    rw [hstep] at hq'
    cases hq'
    refine ⟨?_, hfaults, ?_⟩
    · have hcalls : (calls ++ [Store.callOf st (.window e)]).filterMap (·.edit.window?) =
          calls.filterMap (·.edit.window?) ++ [e] := List.filterMap_append
      rw [hcalls, WindowEdit.lastAccepted_concat, ← hwindow]
      exact hstate
    · rintro e' ⟨⟩
      rw [← haccepted, Store.callOf, hstep]
      exact Option.map_eq_none_iff
  | _ =>
    obtain ⟨q, hq, hsame⟩ := select_of_edit (k := .window) (by rintro ⟨⟩) hq'
    have hsame : q'.window = q.window := hsame
    obtain ⟨hwindow, hfaults⟩ := h q hq hpages
    refine ⟨?_, hfaults, nofun⟩
    rw [hsame, hwindow, List.filterMap_append]
    exact congrArg _ (List.append_nil _).symm

end Statement

namespace Store
variable {cs : List Command} {id : StatementId} {st : Statement} {q : Query}

theorem run_followsCalls (hst : (run cs).get? id = some st) : st.FollowsCalls (empty.calls id cs) :=
  run_recorded (fun _ h => h.followsCalls) (fun _ _ e h => h.edit e) hst

/-- Whatever else is done to a query, its text ends with the window of the last limit and the last offset
that its calls have accepted. The window is left out if it keeps all rows, and else the backend that the
text is written for keeps the rows of that window. A query with a number that is too long to be written has
no text. -/
theorem run_window_read (hst : (run cs).get? id = some st) (hq : st.body = .select q)
    (hpages : ∀ c ∈ empty.calls id cs, c.edit.CountsWholePages) :
    let calls := empty.calls id cs
    let last := WindowEdit.lastAccepted (calls.filterMap (·.edit.window?))
    (∀ c ∈ calls, ∀ e, c.edit = .window e → (c.fault = none ↔ e.IsAccepted)) ∧
      ∃ tail,
        (∀ text, (run cs).sql id = .ok text ↔ ¬ last.IsLong ∧
          ∃ front, ((run cs).withWindow id .all).sql id = .ok front ∧ text = front ++ tail) ∧
        (last.IsLong → ∀ front, ((run cs).withWindow id .all).sql id = .ok front →
          (run cs).sql id = .error .longInteger) ∧
        (tail = "" ↔ last.limit = none ∧ last.offset = 0) ∧
        (tail ≠ "" → ∃ w, st.dialect.family.readWindow tail = some w ∧
          ∀ {α : Type} (rows : List α), rows.length < 2 ^ 64 → w.rows rows = last.rows rows) := by
  intro calls last
  obtain ⟨hwindow, hfaults⟩ := run_followsCalls hst q hq hpages
  have hwindow : q.window = last := hwindow
  refine ⟨hfaults, Part.texts (q.window.clause st.dialect), fun text => ?_, fun hlong front hfront => ?_, ?_, ?_⟩
  · rw [sql_eq_ok_iff hst hq, ← hwindow, Window.not_isLong_iff]
  · rw [← hwindow, ← Window.isWritable_eq_false_iff] at hlong
    rw [sql_of_front hst hq hfront, hlong, if_neg Bool.false_ne_true]
  · rw [Part.texts_windowClause_eq_empty_iff, hwindow]
    exact Window.eq_all_iff
  · intro htail
    have hall : q.window ≠ .all := fun h =>
      htail ((Part.texts_windowClause_eq_empty_iff st.dialect q.window).2 h)
    refine ⟨st.dialect.family.asked q.window, ?_, fun rows hrows => ?_⟩
    · rw [Part.texts_windowClause st.dialect hall, Family.readWindow_window hall]
    · rw [Family.rows_asked _ _ hrows, hwindow]

theorem offset_and_kept_limit_read :
    let cs : List Command := [
      .create (.select (some ⟨.mysql, "mysql", 8, .snake⟩) (.text "t") .null),
      .create (.select (some ⟨.ansi, "ansi", 0, .snake⟩) (.text "t") .null),
      .edit 0 (.window (.limitOffset (.int 0) (.int 9))),
      .edit 0 (.window (.page (.bool true) (.bool true))),
      .edit 0 (.window (.offset (.int 2))),
      .edit 1 (.window (.pageFromZero (.int 2) (.int 1))),
      .edit 1 (.window (.limitOffset (.int 7) (.int (-1))))]
    ((empty.calls 0 cs).map (·.fault.isSome) = [true, true, false] ∧
      ∃ tail w, (run cs).sql 0 = .ok ("SELECT * FROM t" ++ tail) ∧
        Family.mysql.readWindow tail = some w ∧
        ∀ rows : List Nat, rows.length < 2 ^ 64 → w.rows rows = rows.drop 2) ∧
    ((empty.calls 1 cs).map (·.fault.isSome) = [false, true] ∧
      ∃ tail w, (run cs).sql 1 = .ok ("SELECT * FROM t" ++ tail) ∧
        Family.ansi.readWindow tail = some w ∧
        ∀ rows : List Nat, rows.length < 2 ^ 64 → w.rows rows = (rows.drop 2).take 7) := by
  intro cs
  have hfirst : (run cs).get? 0 = some ⟨⟨.mysql, "mysql", 8, .snake⟩, [],
      .select { Query.empty with sources := [.table "t" none], window := ⟨none, 2⟩ }⟩ := rfl
  have hsecond : (run cs).get? 1 = some ⟨⟨.ansi, "ansi", 0, .snake⟩, [],
      .select { Query.empty with sources := [.table "t" none], window := ⟨some 7, 2⟩ }⟩ := rfl
  have hpages : (empty.calls 0 cs).Forall (·.edit.CountsWholePages) ∧
      (empty.calls 1 cs).Forall (·.edit.CountsWholePages) :=
    ⟨⟨trivial, rfl, trivial⟩, rfl, trivial⟩
  obtain ⟨-, tail, hsql, -, hempty, hread⟩ :=
    run_window_read hfirst rfl (List.forall_iff_forall_mem.1 hpages.1)
  obtain ⟨-, tail', hsql', -, hempty', hread'⟩ :=
    run_window_read hsecond rfl (List.forall_iff_forall_mem.1 hpages.2)
  obtain ⟨w, hw, hrows⟩ := hread fun h => absurd (hempty.1 h).2 (by decide)
  obtain ⟨w', hw', hrows'⟩ := hread' fun h => absurd (hempty'.1 h).2 (by decide)
  exact ⟨⟨by decide, tail, w, (hsql _).2 ⟨Window.not_isLong_iff.2 (by decide), _, rfl, rfl⟩, hw,
      fun rows => hrows rows⟩,
    by decide, tail', w', (hsql' _).2 ⟨Window.not_isLong_iff.2 (by decide), _, rfl, rfl⟩, hw',
      fun rows => hrows' rows⟩

/-- A page is accepted, and the query has no text: so many rows stand before the page that their number is
not written. -/
theorem accepted_page_without_text :
    let cs : List Command := [.create (.select none (.text "t") .null),
      .edit 0 (.window (.pageFromZero (.int Text.Numeral.wide) (.int Text.Numeral.wide)))]
    (∀ c ∈ empty.calls 0 cs, c.fault = none) ∧
      WindowEdit.lastAccepted ((empty.calls 0 cs).filterMap (·.edit.window?)) =
        ⟨some Text.Numeral.wide, Text.Numeral.wide * Text.Numeral.wide⟩ ∧
      ((run cs).withWindow 0 .all).sql 0 = .ok "SELECT * FROM t" ∧
      (run cs).sql 0 = .error .longInteger := by
  have hpos := Text.Numeral.wide_pos
  have hlong := Text.Numeral.isWritable_wide_mul_wide
  generalize Text.Numeral.wide = n at hpos hlong
  intro cs
  have hrun := run_page n n hpos
  have hst : (run cs).get? 0 = some ⟨.standard, [], .select { Query.empty with
      sources := [.table "t" none], window := ⟨some n, n * n⟩ }⟩ := by
    rw [hrun]
    rfl
  have hpages : ∀ c ∈ empty.calls 0 cs, c.edit.CountsWholePages := by
    intro c hc
    obtain rfl := List.mem_singleton.1 hc
    exact rfl
  obtain ⟨hfaults, tail, -, hsql, -⟩ := run_window_read hst rfl hpages
  obtain ⟨hlast, -⟩ := run_followsCalls hst _ rfl hpages
  have hfront : ((run cs).withWindow 0 .all).sql 0 = .ok "SELECT * FROM t" := by
    have hstore : (run cs).withWindow 0 .all = ⟨[⟨.standard, [], .select { Query.empty with
        sources := [.table "t" none] }⟩]⟩ := by
      rw [withWindow_eq hst rfl, hrun]
      rfl
    rw [hstore]
    rfl
  refine ⟨fun c hc => ?_, hlast.symm, hfront, hsql ?_ _ hfront⟩
  · have hlimit : WindowEdit.limitGiven? (.int n) = some n := by
      rw [WindowEdit.limitGiven?, if_pos (Int.natCast_pos.2 hpos), Int.toNat_natCast]
    obtain rfl := List.mem_singleton.1 hc
    exact (hfaults _ hc _ rfl).2 (by rw [WindowEdit.IsAccepted, hlimit, Option.isSome_some])
  · rw [← hlast, ← Window.isWritable_eq_false_iff, Window.isWritable, hlong, Bool.and_false]

end Store
end SqlComposer
