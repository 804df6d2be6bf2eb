import Mathlib.Data.List.Nodup
import SqlComposer.Proofs.Checked
import SqlComposer.Proofs.Window.Accepted
import SqlComposer.Proofs.Window.Reading
import SqlComposer.Proofs.Window.Tail

/-! Pages. The pages of one size follow each other without a gap and without a common row, whatever window
there was before. Only a size that is not positive is refused: the rows before a page are never counted
below zero. -/

namespace SqlComposer

namespace Window
variable {α : Type}

def page (size n : Nat) : Window := ⟨some size, n * size⟩

theorem rows_page (size n : Nat) (rows : List α) :
    (page size n).rows rows = (rows.drop (n * size)).take size := rfl

theorem flatMap_rows_page (size : Nat) (rows : List α) (k : Nat) :
    (List.range k).flatMap (fun n => (page size n).rows rows) = rows.take (k * size) := by
  induction k with
  | zero => simp
  | succ k ih =>
    rw [List.range_succ, List.flatMap_append, ih, List.flatMap_singleton, rows_page, Nat.succ_mul,
      List.take_add]

theorem disjoint_rows_page {size m n : Nat} {rows : List α} (hrows : rows.Nodup) (h : m ≠ n) :
    List.Disjoint ((page size m).rows rows) ((page size n).rows rows) := by
  -- The earlier page ends before the later one begins.
  have hbefore {m n : Nat} (hlt : m < n) :
      List.Disjoint ((page size m).rows rows) ((page size n).rows rows) := by
    have hend : (page size m).rows rows ⊆ rows.take (n * size) := by
      have htake : (page size m).rows rows ⊆ rows.take (m * size + size) := by
        rw [rows_page, List.take_add]
        exact List.subset_append_right _ _
      have hle : m * size + size ≤ n * size := by
        rw [← Nat.succ_mul]
        exact Nat.mul_le_mul_right size hlt
      exact fun x hx => (List.take_subset_take_left rows hle) (htake hx)
    have hstart : (page size n).rows rows ⊆ rows.drop (n * size) := List.take_subset _ _
    exact fun x hx hx' => List.disjoint_take_drop hrows (Nat.le_refl _) (hend hx) (hstart hx')
  rcases Nat.lt_or_gt_of_ne h with hlt | hgt
  · exact hbefore hlt
  · exact (hbefore hgt).symm

end Window

namespace Store
variable {s : Store} {id : StatementId} {st : Statement} {q : Query}

theorem edit_window_eq (hst : s.get? id = some st) (hq : st.body = .select q) (e : WindowEdit) :
    s.edit id (.window e) = (e.apply q.window).reported.map (s.withWindow id) := by
  rw [edit_eq_of_get? hst, Statement.edit_window hq]
  simp only [Step.map, Step.reported, withWindow_eq hst hq]

theorem edit_page_eq (hst : s.get? id = some st) (hq : st.body = .select q) {e : WindowEdit}
    {first p : Int} {page : Value} (hp : page.whole? = some p) (size : Int)
    (he : ∀ w, e.apply w = WindowEdit.setPage w first page (.int size)) :
    s.edit id (.window e) =
      if 0 < size then .made (s.withWindow id (.page size.toNat (p - first).toNat))
      else .refused s (Fault.limitRange (.int size)).reported := by
  rw [edit_window_eq hst hq, he, WindowEdit.setPage_int _ hp]
  by_cases hsize : 0 < size
  · rw [if_pos hsize, if_pos hsize]
    rfl
  · simp only [if_neg hsize, Step.reported, Step.map, Step.refused, withWindow_self hst hq]
    rfl

theorem fault_edit_page (hst : s.get? id = some st) (hq : st.body = .select q) {e : WindowEdit}
    {first p : Int} {page : Value} (hp : page.whole? = some p) (size : Int)
    (he : ∀ w, e.apply w = WindowEdit.setPage w first page (.int size)) :
    ((s.edit id (.window e)).fault = none ↔ 0 < size) ∧
      (¬ 0 < size → s.edit id (.window e) = .refused s (Fault.limitRange (.int size)).reported) := by
  rw [edit_page_eq hst hq hp size he]
  by_cases hsize : 0 < size
  · rw [if_pos hsize]
    exact ⟨⟨fun _ => hsize, fun _ => rfl⟩, fun h => absurd hsize h⟩
  · rw [if_neg hsize]
    exact ⟨⟨nofun, fun h => absurd h hsize⟩, fun _ => rfl⟩

/-- Pages of one size hold the rows from the first one on, each row once and in its order, and in the end
all of them. A call sets its page whatever window there was before; the two ways to count pages differ by
one, pages before the first are the first, and nothing is refused but a size that is not positive. -/
theorem pages_partition (size : Int) :
    (0 < size → ∀ {α : Type} (rows : List α),
      let pages (k : Nat) := (List.range k).flatMap fun n => (Window.page size.toNat n).rows rows
      (∀ k, pages k = rows.take (k * size.toNat)) ∧ (∀ k, rows.length ≤ k → pages k = rows) ∧
      (rows.Nodup → ∀ m n, m ≠ n → List.Disjoint ((Window.page size.toNat m).rows rows)
        ((Window.page size.toNat n).rows rows))) ∧
    ∀ (s : Store) (id : StatementId) (st : Statement) (q : Query), s.get? id = some st →
      st.body = .select q →
      let call (e : WindowEdit) := s.edit id (.window e)
      (0 < size → ∀ n : Nat, call (.page (.int (n + 1)) (.int size)) =
        .made (s.withWindow id (.page size.toNat n))) ∧
      (∀ p : Int,
        call (.page (.int p) (.int size)) = call (.pageFromZero (.int (p - 1)) (.int size)) ∧
        (p < 1 → call (.page (.int p) (.int size)) = call (.page (.int 1) (.int size)))) ∧
      ∀ page : Value, page.isWhole →
        ∀ e ∈ [WindowEdit.page page (.int size), .pageFromZero page (.int size)],
          ((call e).fault = none ↔ 0 < size) ∧
          (¬ 0 < size → call e = .refused s (Fault.limitRange (.int size)).reported) := by
  constructor
  · intro hsize α rows pages
    have hpages (k : Nat) : pages k = rows.take (k * size.toNat) :=
      Window.flatMap_rows_page size.toNat rows k
    refine ⟨hpages, fun k hk => ?_, fun hrows m n => Window.disjoint_rows_page hrows⟩
    have hrow : 1 ≤ size.toNat := by omega
    rw [hpages, List.take_of_length_le (hk.trans (Nat.le_mul_of_pos_right k hrow))]
  · intro s id st q hst hq call
    have hpage {page : Value} {p : Int} (hp : page.whole? = some p) :
        call (.page page (.int size)) = _ := edit_page_eq hst hq hp size fun _ => rfl
    have hzero {page : Value} {p : Int} (hp : page.whole? = some p) :
        call (.pageFromZero page (.int size)) = _ := edit_page_eq hst hq hp size fun _ => rfl
    have hint (p : Int) : (Value.int p).whole? = some p := rfl
    refine ⟨fun hsize n => ?_, fun p => ⟨?_, fun hp => ?_⟩, fun page hp => ?_⟩
    · have hbefore : ((n : Int) + 1 - 1).toNat = n := by omega
      rw [hpage (hint _), if_pos hsize, hbefore]
    · rw [hpage (hint p), hzero (hint _), Int.sub_zero]
    · have hbefore : (p - 1).toNat = ((1 : Int) - 1).toNat := by omega
      rw [hpage (hint p), hpage (hint 1), hbefore]
    · obtain ⟨p, hp⟩ := Value.isWhole_iff.1 hp
      rw [List.forall_mem_cons, List.forall_mem_singleton]
      exact ⟨fault_edit_page hst hq hp size fun _ => rfl, fault_edit_page hst hq hp size fun _ => rfl⟩

theorem seven_rows_on_three_pages :
    let s : Store := ⟨[⟨.standard, [], .select { Query.empty with window := ⟨some 5, 4⟩ }⟩]⟩
    let rows := ["a", "b", "c", "d", "e", "f", "g"]
    let call (e : WindowEdit) := s.edit 0 (.window e)
    ((Window.page 3 0).rows rows ++ (Window.page 3 1).rows rows ++ (Window.page 3 2).rows rows = rows ∧
      List.Disjoint ((Window.page 3 1).rows rows) ((Window.page 3 2).rows rows)) ∧
    call (.page (.int 2) (.int 3)) = .made (s.withWindow 0 ⟨some 3, 3⟩) ∧
    call (.page (.int (-4)) (.int 3)) = call (.page (.int 1) (.int 3)) ∧
    call (.page (.int (-4)) (.int 3)) = call (.pageFromZero (.int (-5)) (.int 3)) ∧
    call (.pageFromZero (.bool true) (.int (-3))) = .refused s (.limitRange (.int (-3))) := by
  intro s rows call
  obtain ⟨hrows, hcalls⟩ := pages_partition 3
  obtain ⟨hpages, -, hdisjoint⟩ := hrows (by decide) rows
  obtain ⟨hset, hcounted, -⟩ := hcalls s 0 _ _ rfl rfl
  obtain ⟨-, hrefused⟩ := pages_partition (-3)
  have hnegative := (hrefused s 0 _ _ rfl rfl).2.2 (.bool true) rfl (.pageFromZero (.bool true) (.int (-3)))
    (List.mem_cons_of_mem _ List.mem_cons_self)
  exact ⟨⟨(List.append_assoc _ _ _).trans (hpages 3), hdisjoint (by decide) 1 2 (by decide)⟩,
    hset (by decide) 1, (hcounted (-4)).2 (by decide), (hcounted (-4)).1, hnegative.2 (by decide)⟩

end Store
end SqlComposer
