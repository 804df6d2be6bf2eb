import SqlComposer.Edit

/-! What the calls of a window accept. A limit is a positive integer and an offset an integer that is not
negative; the rows before a page make an offset of their own. Each call changes what it accepts and nothing
else, so a window is made of the last limit and the last offset that were accepted. -/

namespace SqlComposer

def Value.whole? : Value → Option Int
  | int n => some n
  | bool b => some b.toNat
  | _ => none

namespace WindowEdit

def limitGiven? : Value → Option Nat
  | .int n => if 0 < n then some n.toNat else none
  | _ => none

def offsetGiven? : Value → Option Nat
  | .int n => if 0 ≤ n then some n.toNat else none
  | _ => none

def offsetOfPage? (first : Int) (page size : Value) : Option Nat := do
  let n ← limitGiven? size
  let p ← page.whole?
  return (p - first).toNat * n

def limit? : WindowEdit → Option Nat
  | limit n | limitOffset n _ | page _ n | pageFromZero _ n => limitGiven? n
  | offset _ => none

/-- The offset that a call accepts; it is not looked at if the call's limit is refused. -/
def offset? : WindowEdit → Option Nat
  | limit _ => none
  | offset n => offsetGiven? n
  | limitOffset l n => (limitGiven? l).bind fun _ => offsetGiven? n
  | page p n => offsetOfPage? 1 p n
  | pageFromZero p n => offsetOfPage? 0 p n

def IsAccepted : WindowEdit → Prop
  | limit n | page _ n | pageFromZero _ n => (limitGiven? n).isSome
  | offset n => (offsetGiven? n).isSome
  | limitOffset l n => (limitGiven? l).isSome ∧ (offsetGiven? n).isSome

def accepted (e : WindowEdit) (w : Window) : Window :=
  ⟨e.limit?.or w.limit, e.offset?.getD w.offset⟩

/-- The last limit and the last offset that calls have accepted, if there were any. -/
def lastAccepted (es : List WindowEdit) : Window :=
  ⟨(es.filterMap limit?).getLast?, (es.filterMap offset?).getLast?.getD 0⟩

theorem lastAccepted_concat (es : List WindowEdit) (e : WindowEdit) :
    lastAccepted (es ++ [e]) = e.accepted (lastAccepted es) := by
  have hlast (f : WindowEdit → Option Nat) :
      ((es ++ [e]).filterMap f).getLast? = (f e).or (es.filterMap f).getLast? := by
    cases h : f e with
    | none => simp [List.filterMap_append, h]
    | some n => simp [List.filterMap_append, h]
  rw [lastAccepted, hlast, hlast, Option.getD_or]
  rfl

theorem limitOf_eq (v : Value) :
    limitOf v = match limitGiven? v with
      | some n => .ok n
      | none => .error (.limitRange v) := by
  cases v with
  | int n => by_cases hn : 0 < n <;> simp [limitOf, limitGiven?, hn]
  | _ => rfl

theorem offsetOf_eq (v : Value) :
    offsetOf v = match offsetGiven? v with
      | some n => .ok n
      | none => .error (.offsetRange v) := by
  cases v with
  | int n => by_cases hn : 0 ≤ n <;> simp [offsetOf, offsetGiven?, hn]
  | _ => rfl

theorem setLimit_eq (w : Window) (v : Value) :
    setLimit w v = match limitGiven? v with
      | some n => .made { w with limit := some n }
      | none => .refused w (.limitRange v) := by
  rw [setLimit, limitOf_eq]
  cases limitGiven? v <;> rfl

theorem setOffset_eq (w : Window) (v : Value) :
    setOffset w v = match offsetGiven? v with
      | some n => .made { w with offset := n }
      | none => .refused w (.offsetRange v) := by
  rw [setOffset, offsetOf_eq]
  cases offsetGiven? v <;> rfl

theorem setBoth_eq (w : Window) (l v : Value) :
    setBoth w l v = match limitGiven? l with
      | some n => setOffset { w with limit := some n } v
      | none => .refused w (.limitRange l) := by
  rw [setBoth, setLimit_eq]
  cases limitGiven? l <;> rfl

theorem pagesBefore_of_whole {page : Value} {p : Int} (hp : page.whole? = some p) (first : Int) :
    ∃ kind, pagesBefore first page = .ok (.whole kind (p - first).toNat) := by
  have hpages (n : Int) : max n first - first = ((n - first).toNat : Int) := by omega
  cases page with
  | int n =>
    cases hp
    exact ⟨_, by rw [pagesBefore, hpages]⟩
  | bool b =>
    cases hp
    exact ⟨_, by rw [pagesBefore, hpages]⟩
  | _ => cases hp

theorem setPage_int (w : Window) {first : Int} {page : Value} {p : Int} (hp : page.whole? = some p)
    (size : Int) :
    setPage w first page (.int size) =
      if 0 < size then .made ⟨some size.toNat, (p - first).toNat * size.toNat⟩
      else .refused w (.limitRange (.int size)) := by
  obtain ⟨kind, hpages⟩ := pagesBefore_of_whole hp first
  have hset : setPage w first page (.int size) =
      setBoth w (.int size) (.int ((p - first).toNat * size)) := by
    rw [setPage, hpages]
    rfl
  rw [hset, setBoth_eq]
  by_cases hsize : 0 < size
  · -- The offset is a product of two numbers that are not negative.
    have hrows : ((p - first).toNat : Int) * size = ((p - first).toNat * size.toNat : Nat) := by
      rw [Int.natCast_mul, Int.toNat_of_nonneg (Int.le_of_lt hsize)]
    have hlimit : limitGiven? (.int size) = some size.toNat := if_pos hsize
    rw [hlimit, if_pos hsize]
    dsimp only
    rw [setOffset_eq, hrows, offsetGiven?, if_pos (Int.natCast_nonneg _), Int.toNat_natCast]
  · have hlimit : limitGiven? (.int size) = none := if_neg hsize
    rw [hlimit, if_neg hsize]

theorem setPage_eq (w : Window) {first : Int} {page : Value} {p : Int} (hp : page.whole? = some p)
    (v : Value) :
    ∃ fault, setPage w first page v = match limitGiven? v with
      | some n => .made ⟨some n, (p - first).toNat * n⟩
      | none => .refused w fault := by
  cases v with
  | int size =>
    refine ⟨.limitRange (.int size), ?_⟩
    rw [setPage_int w hp, limitGiven?]
    by_cases hsize : 0 < size <;> simp only [hsize, if_true, if_false]
  | _ =>
    obtain ⟨kind, hpages⟩ := pagesBefore_of_whole hp first
    exact ⟨_, by rw [setPage, hpages]; rfl⟩

end WindowEdit

theorem Statement.edit_window {st : Statement} {q : Query} (hq : st.body = .select q) (e : WindowEdit) :
    st.edit (.window e) =
      (e.apply q.window).map fun w => { st with body := .select { q with window := w } } := by
  rw [edit, hq]
  · rfl
  · rintro _ ⟨⟩

end SqlComposer
