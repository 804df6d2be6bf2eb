import Mathlib.Data.List.Induction
import SqlComposer.Dialect.Registry
import SqlComposer.Proofs.Ensures

/-! Registered dialects. A registry keeps what was registered last under each name, and the name as it was
written; but a name that is asked for is looked up in small letters. So a name leads to what was registered
under it last, in whatever letter case it is asked for, exactly if the like was registered last under its
small form. -/

namespace SqlComposer

abbrev Registration := String × Backend

def latest (history : List Registration) (name : String) : Option Backend := history.reverse.lookup name

def SameName (m n : String) : Prop := Text.lower m = Text.lower n

namespace Backend

def inVersion (b : Backend) (version : Nat) (naming : Option Naming) : Dialect :=
  ⟨b.family, b.display, version, naming.getD .snake⟩

def SameDialects (b b' : Backend) : Prop := b.family = b'.family ∧ b.display = b'.display

theorem dialect_int (b : Backend) (version : Nat) (naming : Option Naming) :
    b.dialect (.int version) naming = .ok (b.inVersion version naming) := by
  have hversion : Version.ofValue (.int version) = .ok version := by
    rw [Version.ofValue, Version.checked, if_neg (Int.not_lt.2 (Int.natCast_nonneg version)),
      Int.toNat_natCast]
  rw [dialect, hversion]
  rfl

theorem inVersion_eq_iff {b b' : Backend} {version : Nat} {naming : Option Naming} :
    b.inVersion version naming = b'.inVersion version naming ↔ b.SameDialects b' := by
  simp [inVersion, SameDialects]

end Backend

namespace Text

def isAscii (s : String) : Bool := s.toList.all fun c => c.toNat < 0x80

theorem lowerFrom_of_ascii {cs : List Char} (h : ∀ c ∈ cs, c.toNat < 0x80) (before : List Char) :
    lowerFrom before cs = cs.map Char.toLower := by
  induction cs generalizing before with
  | nil => rfl
  | cons c cs ih =>
    obtain ⟨hc, hcs⟩ := List.forall_mem_cons.1 h
    have hsigma : c ≠ 'Σ' := by
      rintro rfl
      exact absurd hc (by decide)
    rw [lowerFrom, if_neg hsigma, lowerChar, if_pos hc, ih hcs, List.map_cons, List.singleton_append]

theorem toList_lower_of_isAscii {s : String} (h : isAscii s) :
    (lower s).toList = s.toList.map Char.toLower := by
  rw [isAscii, List.all_eq_true] at h
  rw [lower, String.toList_ofList]
  exact lowerFrom_of_ascii (fun c hc => of_decide_eq_true (h c hc)) []

end Text

theorem sameName_iff_of_isAscii {m n : String} (hm : Text.isAscii m) (hn : Text.isAscii n) :
    SameName m n ↔ m.toList.map Char.toLower = n.toList.map Char.toLower := by
  rw [SameName, ← String.toList_inj, Text.toList_lower_of_isAscii hm, Text.toList_lower_of_isAscii hn]

namespace Registry
variable {history : List Registration} {n : String} {b : Backend}

def registerAll (r : Registry) (history : List Registration) : Registry :=
  history.foldl (fun r e => r.register e.1 e.2) r

def after (history : List Registration) : Registry := builtin.registerAll history

def throughout (history : List Registration) : List Registration := builtin.entries ++ history

theorem lookup_registration (e : Registration) (es : List Registration) (n : String) :
    (e :: es).lookup n = if n = e.1 then some e.2 else es.lookup n := by
  rw [List.lookup_cons]
  by_cases hn : n = e.1
  · rw [if_pos hn, beq_iff_eq.2 hn]
  · rw [if_neg hn, beq_eq_false_iff_ne.2 hn]

theorem lookup_insert (name : String) (b : Backend) (es : List Registration) (n : String) :
    (insert name b es).lookup n = if n = name then some b else es.lookup n := by
  induction es with
  | nil => rw [insert, lookup_registration]
  | cons e es ih =>
    rw [insert, lookup_registration e]
    split
    · next hname =>
      -- The registration takes the place of an earlier one under its name.
      rw [lookup_registration, hname]
      split <;> rfl
    · next hname =>
      rw [lookup_registration, ih]
      by_cases hn : n = e.1
      · have hne : n ≠ name := fun h => hname (hn.symm.trans h)
        simp only [if_pos hn, if_neg hne]
      · simp only [if_neg hn]

theorem latest_concat (history : List Registration) (e : Registration) (n : String) :
    latest (history ++ [e]) n = if n = e.1 then some e.2 else latest history n := by
  rw [latest, List.reverse_concat, lookup_registration, latest]

theorem find?_registerAll (history : List Registration) (n : String) :
    (registerAll ⟨[]⟩ history).find? n = latest history n := by
  induction history using List.reverseRecOn with
  | nil => rfl
  | append_singleton history e ih =>
    have hstep : registerAll ⟨[]⟩ (history ++ [e]) = (registerAll ⟨[]⟩ history).register e.1 e.2 :=
      List.foldl_append ..
    rw [hstep, latest_concat, ← ih]
    exact lookup_insert e.1 e.2 _ n

theorem find?_after (history : List Registration) (n : String) :
    (after history).find? n = latest (throughout history) n := by
  have hbuiltin : builtin = registerAll ⟨[]⟩ builtin.entries := by decide
  have hafter : registerAll ⟨[]⟩ (throughout history) = after history := by
    rw [throughout, registerAll, List.foldl_append, after, registerAll]
    exact congrArg (List.foldl _ · history) hbuiltin.symm
  rw [← hafter, find?_registerAll]

theorem mem_names_iff (r : Registry) (n : String) : n ∈ r.names ↔ (r.find? n).isSome := by
  rw [names, List.mem_mergeSort, List.mem_map, find?, List.lookup_isSome_iff]
  simp only [beq_iff_eq, @eq_comm _ n]

theorem create_after (history : List Registration) (m : String) (version : Nat) (naming : Option Naming) :
    (after history).create m (.int version) naming =
      match latest (throughout history) (Text.lower m) with
      | some b => .ok (b.inVersion version naming)
      | none => .error (.unknownDialect m (after history).names) := by
  rw [create, find?_after]
  cases latest (throughout history) (Text.lower m) with
  | none => rfl
  | some b => exact b.dialect_int version naming

theorem create_sameName_iff (history : List Registration) (n : String) (b : Backend) :
    (∀ m, SameName m n → ∀ (version : Nat) naming,
      (after history).create m (.int version) naming = .ok (b.inVersion version naming)) ↔
    ∃ b', latest (throughout history) (Text.lower n) = some b' ∧ b'.SameDialects b := by
  constructor
  · intro h
    have hself := h n rfl 0 none
    rw [create_after] at hself
    cases hlatest : latest (throughout history) (Text.lower n) with
    | none =>
      rw [hlatest] at hself
      cases hself
    | some b' =>
      rw [hlatest] at hself
      exact ⟨b', rfl, Backend.inVersion_eq_iff.1 (Except.ok.inj hself)⟩
  · rintro ⟨b', hlatest, hsame⟩ m hm version naming
    rw [create_after, show Text.lower m = Text.lower n from hm, hlatest]
    exact congrArg Except.ok (Backend.inVersion_eq_iff.2 hsame)

theorem create_isOk_iff (history : List Registration) (m : String) (version : Nat)
    (naming : Option Naming) :
    (∃ d, (after history).create m (.int version) naming = .ok d) ↔
      Text.lower m ∈ (after history).names := by
  rw [create_after, mem_names_iff, find?_after]
  cases latest (throughout history) (Text.lower m) with
  | none => exact iff_of_false nofun Bool.false_ne_true
  | some b => exact iff_of_true ⟨_, rfl⟩ rfl

theorem lower_eq_of_mem_builtin : ∀ e ∈ builtin.entries, Text.lower e.1 = e.1 := by decide

theorem latest_lower (hsmall : ∀ e ∈ history, Text.lower e.1 = e.1)
    (hn : latest (throughout history) n = some b) :
    latest (throughout history) (Text.lower n) = some b := by
  obtain ⟨front, back, hsplit, -⟩ := List.lookup_eq_some_iff.1 hn
  have hmem : (n, b) ∈ throughout history := by
    rw [← List.mem_reverse, hsplit]
    exact List.mem_append_right front List.mem_cons_self
  have hlower : Text.lower n = n := by
    rcases List.mem_append.1 hmem with h | h
    · exact lower_eq_of_mem_builtin (n, b) h
    · exact hsmall (n, b) h
  rw [hlower, hn]

/-- After any registrations a name is known exactly if something was registered under it, and is accepted
exactly if its small form is known. It leads to what was registered last under it, in whatever letter case it
is asked for and in every version and naming, exactly if the like was registered last under its small form;
which is so for every name if all were registered in small letters. -/
theorem registered_names_lead (history : List Registration) :
    (∀ n, n ∈ (after history).names ↔ (latest (throughout history) n).isSome) ∧
    (∀ n (version : Nat) naming, (∃ d, (after history).create n (.int version) naming = .ok d) ↔
      Text.lower n ∈ (after history).names) ∧
    (∀ n b, latest (throughout history) n = some b →
      ((∀ m, SameName m n → ∀ (version : Nat) naming,
        (after history).create m (.int version) naming = .ok (b.inVersion version naming)) ↔
      ∃ b', latest (throughout history) (Text.lower n) = some b' ∧ b'.SameDialects b)) ∧
    ((∀ e ∈ history, Text.lower e.1 = e.1) → ∀ n b, latest (throughout history) n = some b →
      ∀ m, SameName m n → ∀ (version : Nat) naming,
        (after history).create m (.int version) naming = .ok (b.inVersion version naming)) := by
  refine ⟨fun n => ?_, create_isOk_iff history, fun n b _ => create_sameName_iff history n b,
    fun hsmall n b hn => ?_⟩
  · rw [mem_names_iff, find?_after]
  · exact (create_sameName_iff history n b).2 ⟨b, latest_lower hsmall hn, rfl, rfl⟩

theorem cockroach_in_capitals :
    let cockroach : Backend := ⟨.postgresql, "cockroach", ["cockroach"]⟩
    let history : List Registration := [("cockroach", Family.ansi.backend), ("cockroach", cockroach)]
    (∀ e ∈ history, Text.lower e.1 = e.1) ∧ latest (throughout history) "cockroach" = some cockroach ∧
      SameName "CockRoach" "cockroach" ∧
      (after history).create "CockRoach" (.int (23 : Nat)) (some .camel) =
        .ok ⟨.postgresql, "cockroach", 23, .camel⟩ := by
  intro cockroach history
  have hsmall : ∀ e ∈ history, Text.lower e.1 = e.1 := by decide
  have hlatest : latest (throughout history) "cockroach" = some cockroach := by decide
  have hsame : SameName "CockRoach" "cockroach" :=
    (sameName_iff_of_isAscii (by decide) (by decide)).2 (by decide)
  refine ⟨hsmall, hlatest, hsame, ?_⟩
  exact (registered_names_lead history).2.2.2 hsmall "cockroach" cockroach hlatest _ hsame 23 (some .camel)

/-- A name that is registered with a capital is not found under any of its forms; beside one in small letters
it leads there. -/
theorem capital_name_not_found :
    let shout : Backend := ⟨.ansi, "shout", []⟩
    let r := after [("Oracle", Family.ansi.backend)]
    let s := after [("Oracle", Family.ansi.backend), ("oracle", shout)]
    "Oracle" ∈ r.names ∧
      (∀ m ∈ ["Oracle", "oracle", "ORACLE"],
        r.create m (.int 0) none = .error (.unknownDialect m r.names)) ∧
      s.create "Oracle" (.int 0) none = .ok (shout.inVersion 0 none) := by
  intro shout r s
  have hsmall : ∀ m ∈ ["Oracle", "oracle", "ORACLE"], Text.lower m = "oracle" := by decide
  refine ⟨(mem_names_iff r "Oracle").2 (by decide), fun m hm => ?_, ?_⟩
  · have hnone : latest (throughout [("Oracle", Family.ansi.backend)]) "oracle" = none := by decide
    have hcreate := create_after [("Oracle", Family.ansi.backend)] m 0 none
    rwa [hsmall m hm, hnone] at hcreate
  · have hlatest : latest (throughout [("Oracle", Family.ansi.backend), ("oracle", shout)]) "oracle" =
        some shout := by decide
    have hcreate := create_after [("Oracle", Family.ansi.backend), ("oracle", shout)] "Oracle" 0 none
    rwa [hsmall "Oracle" List.mem_cons_self, hlatest] at hcreate

end Registry
end SqlComposer
