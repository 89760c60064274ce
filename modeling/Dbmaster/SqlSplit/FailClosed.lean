import Dbmaster.SqlSplit.DdlWhitelist
import Dbmaster.SqlSplit.Fragments
/-!
# The script as a whole

The whole script is checked before its first statement is sent, and the statements are sent
in their order up to the first that fails.  The guard on the connection holds only when its
row can be read.
-/

namespace Dbmaster.SqlSplit.FailClosed

open Dbmaster.Lib Dbmaster.Gateway.Query Dbmaster.SqlSplit.Splitter Dbmaster.SqlSplit.Fragments
open Dbmaster.SqlSplit.DdlWhitelist

/-! ## One statement after the other -/

def Accepted (answer : List (List Char) → List Char → Except HttpError Unit)
    (texts : List (List Char)) : Prop :=
  ∀ before text after, texts = before ++ text :: after → answer before text = .ok ()

/-- The target accepted all of the texts but the last. -/
def StopsAtFailure (answer : List (List Char) → List Char → Except HttpError Unit)
    (texts : List (List Char)) : Prop :=
  ∃ before last e, texts = before ++ [last] ∧ Accepted answer before ∧ answer before last = .error e

/-- The texts sent are the first of the script: all of them, each accepted, when the result is
`Ok`, and those up to the first that fails when it is not. -/
structure InOrder (answer : List (List Char) → List Char → Except HttpError Unit)
    (script : List (List Char)) (outcome : Outcome) : Prop where
  isPrefix : outcome.sent <+: script
  whole : outcome.result = .ok () → outcome.sent = script ∧ Accepted answer script
  stopped : ∀ message, outcome.result = .error message → StopsAtFailure answer outcome.sent

variable {answer : List (List Char) → List Char → Except HttpError Unit}

theorem accepted_nil : Accepted answer [] := by
  intro before text after h
  exact absurd h.symm (List.append_ne_nil_of_right_ne_nil _ (List.cons_ne_nil _ _))

theorem Accepted.concat {texts : List (List Char)} (h : Accepted answer texts) {text : List Char}
    (hnext : answer texts text = .ok ()) : Accepted answer (texts ++ [text]) := by
  intro before found after hsplit
  rcases List.eq_nil_or_concat after with rfl | ⟨middle, last, rfl⟩
  · obtain ⟨rfl, hlast⟩ := List.append_inj' hsplit rfl
    rw [← List.singleton_inj.mp hlast]
    exact hnext
  · rw [List.concat_eq_append, ← List.cons_append, ← List.append_assoc] at hsplit
    exact h before found middle (List.append_inj' hsplit rfl).1

theorem inOrder_executeAll (sent statements : List (List Char)) (hsent : Accepted answer sent)
    (hstatements : ∀ stmt ∈ statements, Text.trim stmt = stmt ∧ stmt ≠ []) :
    InOrder answer (sent ++ statements) (executeAll answer sent statements) := by
  induction statements generalizing sent with
  | nil =>
      rw [List.append_nil]
      refine ⟨List.prefix_refl sent, fun _ => ⟨rfl, hsent⟩, fun _ h => ?_⟩
      cases h
  | cons stmt statements ih =>
      obtain ⟨htrim, hne⟩ := hstatements stmt List.mem_cons_self
      have hrest : ∀ s ∈ statements, Text.trim s = s ∧ s ≠ [] :=
        fun s hs => hstatements s (List.mem_cons_of_mem _ hs)
      have hsplit : sent ++ stmt :: statements = sent ++ [stmt] ++ statements := by simp
      rw [executeAll, htrim]
      simp only [hne, if_false]
      cases hanswer : answer sent stmt with
      | ok u =>
          rw [hsplit]
          exact ih (sent ++ [stmt]) (hsent.concat hanswer) hrest
      | error e =>
          refine ⟨?_, fun h => ?_, fun _ _ => ⟨sent, stmt, e, rfl, hsent, hanswer⟩⟩
          · rw [hsplit]
            exact List.prefix_append _ _
          · cases h

/-! ## The script and the connection -/

section Law

variable (alphanumeric : Char → Bool) (env : Environment) (ddlSql : List Char)

/-- The statements may not be executed: the check rejects one, or the connection is guarded,
or its guard cannot be read. -/
def Forbidden : Prop :=
  (∃ stmt ∈ splitSqlScript alphanumeric ddlSql, isDdlStatement stmt = false) ∨
    env.guard = none ∨ ∃ kind readOnly, env.guard = some (kind, readOnly) ∧
      (readOnly ≠ 0 ∨ kind = "source_drift")

/-- There is a connection, of an engine that DDL can be executed on. -/
def Reachable : Prop :=
  ∃ dbType, env.loaded = .ok dbType ∧
    Text.asciiLower dbType.toList ≠ "clickhouse".toList ∧ ∃ family, backendFor dbType = .ok family

/-- Nothing is sent of a script that may not be executed, nor without a target; otherwise the
statements are sent in their order up to the first that fails. -/
structure FailsClosed : Prop where
  closed : Forbidden alphanumeric env ddlSql →
    (executeDdlOnTargetWithKey alphanumeric env ddlSql).sent = []
  inOrder : ¬ Forbidden alphanumeric env ddlSql → Reachable env →
    InOrder env.answer (splitSqlScript alphanumeric ddlSql)
      (executeDdlOnTargetWithKey alphanumeric env ddlSql)
  unreachable : ¬ Reachable env →
    (executeDdlOnTargetWithKey alphanumeric env ddlSql).sent = [] ∧
      ∃ message, (executeDdlOnTargetWithKey alphanumeric env ddlSql).result = .error message

end Law

variable {alphanumeric : Char → Bool} {env : Environment} {ddlSql : List Char}

theorem trimmed_of_mem {stmt : List Char} (h : stmt ∈ splitSqlScript alphanumeric ddlSql) :
    Text.trim stmt = stmt ∧ stmt ≠ [] :=
  ⟨trim_of_mem_splitSqlScript h, (mem_splitSqlScript_iff.mp h).2⟩

def guarded (env : Environment) : Bool :=
  env.guard.any fun row => row.2 != 0 || row.1 == "source_drift"

theorem exists_row_of_guarded (h : guarded env = true) :
    ∃ row, env.guard = some row ∧ (row.2 != 0 || row.1 == "source_drift") = true := by
  cases hrow : env.guard with
  | none =>
      rw [guarded, hrow] at h
      cases h
  | some row =>
      rw [guarded, hrow] at h
      exact ⟨row, rfl, h⟩

theorem execute_open (hreach : Reachable env) (hguard : guarded env = false) :
    executeDdlOnTargetWithKey alphanumeric env ddlSql = executeScript alphanumeric env ddlSql := by
  obtain ⟨dbType, hloaded, hclick, family, hbackend⟩ := hreach
  have hreadOnly : (env.guard.any fun row => row.2 != 0) = false := by
    cases hrow : env.guard with
    | none => rfl
    | some row =>
        rw [guarded, hrow, Option.any_some, Bool.or_eq_false_iff] at hguard
        exact hguard.1
  have hkind : (env.guard.any fun row => row.1 == "source_drift") = false := by
    cases hrow : env.guard with
    | none => rfl
    | some row =>
        rw [guarded, hrow, Option.any_some, Bool.or_eq_false_iff] at hguard
        exact hguard.2
  unfold executeDdlOnTargetWithKey
  rw [hloaded]
  simp only [if_neg hclick, hreadOnly, hkind, Bool.false_eq_true, if_false, hbackend]

theorem execute_guarded (hguard : guarded env = true) :
    (executeDdlOnTargetWithKey alphanumeric env ddlSql).sent = [] := by
  obtain ⟨row, hrow, hrefuses⟩ := exists_row_of_guarded hguard
  unfold executeDdlOnTargetWithKey
  rw [hrow]
  simp only [Option.any_some]
  split
  case h_1 => rfl
  case h_2 dbType _ =>
    split
    case isTrue => rfl
    split
    case isTrue => rfl
    case isFalse hwritable =>
      rw [if_pos (by simpa [Bool.eq_false_iff.mpr hwritable] using hrefuses)]
      rfl

theorem execute_unreachable (hreach : ¬ Reachable env) :
    (executeDdlOnTargetWithKey alphanumeric env ddlSql).sent = [] ∧
      ∃ message, (executeDdlOnTargetWithKey alphanumeric env ddlSql).result = .error message := by
  unfold executeDdlOnTargetWithKey
  split
  case h_1 => exact ⟨rfl, _, rfl⟩
  case h_2 dbType hloaded =>
    split
    case isTrue => exact ⟨rfl, _, rfl⟩
    case isFalse hclick =>
      split
      case isTrue => exact ⟨rfl, _, rfl⟩
      split
      case isTrue => exact ⟨rfl, _, rfl⟩
      split
      case h_1 => exact ⟨rfl, _, rfl⟩
      case h_2 family hbackend =>
        exact absurd ⟨dbType, hloaded, hclick, family, hbackend⟩ hreach

theorem executeScript_rejected {stmt : List Char}
    (hmem : stmt ∈ splitSqlScript alphanumeric ddlSql) (hstmt : isDdlStatement stmt = false) :
    (executeScript alphanumeric env ddlSql).sent = [] := by
  obtain ⟨htrim, hne⟩ := trimmed_of_mem hmem
  have hrejected : (rejected (splitSqlScript alphanumeric ddlSql)).isSome = true := by
    rw [rejected, List.find?_isSome]
    refine ⟨Text.trim stmt, List.mem_map_of_mem hmem, ?_⟩
    rw [htrim, hstmt]
    simpa using hne
  obtain ⟨s, hs⟩ := Option.isSome_iff_exists.mp hrejected
  simp only [executeScript, hs]
  rfl

theorem executeScript_passed
    (hall : ∀ stmt ∈ splitSqlScript alphanumeric ddlSql, isDdlStatement stmt = true) :
    InOrder env.answer (splitSqlScript alphanumeric ddlSql)
      (executeScript alphanumeric env ddlSql) := by
  have hrejected : rejected (splitSqlScript alphanumeric ddlSql) = none := by
    rw [rejected, List.find?_eq_none]
    intro s hs
    obtain ⟨stmt, hmem, rfl⟩ := List.mem_map.mp hs
    rw [(trimmed_of_mem hmem).1, hall stmt hmem]
    simp
  have horder := inOrder_executeAll [] (splitSqlScript alphanumeric ddlSql)
    (@accepted_nil env.answer) fun stmt hmem => trimmed_of_mem hmem
  rw [List.nil_append] at horder
  simp only [executeScript, hrejected]
  exact horder

theorem forbidden_of_guarded (h : guarded env = true) : Forbidden alphanumeric env ddlSql := by
  obtain ⟨row, hrow, hrefuses⟩ := exists_row_of_guarded h
  rw [Bool.or_eq_true, bne_iff_ne, beq_iff_eq] at hrefuses
  exact Or.inr (Or.inr ⟨row.1, row.2, hrow, hrefuses⟩)

theorem guarded_of_row {kind : String} {readOnly : Int} (hrow : env.guard = some (kind, readOnly))
    (h : readOnly ≠ 0 ∨ kind = "source_drift") : guarded env = true := by
  rw [guarded, hrow, Option.any_some, Bool.or_eq_true, bne_iff_ne, beq_iff_eq]
  exact h

theorem sent_ne_nil {script : List (List Char)} {outcome : Outcome} (hne : script ≠ [])
    (h : InOrder env.answer script outcome) : outcome.sent ≠ [] := by
  intro hnil
  cases hresult : outcome.result with
  | ok u =>
      have hwhole := (h.whole hresult).1
      rw [hnil] at hwhole
      exact hne hwhole.symm
  | error message =>
      obtain ⟨before, last, e, hsent, -⟩ := h.stopped message hresult
      rw [hnil] at hsent
      exact absurd hsent.symm (List.append_ne_nil_of_right_ne_nil _ (List.cons_ne_nil _ _))

/-- The execution fails closed exactly when the guard row was read, or nothing would be sent
without it: no target that can be reached, a statement that the check rejects, or none. -/
theorem failsClosed_iff (alphanumeric : Char → Bool) (env : Environment) (ddlSql : List Char) :
    FailsClosed alphanumeric env ddlSql ↔
      env.guard ≠ none ∨ ¬ Reachable env ∨
        (∃ stmt ∈ splitSqlScript alphanumeric ddlSql, isDdlStatement stmt = false) ∨
        splitSqlScript alphanumeric ddlSql = [] := by
  have hddl : (¬ ∃ stmt ∈ splitSqlScript alphanumeric ddlSql, isDdlStatement stmt = false) →
      ∀ stmt ∈ splitSqlScript alphanumeric ddlSql, isDdlStatement stmt = true := by
    intro hnone stmt hmem
    by_contra hstmt
    exact hnone ⟨stmt, hmem, Bool.eq_false_iff.mpr hstmt⟩
  constructor
  · intro h
    by_contra hopen
    simp only [not_or, not_not] at hopen
    obtain ⟨hguard, hreach, hall, hne⟩ := hopen
    have hfree : guarded env = false := by
      rw [guarded, hguard]
      rfl
    have hsent := h.closed (Or.inr (Or.inl hguard))
    rw [execute_open hreach hfree] at hsent
    exact sent_ne_nil hne (executeScript_passed (hddl hall)) hsent
  · intro h
    refine ⟨?_, ?_, execute_unreachable⟩
    · intro hforbidden
      by_cases hreach : Reachable env
      · by_cases hguarded : guarded env = true
        · exact execute_guarded hguarded
        rw [execute_open hreach (Bool.eq_false_iff.mpr hguarded)]
        by_cases hrejects : ∃ stmt ∈ splitSqlScript alphanumeric ddlSql, isDdlStatement stmt = false
        · obtain ⟨stmt, hmem, hstmt⟩ := hrejects
          exact executeScript_rejected hmem hstmt
        -- no row was read, so that there is nothing to send
        have hunread : env.guard = none := by
          rcases hforbidden with hstmt | hnone | ⟨kind, readOnly, hrow, hrefuses⟩
          · exact absurd hstmt hrejects
          · exact hnone
          · exact absurd (guarded_of_row hrow hrefuses) hguarded
        have hempty : splitSqlScript alphanumeric ddlSql = [] := by
          rcases h with hread | hnot | hstmt | hempty
          · exact absurd hunread hread
          · exact absurd hreach hnot
          · exact absurd hstmt hrejects
          · exact hempty
        have horder := @executeScript_passed alphanumeric env ddlSql (hddl hrejects)
        rw [hempty] at horder
        exact List.prefix_nil.mp horder.isPrefix
      · exact (execute_unreachable hreach).1
    · intro hallowed hreach
      have hguarded : guarded env = false := by
        by_contra hguard
        exact hallowed (forbidden_of_guarded (Bool.not_eq_false _ ▸ hguard))
      rw [execute_open hreach hguarded]
      exact executeScript_passed (hddl fun hstmt => hallowed (Or.inl hstmt))

/-- The guard row of a MySQL connection cannot be read, and the statement is sent. -/
theorem unread_guard_passes :
    ¬ ∀ alphanumeric env ddlSql, FailsClosed alphanumeric env ddlSql := by
  intro hall
  have hclosed := hall Char.isAlphanum ⟨.ok "mysql", none, fun _ _ => .ok ()⟩
    "DROP TABLE a".toList
  have hnothing := hclosed.closed (Or.inr (Or.inl rfl))
  exact absurd hnothing (by decide +kernel)

end Dbmaster.SqlSplit.FailClosed
