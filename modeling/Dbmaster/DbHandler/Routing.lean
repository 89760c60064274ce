import Dbmaster.DbHandler.Execute
import Dbmaster.Lib.Lead
import Dbmaster.Risk.Classify
/-!
# Statements whose rows are returned

The gateway and `db_query` return the rows of a statement that passes the prefix test of
`is_select_statement`, and the affected rows of the others.
-/

namespace Dbmaster.DbHandler.Routing

open Dbmaster.Lib Dbmaster.Gateway.Classify Dbmaster.Gateway.Stream
open Dbmaster.SqlSplit.Splitter (blockTail blockTail_length matchKeyword)
open Dbmaster.Gateway.Query (Family unsupportedKind)
open Dbmaster.DbHandler.Execute
  (Fetched Turn ConnRow QueryBody load dbQuery rowsToJson withTime queryFailed clampLimit)
open Dbmaster.License.Entitlement (EntitlementState)

/-! ## The paths -/

/-- `run_inner` once the connection is open: what it streams or executes.  `fetched` is what
the target answers to a query, `affected` what it answers to an execution. -/
def sqlLeg (family : Family) (fetched : Except StreamQueryError (Nat → StreamItem))
    (affected : Except StreamQueryError Nat) (sql : String) : Leg :=
  match family with
  | .mySql _ | .postgres | .sqlite | .clickhouse | .sqlServer =>
    if isSelectStatement sql then
      match fetched with
      | .error e => .refused e
      | .ok source => .rows source
    else .execute affected
  | .mongo => .refused (unsupportedKind
      "mongodb connections require kind \"mongo\" with a command object")
  | .redis => .refused (unsupportedKind
      "redis connections require kind \"redis\" with a command or pipeline")
  | .tdengine => .refused (unsupportedKind
      "tdengine connections require kind \"tdengine\" statements")

def IsSql : Family → Prop
  | .mongo | .redis | .tdengine => False
  | _ => True

/-- The rows that the target answers are those the client gets, from the gateway as from
`db_query`. -/
structure RowsReturned (sql : String) : Prop where
  gateway : ∀ family source affected, IsSql family →
    sqlLeg family (.ok source) affected sql = .rows source
  dbQuery : ∀ (entitlement : EntitlementState) (env : Execute.Environment) (body : QueryBody)
    family dbName fetched, body.sql = sql → load env body.db = .ok (family, dbName) →
    (env.turns dbName 0).opens = .ok () → (env.turns dbName 0).fetched = .ok fetched →
    (dbQuery entitlement env body).result =
      .ok (withTime env.elapsedMs (rowsToJson fetched (clampLimit body.limit)))

theorem rowsReturned_iff (sql : String) : RowsReturned sql ↔ isSelectStatement sql = true := by
  constructor
  · intro h
    have hleg := h.gateway .postgres (fun _ => .done) (.ok 0) trivial
    by_contra hother
    simp only [sqlLeg, hother, if_false] at hleg
    cases hleg
  · intro hselect
    constructor
    · intro family source affected hsql
      cases family with
      | mongo => exact hsql.elim
      | redis => exact hsql.elim
      | tdengine => exact hsql.elim
      | _ => simp only [sqlLeg, hselect, if_true]
    · rintro entitlement env body family dbName fetched rfl hload hopens hfetched
      simp only [Execute.dbQuery, hselect, if_true, hload, Execute.executeQuery, hopens,
        Execute.answer, hfetched, Except.map]

/-! ## The first token -/

/-- The comments of SQL dialects: to the end of the line, or up to the closing mark. -/
def commentTail (text : List Char) : Option (List Char) :=
  if Text.startsWith text "--" || Text.startsWith text "#" then some (text.dropWhile (· != '\n'))
  else if Text.startsWith text "/*" then some (blockTail (text.drop 2)).2
  else none

theorem commentTail_reads (text rest : List Char) (h : commentTail text = some rest) :
    rest.length < text.length := by
  unfold commentTail at h
  split at h
  case isTrue hline =>
    obtain ⟨c, tail, rfl, hc⟩ : ∃ c tail, text = c :: tail ∧ (c != '\n') = true := by
      rw [Bool.or_eq_true] at hline
      rcases hline with hdashes | hhash
      · obtain ⟨tail, htail⟩ := List.isPrefixOf_iff_prefix.mp hdashes
        exact ⟨'-', '-' :: tail, htail.symm, rfl⟩
      · obtain ⟨tail, htail⟩ := List.isPrefixOf_iff_prefix.mp hhash
        exact ⟨'#', tail, htail.symm, rfl⟩
    have hdrop : (c :: tail).dropWhile (· != '\n') = tail.dropWhile (· != '\n') :=
      List.dropWhile_cons_of_pos hc
    rw [← Option.some.inj h, hdrop]
    exact Nat.lt_succ_of_le (List.dropWhile_suffix _).length_le
  case isFalse =>
    split at h
    case isTrue hblock =>
      have hlength : 2 ≤ text.length := (List.isPrefixOf_iff_prefix.mp hblock).length_le
      have htail := blockTail_length (text.drop 2)
      rw [List.length_drop] at htail
      rw [← Option.some.inj h]
      omega
    case isFalse => cases h

/-- Blanks, comments and opening parentheses. -/
def lead : Lead.Skipper Char where
  blank c := Text.isWhitespace c || c == '('
  comment := commentTail
  reads := commentTail_reads

def rowKeywords : List String := ["SELECT", "WITH", "SHOW", "DESCRIBE", "EXPLAIN", "PRAGMA"]

/-- The first token is a keyword of statements that return rows. -/
def RowFirst (alphanumeric : Char → Bool) (sql : String) : Prop :=
  ∃ kw ∈ rowKeywords, matchKeyword alphanumeric kw (lead.skip sql.toList) = true

/-- Only blanks stand in front of the first token. -/
def Plain (sql : String) : Prop :=
  commentTail (Text.trimStart sql.toList) = none ∧ (Text.trimStart sql.toList).head? ≠ some '('

/-- The text up to the first blank, those in front apart. -/
def firstWord (sql : String) : List Char :=
  (Text.trimStart sql.toList).takeWhile fun c => !Text.isWhitespace c

variable {alphanumeric : Char → Bool} {sql : String}

theorem isSelectStatement_iff : isSelectStatement sql = true ↔
    ∃ kw ∈ rowKeywords, kw.toList <+: Text.upper (Text.trimStart sql.toList) := by
  rw [isSelectStatement, List.any_eq_true]
  constructor
  · rintro ⟨kw, hkw, hstarts⟩
    exact ⟨kw, hkw, List.isPrefixOf_iff_prefix.mp hstarts⟩
  · rintro ⟨kw, hkw, hprefix⟩
    exact ⟨kw, hkw, List.isPrefixOf_iff_prefix.mpr hprefix⟩

theorem capital_of_mem {kw : String} (hkw : kw ∈ rowKeywords) {c : Char} (hc : c ∈ kw.toList) :
    65 ≤ c.toNat ∧ c.toNat ≤ 90 := by
  have hall : (rowKeywords.all fun kw => kw.toList.all fun c =>
      decide (65 ≤ c.toNat ∧ c.toNat ≤ 90)) = true := by decide
  exact of_decide_eq_true (List.all_eq_true.mp (List.all_eq_true.mp hall kw hkw) c hc)

theorem isSelectStatement_iff_firstWord : isSelectStatement sql = true ↔
    ∃ kw ∈ rowKeywords, kw.toList <+: Text.upper (firstWord sql) := by
  have hblank : ∀ kw ∈ rowKeywords, ∀ c ∈ kw.toList, Text.isWhitespace c = false := by
    intro kw hkw c hc
    have hcapital := capital_of_mem hkw hc
    simp only [Text.isWhitespace, Bool.or_eq_false_iff, Bool.and_eq_false_iff,
      decide_eq_false_iff_not, beq_eq_false_iff_ne]
    omega
  rw [isSelectStatement_iff]
  constructor
  · rintro ⟨kw, hkw, hprefix⟩
    exact ⟨kw, hkw, (Text.prefix_upper_takeWhile (hblank kw hkw)).mp hprefix⟩
  · rintro ⟨kw, hkw, hprefix⟩
    exact ⟨kw, hkw, (Text.prefix_upper_takeWhile (hblank kw hkw)).mpr hprefix⟩

theorem not_select_of_head {c : Char} {rest : List Char}
    (htext : Text.trimStart sql.toList = c :: rest) (hc : c ∈ ['-', '#', '/', '(']) :
    isSelectStatement sql = false := by
  by_contra hselect
  obtain ⟨kw, hkw, hprefix⟩ := isSelectStatement_iff.mp (Bool.not_eq_false _ ▸ hselect)
  have hsign : Text.toUppercase c = [c] ∧ c.toNat < 65 := by
    simp only [List.mem_cons, List.not_mem_nil, or_false] at hc
    rcases hc with rfl | rfl | rfl | rfl <;> decide
  have hne : ∀ kw ∈ rowKeywords, kw.toList ≠ [] := by decide
  obtain ⟨k, word, hword⟩ := List.exists_cons_of_ne_nil (hne kw hkw)
  have hcapital := (capital_of_mem hkw (hword ▸ List.mem_cons_self)).1
  rw [htext, Text.upper, List.flatMap_cons, hsign.1, hword] at hprefix
  obtain ⟨rfl, -⟩ := List.cons_prefix_cons.mp hprefix
  omega

theorem plain_of_select (h : isSelectStatement sql = true) : Plain sql := by
  have hhead : ∀ c rest, Text.trimStart sql.toList = c :: rest → c ∉ ['-', '#', '/', '('] := by
    intro c rest htext hc
    rw [not_select_of_head htext hc] at h
    cases h
  have hstarts : ∀ (word : String) (c : Char) (tail : List Char), word.toList = c :: tail →
      c ∈ ['-', '#', '/', '('] → Text.startsWith (Text.trimStart sql.toList) word = false := by
    intro word c tail hword hc
    by_contra hprefix
    obtain ⟨rest, hrest⟩ := List.isPrefixOf_iff_prefix.mp (Bool.not_eq_false _ ▸ hprefix)
    rw [hword] at hrest
    exact hhead c (tail ++ rest) hrest.symm hc
  constructor
  · rw [commentTail, hstarts "--" '-' ['-'] rfl (by decide), hstarts "#" '#' [] rfl (by decide),
      hstarts "/*" '/' ['*'] rfl (by decide)]
    rfl
  · intro hparen
    cases htext : Text.trimStart sql.toList with
    | nil =>
        rw [htext] at hparen
        cases hparen
    | cons c rest =>
        rw [htext] at hparen
        obtain rfl := Option.some.inj hparen
        exact hhead '(' rest htext (by decide)

theorem skip_of_plain (h : Plain sql) : lead.skip sql.toList = Text.trimStart sql.toList := by
  obtain ⟨hcomment, hparen⟩ := h
  have hsame : ∀ text : List Char, (Text.trimStart text).head? ≠ some '(' →
      text.dropWhile lead.blank = Text.trimStart text := by
    intro text
    induction text with
    | nil => exact fun _ => rfl
    | cons c text ih =>
        intro hhead
        unfold Text.trimStart at hhead ⊢
        by_cases hc : Text.isWhitespace c = true
        · have hblank : lead.blank c = true := Bool.or_eq_true_iff.mpr (Or.inl hc)
          rw [List.dropWhile_cons_of_pos hc] at hhead ⊢
          rw [List.dropWhile_cons_of_pos hblank]
          exact ih hhead
        · have hother : ¬ lead.blank c = true := by
            rw [List.dropWhile_cons_of_neg hc] at hhead
            intro hblank
            rcases Bool.or_eq_true_iff.mp hblank with hwhite | hparen
            · exact hc hwhite
            · rw [beq_iff_eq.mp hparen] at hhead
              exact hhead rfl
          rw [List.dropWhile_cons_of_neg hc, List.dropWhile_cons_of_neg hother]
  rw [← hsame _ hparen] at hcomment ⊢
  exact lead.skip_of_token hcomment

theorem select_of_rowFirst (hplain : Plain sql) (h : RowFirst alphanumeric sql) :
    isSelectStatement sql = true := by
  obtain ⟨kw, hkw, hmatch⟩ := h
  rw [skip_of_plain hplain, matchKeyword, Bool.and_eq_true, beq_iff_eq] at hmatch
  have hcapitals : ∀ c ∈ kw.toList, c.toNat < 96 := by
    intro c hc
    have hcapital := capital_of_mem hkw hc
    omega
  refine isSelectStatement_iff.mpr ⟨kw, hkw, Text.upper_of_asciiUpper hcapitals ?_⟩
  rw [String.length_toList]
  exact hmatch.1

/-! ## The law -/

/-- The rows of a text whose first token is such a keyword, and of one that is classified as
read-only, are returned. -/
def KeepsRows (alphanumeric : Char → Bool) (parseWith : Risk.Classify.Parser) (sql : String) :
    Prop :=
  RowFirst alphanumeric sql ∨ (Risk.Classify.classify parseWith sql.toList).isReadOnly = true →
    RowsReturned sql

/-- The law holds exactly when only blanks stand in front of a first token that is such a
keyword, and a read-only text opens with a word that begins with one. -/
theorem keepsRows_iff (alphanumeric : Char → Bool) (parseWith : Risk.Classify.Parser)
    (sql : String) :
    KeepsRows alphanumeric parseWith sql ↔
      (RowFirst alphanumeric sql → Plain sql) ∧
      ((Risk.Classify.classify parseWith sql.toList).isReadOnly = true →
        ∃ kw ∈ rowKeywords, kw.toList <+: Text.upper (firstWord sql)) := by
  unfold KeepsRows
  rw [rowsReturned_iff]
  constructor
  · intro h
    refine ⟨fun hfirst => plain_of_select (h (Or.inl hfirst)), fun hread => ?_⟩
    exact isSelectStatement_iff_firstWord.mp (h (Or.inr hread))
  · rintro ⟨hplain, hword⟩ (hfirst | hread)
    · exact select_of_rowFirst (hplain hfirst) hfirst
    · exact isSelectStatement_iff_firstWord.mpr (hword hread)

/-- A comment or a parenthesis in front of `SELECT` turns the rows into a count. -/
theorem select_behind_comment_counted :
    ¬ KeepsRows Char.isAlphanum (fun _ _ => none) "/* c */ SELECT 1" ∧
      ¬ KeepsRows Char.isAlphanum (fun _ _ => none) "(SELECT 1)" := by
  constructor
  · intro h
    have hfirst : RowFirst Char.isAlphanum "/* c */ SELECT 1" :=
      ⟨"SELECT", by decide, by decide +kernel⟩
    exact absurd ((rowsReturned_iff _).mp (h (Or.inl hfirst))) (by decide +kernel)
  · intro h
    have hfirst : RowFirst Char.isAlphanum "(SELECT 1)" := ⟨"SELECT", by decide, by decide +kernel⟩
    exact absurd ((rowsReturned_iff _).mp (h (Or.inl hfirst))) (by decide +kernel)

end Dbmaster.DbHandler.Routing
