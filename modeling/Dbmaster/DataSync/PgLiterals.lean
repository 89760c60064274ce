import Dbmaster.DataSync.SameRow
import Dbmaster.DataSync.Tokenizer
/-!
# Literals of the PostgreSQL batch

`insert_json_batch_pg` embeds every value in the text of the statement.  The text is read by the
lexical rules of PostgreSQL with standard-conforming strings: each value is one literal under
its cast, whatever quotes and backslashes it has.
-/

namespace Dbmaster.DataSync.PgLiterals

open Dbmaster.Lib Dbmaster.Lib.Tokens
open Dbmaster.DataSync.Config Dbmaster.DataSync.Writers Dbmaster.DataSync.Tokenizer

/-! ## The text of a statement -/

def commaSeparated (texts : List (List Char)) : List Char := ", ".toList.intercalate texts

/-- The text of a value that is no parameter. -/
def literalText : Value → Option (List Char)
  | .literal text => some text
  | .bound _ => none

def tupleText (tuple : List Value) : List Char :=
  '(' :: (commaSeparated (tuple.filterMap literalText) ++ [')'])

/-- The text of a statement without parameters. -/
def statementText (stmt : InsertStatement) : List Char :=
  "INSERT INTO ".toList ++ (stmt.table.toList ++ (" (".toList ++
    (commaSeparated (stmt.columns.map String.toList) ++ (") VALUES ".toList ++
      (commaSeparated (stmt.tuples.map tupleText) ++
        stmt.tail.elim [] fun tail => ' ' :: tail.toList)))))

/-! ## Its tokens -/

def nameToken (name : String) : Token :=
  if name.toList = [] ∨ '\x00' ∈ name.toList then .broken name.toList else .quoted name.toList

def valueTokens : Option String → List Token
  | some s => [.literal s.toList, .symbol "::".toList, .word "unknown".toList]
  | none => [.word "NULL".toList]

def separated (parts : List (List Token)) : List Token := [.symbol [',']].intercalate parts

def tupleTokens (values : List (Option String)) : List Token :=
  .symbol ['('] :: (separated (values.map valueTokens) ++ [.symbol [')']])

def targetNames (cfg : DataSyncTaskConfig) : List String :=
  (cfg.columnMapping.columns.map fun c => c.target) ++
    cfg.columnMapping.constants.map fun cst => cst.target

/-- The values of a row: the selected columns, then the constants. -/
def rowValues (display : Json → String) (cfg : DataSyncTaskConfig) (r : JsonRow) :
    List (Option String) :=
  (cfg.columnMapping.columns.map fun c => getStr r c.target) ++
    cfg.columnMapping.constants.map fun cst => some (jsonValueToString display cst.value)

/-! ## Pieces between commas -/

abbrev pendingPg (text : List Char) : State := (lexer .postgres).pending (lexer .postgres).idle text

/-- The piece ends where a comma, a parenthesis or a blank follows it. -/
def Stands (piece : List Char) : Prop :=
  ∀ c ∈ [',', ')', ' '], extend .postgres (pendingPg piece) c = none

/-- Punctuation is a token of its own. -/
theorem extend_punctuation {d : Char} (hd : d ∈ ['(', ',', ')']) (c : Char) :
    extend .postgres (.symbol [d]) c = none := by
  have hjoins : joins .postgres [d] c = false := by
    simp only [List.mem_cons, List.not_mem_nil, or_false] at hd
    rcases hd with rfl | rfl | rfl <;> simp [joins, operators, isOperator]
  have hother : d ≠ '/' ∧ d ≠ '-' := by
    constructor <;> rintro rfl <;> exact absurd hd (by decide)
  rw [extend, extendSymbol, hjoins]
  simp [hother.1, hother.2]

theorem start_punctuation {d : Char} (hd : d ∈ ['(', ',', ')']) :
    start .postgres d = .symbol [d] := by
  simp only [List.mem_cons, List.not_mem_nil, or_false] at hd
  rcases hd with rfl | rfl | rfl <;> decide

theorem tokens_punctuation {d : Char} (hd : d ∈ ['(', ',', ')']) (rest : List Char) :
    tokens .postgres (d :: rest) = .symbol [d] :: tokens .postgres rest := by
  have hparts : (lexer .postgres).Parts (.symbol [d]) rest := fun c _ => extend_punctuation hd c
  rw [tokens, Lexer.tokens_cons, lexer_start, start_punctuation hd,
    Lexer.readFrom_of_parts hparts]
  simp only [List.mem_cons, List.not_mem_nil, or_false] at hd
  rcases hd with rfl | rfl | rfl <;> rfl

theorem tokens_blank (rest : List Char) :
    tokens .postgres (' ' :: rest) = tokens .postgres rest :=
  tokens_blank_append (a := [' ']) (by decide) rest

theorem parts_of_stands {a b : List Char} (ha : Stands a)
    (hb : ∀ c ∈ b.head?, c ∈ [',', ')', ' ']) :
    (lexer .postgres).Parts (pendingPg a) b := fun c hc => ha c (hb c hc)

theorem tokens_append_of_stands {a b : List Char} (ha : Stands a)
    (hb : ∀ c ∈ b.head?, c ∈ [',', ')', ' ']) :
    tokens .postgres (a ++ b) = tokens .postgres a ++ tokens .postgres b :=
  Lexer.tokens_append (parts_of_stands ha hb)

/-- Behind a text that leaves nothing pending everything is read afresh. -/
theorem tokens_append_of_idle {lead : List Char} (h : pendingPg lead = .gap)
    (rest : List Char) :
    tokens .postgres (lead ++ rest) = tokens .postgres lead ++ tokens .postgres rest := by
  refine Lexer.tokens_append fun c _ => ?_
  change extend .postgres (pendingPg lead) c = none
  rw [h]
  rfl

/-- A comma and a blank leave nothing pending. -/
theorem pending_comma {a : List Char} (ha : Stands a) (b : List Char) :
    pendingPg (a ++ (", ".toList ++ b)) = pendingPg b := by
  have hcomma : pendingPg ", ".toList = .gap := by decide
  have hparts : (lexer .postgres).Parts (pendingPg a) ", ".toList :=
    parts_of_stands ha (by simp)
  rw [pendingPg, Lexer.pending_append, Lexer.pending_append,
    Lexer.pending_of_parts hparts (by simp)]
  exact congrArg (fun s => (lexer .postgres).pending s b) hcomma

theorem commaSeparated_cons_cons (first second : List Char) (rest : List (List Char)) :
    commaSeparated (first :: second :: rest) =
      first ++ (", ".toList ++ commaSeparated (second :: rest)) := by
  rw [commaSeparated, List.intercalate_cons_cons, List.append_assoc]
  rfl

theorem stands_commaSeparated {pieces : List (List Char)} (h : ∀ p ∈ pieces, Stands p) :
    Stands (commaSeparated pieces) := by
  induction pieces with
  | nil => exact fun _ _ => rfl
  | cons first rest ih =>
      cases rest with
      | nil => simpa [commaSeparated, List.intercalate] using h first List.mem_cons_self
      | cons second rest =>
          have hrest := ih fun p hp => h p (List.mem_cons_of_mem first hp)
          unfold Stands
          rw [commaSeparated_cons_cons, pending_comma (h first List.mem_cons_self)]
          exact hrest

/-- Pieces between commas are read one by one. -/
theorem tokens_commaSeparated {pieces : List (List Char)} (h : ∀ p ∈ pieces, Stands p) :
    tokens .postgres (commaSeparated pieces) = separated (pieces.map (tokens .postgres)) := by
  induction pieces with
  | nil => rfl
  | cons first rest ih =>
      cases rest with
      | nil => simp [commaSeparated, separated, List.intercalate]
      | cons second rest =>
          have hrest := ih fun p hp => h p (List.mem_cons_of_mem first hp)
          have hcomma : tokens .postgres (", ".toList ++ commaSeparated (second :: rest)) =
              .symbol [','] :: tokens .postgres (commaSeparated (second :: rest)) :=
            (tokens_punctuation (by decide) _).trans (congrArg _ (tokens_blank _))
          rw [commaSeparated_cons_cons,
            tokens_append_of_stands (h first List.mem_cons_self) (by simp), hcomma, hrest,
            List.map_cons, List.map_cons, List.map_cons, separated, separated,
            List.intercalate_cons_cons, List.append_assoc]
          rfl

/-! ## Names and values -/

/-- The states in which a name, a literal or a word ends. -/
theorem extend_ended {c : Char} (hc : c ∈ [',', ')', ' ']) (text : List Char) :
    extend .postgres (.closed '"' text) c = none ∧ extend .postgres (.run text) c = none := by
  have hquote : c ≠ '"' := by
    rintro rfl
    exact absurd hc (by decide)
  have hword : isWord c = false := by
    simp only [List.mem_cons, List.not_mem_nil, or_false] at hc
    rcases hc with rfl | rfl | rfl <;> decide
  constructor
  · rw [extend, if_neg hquote]
  · rw [extend, hword, if_neg Bool.false_ne_true]

theorem tokens_quote (name : String) :
    tokens .postgres (quote name .postgres).toList = [nameToken name] := by
  rw [SameRow.quote_eq]
  exact tokens_quoted name.toList

theorem stands_quote (name : String) : Stands (quote name .postgres).toList := by
  intro c hc
  have hpending : pendingPg (quote name .postgres).toList = .closed '"' name.toList := by
    rw [SameRow.quote_eq]
    exact pending_quoted name.toList
  rw [hpending]
  exact (extend_ended hc _).1

theorem foldlM_literal (s : List Char) :
    (Quoted.double '\'' s ++ ['\'']).foldlM (lexer .postgres).extend (.delimited '\'' []) =
      some (.closed '\'' s) :=
  foldlM_delimited (fun h => by cases h) [] s

theorem pending_literal (s : List Char) :
    pendingPg (Quoted.quoted '\'' s) = .closed '\'' s := by
  change (lexer .postgres).pending (.delimited '\'' []) _ = _
  exact Lexer.pending_of_extends (foldlM_literal s)

/-- One literal, and the cast behind it. -/
theorem tokens_pushPgLiteral (v : Option String) :
    tokens .postgres (pushPgLiteral v) = valueTokens v := by
  cases v with
  | none => decide
  | some s =>
      have hliteral : tokens .postgres (Quoted.quoted '\'' s.toList) = [.literal s.toList] := by
        rw [tokens, Quoted.quoted, Lexer.tokens_cons]
        exact Lexer.readFrom_of_extends (foldlM_literal s.toList)
      have hcast : tokens .postgres "::unknown".toList =
          [.symbol "::".toList, .word "unknown".toList] := by decide
      rw [SameRow.pushPgLiteral_some, tokens, Lexer.tokens_append]
      · change tokens .postgres _ ++ tokens .postgres _ = _
        rw [hliteral, hcast]
        rfl
      · intro c hc
        cases hc
        change extend .postgres (pendingPg _) ':' = none
        rw [pending_literal]
        rfl

theorem stands_pushPgLiteral (v : Option String) : Stands (pushPgLiteral v) := by
  intro c hc
  obtain ⟨word, hpending⟩ : ∃ word, pendingPg (pushPgLiteral v) = .run word := by
    cases v with
    | none => exact ⟨_, rfl⟩
    | some s =>
        refine ⟨"unknown".toList, ?_⟩
        rw [SameRow.pushPgLiteral_some, pendingPg, Lexer.pending_append]
        change (lexer .postgres).pending (pendingPg _) _ = _
        rw [pending_literal]
        rfl
  rw [hpending]
  exact (extend_ended hc _).2

/-! ## Tuples -/

section Tuples

variable {display : Json → String} {cfg : DataSyncTaskConfig} {rows : List JsonRow}
  {stmt : InsertStatement}

theorem stands_tupleText {pieces : List (List Char)} (h : ∀ p ∈ pieces, Stands p) :
    Stands ('(' :: (commaSeparated pieces ++ [')'])) := by
  intro c _
  have hopen : Stands ('(' :: commaSeparated pieces) := by
    by_cases hnil : commaSeparated pieces = []
    · rw [hnil]
      exact fun c _ => extend_punctuation (by decide) c
    · intro c hc
      have hparts : (lexer .postgres).Parts (pendingPg ['(']) (commaSeparated pieces) :=
        fun c _ => extend_punctuation (d := '(') (by decide) c
      have hpending : pendingPg ('(' :: commaSeparated pieces) =
          pendingPg (commaSeparated pieces) :=
        Lexer.pending_of_parts hparts hnil
      rw [hpending]
      exact stands_commaSeparated h c hc
  have hclose : pendingPg ('(' :: (commaSeparated pieces ++ [')'])) = .symbol [')'] := by
    rw [← List.cons_append, pendingPg, Lexer.pending_append]
    exact (Lexer.pending_of_parts (parts_of_stands hopen (by simp)) (by simp)).trans rfl
  rw [hclose]
  exact extend_punctuation (by decide) c

theorem tokens_tupleText {pieces : List (List Char)} (h : ∀ p ∈ pieces, Stands p) :
    tokens .postgres ('(' :: (commaSeparated pieces ++ [')'])) =
      .symbol ['('] :: (separated (pieces.map (tokens .postgres)) ++ [.symbol [')']]) := by
  have hclose : tokens .postgres [')'] = [.symbol [')']] := by decide
  rw [tokens_punctuation (by decide), tokens_append_of_stands (stands_commaSeparated h) (by simp),
    tokens_commaSeparated h, hclose]

/-- The text of a row's tuple. -/
def rowText (display : Json → String) (cfg : DataSyncTaskConfig) (r : JsonRow) : List Char :=
  '(' :: (commaSeparated ((rowValues display cfg r).map pushPgLiteral) ++ [')'])

theorem parts_insertJsonBatchPg (h : insertJsonBatchPg display cfg rows = some stmt) :
    stmt.table = quote cfg.target.table .postgres ∧ stmt.columns = targetColumns cfg .postgres ∧
      stmt.tuples.map tupleText = rows.map (rowText display cfg) := by
  unfold insertJsonBatchPg insertStatement at h
  split at h
  case isTrue => cases h
  case isFalse =>
    cases h
    refine ⟨rfl, rfl, ?_⟩
    simp [tupleText, rowText, rowValues, literalText, List.filterMap_append, List.filterMap_map,
      Function.comp_def, List.map_map]

theorem stands_values (r : JsonRow) :
    ∀ p ∈ (rowValues display cfg r).map pushPgLiteral, Stands p := by
  intro p hp
  obtain ⟨v, _, rfl⟩ := List.mem_map.mp hp
  exact stands_pushPgLiteral v

theorem stands_rows : ∀ p ∈ rows.map (rowText display cfg), Stands p := by
  intro p hp
  obtain ⟨r, _, rfl⟩ := List.mem_map.mp hp
  exact stands_tupleText (stands_values r)

theorem tokens_rows : tokens .postgres (commaSeparated (rows.map (rowText display cfg))) =
    separated (rows.map fun r => tupleTokens (rowValues display cfg r)) := by
  have hvalue : tokens .postgres ∘ pushPgLiteral = valueTokens := funext tokens_pushPgLiteral
  rw [tokens_commaSeparated stands_rows, List.map_map]
  refine congrArg separated (List.map_congr_left fun r _ => ?_)
  rw [Function.comp_apply, rowText, tokens_tupleText (stands_values r), List.map_map, hvalue,
    tupleTokens]

/-! ## Statements -/

/-- The tokens before the tuples. -/
def headTokens (cfg : DataSyncTaskConfig) : List Token :=
  [.word "INSERT".toList, .word "INTO".toList, nameToken cfg.target.table, .symbol ['(']] ++
    (separated ((targetNames cfg).map fun name => [nameToken name]) ++
      [.symbol [')'], .word "VALUES".toList])

theorem columns_eq (cfg : DataSyncTaskConfig) :
    (targetColumns cfg .postgres).map String.toList =
      (targetNames cfg).map fun name => (quote name .postgres).toList := by
  simp [targetColumns, targetNames, Function.comp_def]

theorem stands_columns : ∀ p ∈ (targetColumns cfg .postgres).map String.toList, Stands p := by
  rw [columns_eq]
  intro p hp
  obtain ⟨name, _, rfl⟩ := List.mem_map.mp hp
  exact stands_quote name

theorem tokens_columns :
    tokens .postgres (commaSeparated ((targetColumns cfg .postgres).map String.toList)) =
      separated ((targetNames cfg).map fun name => [nameToken name]) := by
  rw [tokens_commaSeparated stands_columns, columns_eq, List.map_map]
  exact congrArg separated (List.map_congr_left fun name _ => tokens_quote name)

theorem statementText_eq (h : insertJsonBatchPg display cfg rows = some stmt) :
    statementText stmt =
      "INSERT INTO ".toList ++ ((quote cfg.target.table .postgres).toList ++ (" (".toList ++
        (commaSeparated ((targetColumns cfg .postgres).map String.toList) ++
          (") VALUES ".toList ++ (commaSeparated (rows.map (rowText display cfg)) ++
            stmt.tail.elim [] fun tail => ' ' :: tail.toList))))) := by
  obtain ⟨htable, hcolumns, htuples⟩ := parts_insertJsonBatchPg h
  unfold statementText
  rw [htable, hcolumns, htuples]

theorem tokens_table (rest : List Char) :
    tokens .postgres ("INSERT INTO ".toList ++
      ((quote cfg.target.table .postgres).toList ++ (" (".toList ++ rest))) =
      [.word "INSERT".toList, .word "INTO".toList, nameToken cfg.target.table, .symbol ['(']] ++
        tokens .postgres rest := by
  have hinsert : tokens .postgres "INSERT INTO ".toList =
      [.word "INSERT".toList, .word "INTO".toList] := by decide
  have hopen : tokens .postgres (" (".toList ++ rest) = .symbol ['('] :: tokens .postgres rest :=
    (tokens_blank _).trans (tokens_punctuation (by decide) rest)
  rw [tokens_append_of_idle (by decide), hinsert,
    tokens_append_of_stands (stands_quote _) (by simp), tokens_quote, hopen]
  rfl

theorem tokens_names (rest : List Char) :
    tokens .postgres (commaSeparated ((targetColumns cfg .postgres).map String.toList) ++
      (") VALUES ".toList ++ rest)) =
      separated ((targetNames cfg).map fun name => [nameToken name]) ++
        ([.symbol [')'], .word "VALUES".toList] ++ tokens .postgres rest) := by
  have hvalues : tokens .postgres ") VALUES ".toList =
      [.symbol [')'], .word "VALUES".toList] := by decide
  rw [tokens_append_of_stands (stands_commaSeparated stands_columns) (by simp), tokens_columns,
    tokens_append_of_idle (by decide), hvalues]

theorem tokens_tuples (tail : Option String) :
    tokens .postgres (commaSeparated (rows.map (rowText display cfg)) ++
      tail.elim [] fun tail => ' ' :: tail.toList) =
      separated (rows.map fun r => tupleTokens (rowValues display cfg r)) ++
        tail.elim [] fun tail => tokens .postgres tail.toList := by
  have htail : ∀ c ∈ (tail.elim [] fun tail => ' ' :: tail.toList).head?,
      c ∈ [',', ')', ' '] := by
    cases tail <;> simp
  rw [tokens_append_of_stands (stands_commaSeparated stands_rows) htail, tokens_rows]
  cases tail with
  | none => rfl
  | some tail => exact congrArg _ (tokens_blank tail.toList)

theorem tokens_statementText (h : insertJsonBatchPg display cfg rows = some stmt) :
    tokens .postgres (statementText stmt) =
      headTokens cfg ++ (separated (rows.map fun r => tupleTokens (rowValues display cfg r)) ++
        stmt.tail.elim [] fun tail => tokens .postgres tail.toList) := by
  rw [statementText_eq h, tokens_table, tokens_names, tokens_tuples, headTokens,
    List.append_assoc, List.append_assoc]

end Tuples

end Dbmaster.DataSync.PgLiterals
