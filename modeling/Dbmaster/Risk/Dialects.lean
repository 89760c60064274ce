import Dbmaster.Lib.Lexing
import Dbmaster.Risk.Soundness
/-!
# The dialect that judges and the engine that runs

`parse_any` takes the first dialect that parses a text and never looks at the
connection.  The parsers are parameters; of each one it is assumed that it reads
a text by the lexical rules of its dialect and that a grammar makes statements
of what it read.  The engine has lexical rules of its own.
-/

namespace Dbmaster.Risk.Dialects

open Dbmaster.Lib.Lexing
open Dbmaster.Risk.Ast Dbmaster.Risk.Classify Dbmaster.Risk.Soundness

/-- The statements that each dialect makes of a text it has read. -/
abbrev Grammar := Dialect → List Mark → Option (List Statement)

/-- The parsers read by their dialects' rules. -/
def Implements (parseWith : Parser) (lexers : Dialect → Lexer) (grammar : Grammar) : Prop :=
  ∀ d sql, parseWith d sql = grammar d ((lexers d).read sql)

/-! ## The dialect that parses first -/

def firstDialect (parseWith : Parser) (sql : List Char) : Option Dialect :=
  [.mySql, .postgreSql, .generic].find? fun d => (parseWith d sql).isSome

theorem parseAny_eq_of_first {parseWith : Parser} {sql : List Char} {d : Dialect}
    (h : firstDialect parseWith sql = some d) : parseAny parseWith sql = parseWith d sql := by
  unfold firstDialect at h
  unfold parseAny
  cases hm : parseWith .mySql sql with
  | some statements =>
      simp only [List.find?_cons, hm, Option.isSome_some, Option.some.injEq] at h
      subst h
      exact hm.symm
  | none =>
      cases hp : parseWith .postgreSql sql with
      | some statements =>
          simp only [List.find?_cons, hm, hp, Option.isSome_none, Option.isSome_some,
            Option.some.injEq] at h
          subst h
          exact hp.symm
      | none =>
          cases hg : parseWith .generic sql with
          | some statements =>
              simp only [List.find?_cons, hm, hp, hg, Option.isSome_none, Option.isSome_some,
                Option.some.injEq] at h
              subst h
              exact hg.symm
          | none =>
              simp only [List.find?_cons, hm, hp, hg, Option.isSome_none, List.find?_nil,
                reduceCtorEq] at h

theorem exists_first_of_parseAny {parseWith : Parser} {sql : List Char}
    {statements : List Statement} (h : parseAny parseWith sql = some statements) :
    ∃ d, firstDialect parseWith sql = some d := by
  rw [← Option.isSome_iff_exists, firstDialect, List.find?_isSome]
  by_contra hnone
  have hall : ∀ d ∈ [Dialect.mySql, .postgreSql, .generic], parseWith d sql = none := by
    intro d hd
    rw [← Option.not_isSome_iff_eq_none]
    exact fun hsome => hnone ⟨d, hd, hsome⟩
  simp [parseAny, hall .mySql (by decide), hall .postgreSql (by decide),
    hall .generic (by decide)] at h

/-! ## What the verdict is to say about the engine -/

/-- The text is one statement that the classifier takes for a read. -/
def OneRead (statements : Option (List Statement)) : Prop :=
  ∃ s, statements = some [s] ∧ (classifyStatement s .empty).isReadOnly = true

/-- What passes the gate is one read by the engine's rules too, and all that the engine
runs was code to the dialect that judged. -/
def Fits (parseWith : Parser) (lexers : Dialect → Lexer) (grammar : Grammar) (engine : Lexer)
    (sql : List Char) : Prop :=
  riskGate parseWith sql = .ok () → ∃ d, firstDialect parseWith sql = some d ∧
    OneRead (grammar d (engine.read sql)) ∧ ∀ i, engine.Runs sql i → (lexers d).Runs sql i

section Verdicts

variable {parseWith : Parser} {lexers : Dialect → Lexer} {engine : Lexer} {sql : List Char}

theorem oneRead_of_riskGate (h : riskGate parseWith sql = .ok ()) :
    ∃ d, firstDialect parseWith sql = some d ∧ OneRead (parseWith d sql) := by
  obtain ⟨s, hparse, hclean⟩ := riskGate_ok h
  obtain ⟨d, hd⟩ := exists_first_of_parseAny hparse
  refine ⟨d, hd, s, ?_, ?_⟩
  · rw [← parseAny_eq_of_first hd, hparse]
  · have hread := (classifyStatement_readOnly s .empty).mpr ⟨rfl, hclean⟩
    simpa [RiskVerdict.isReadOnly] using hread

theorem fits_of_read_eq {grammar : Grammar} (himp : Implements parseWith lexers grammar)
    (hread : ∀ d, firstDialect parseWith sql = some d → (lexers d).read sql = engine.read sql) :
    Fits parseWith lexers grammar engine sql := by
  intro hgate
  obtain ⟨d, hd, hone⟩ := oneRead_of_riskGate hgate
  refine ⟨d, hd, ?_, fun i hruns => ?_⟩
  · rwa [← hread d hd, ← himp d sql]
  · obtain ⟨c, hc⟩ := hruns
    exact ⟨c, by rw [hread d hd, hc]⟩

/-- The grammar that makes nothing of what its dialect does not read. -/
def strictGrammar (parseWith : Parser) (lexers : Dialect → Lexer) : Grammar := fun d marks =>
  if (lexers d).read (marks.map Mark.char) = marks then parseWith d (marks.map Mark.char) else none

theorem implements_strictGrammar (parseWith : Parser) (lexers : Dialect → Lexer) :
    Implements parseWith lexers (strictGrammar parseWith lexers) := by
  intro d sql
  rw [strictGrammar, (lexers d).spells, if_pos rfl]

/-- The verdict fits the engine, whatever grammar stands behind the parsers, exactly on
the texts that are refused or that the engine reads as the first dialect does. -/
theorem verdict_fits_iff (parseWith : Parser) (lexers : Dialect → Lexer) (engine : Lexer)
    (sql : List Char) :
    (∀ grammar, Implements parseWith lexers grammar →
        Fits parseWith lexers grammar engine sql) ↔
      (riskGate parseWith sql = .ok () →
        ∀ d, firstDialect parseWith sql = some d → (lexers d).read sql = engine.read sql) := by
  constructor
  · intro h hgate d hd
    obtain ⟨d', hd', ⟨s, hs, -⟩, -⟩ := h _ (implements_strictGrammar parseWith lexers) hgate
    cases hd.symm.trans hd'
    by_contra hne
    rw [strictGrammar, engine.spells, if_neg hne] at hs
    cases hs
  · intro h grammar himp hgate
    exact fits_of_read_eq himp (h hgate) hgate

end Verdicts

/-! ## The rules of the dialects -/

def mySqlRules : Rules where
  closing c := if c = '\'' ∨ c = '"' ∨ c = '`' then some c else none
  escapes close := close != '`'
  hash := true
  bareDashes := false
  nests := false

/-- Also those of the PostgreSQL server with `standard_conforming_strings` on. -/
def postgreSqlRules : Rules where
  closing c := if c = '\'' ∨ c = '"' then some c else none
  escapes _ := false
  hash := false
  bareDashes := true
  nests := true

def genericRules : Rules where
  closing c := if c = '\'' ∨ c = '"' ∨ c = '`' then some c else none
  escapes _ := false
  hash := false
  bareDashes := true
  nests := true

def dialectRules : Dialect → Rules
  | .mySql => mySqlRules
  | .postgreSql => postgreSqlRules
  | .generic => genericRules

def dialectLexer (d : Dialect) : Lexer := (dialectRules d).lexer

/-! ## A backslash before a quote -/

/-- To MySQL one string; to PostgreSQL the string of a backslash, and a DELETE. -/
def hiddenDelete : List Char := "SELECT '\\'; DELETE FROM t; --'".toList

def selectString : Statement := .query (selectOf [.unnamedExpr (.other [])] [])

def hiddenDeleteGrammar : Grammar := fun _ marks =>
  if marks = mySqlRules.lexer.read hiddenDelete then some [selectString]
  else if marks = postgreSqlRules.lexer.read hiddenDelete then
    some [selectString, .modify .delete]
  else none

def parseHidden : Parser := fun d sql => hiddenDeleteGrammar d ((dialectLexer d).read sql)

/-- MySQL's parser comes first and sees a read; PostgreSQL runs the DELETE in its string. -/
theorem hidden_delete_accepted :
    Implements parseHidden dialectLexer hiddenDeleteGrammar ∧
      riskGate parseHidden hiddenDelete = .ok () ∧
      firstDialect parseHidden hiddenDelete = some .mySql ∧
      hiddenDeleteGrammar .mySql (postgreSqlRules.lexer.read hiddenDelete) =
        some [selectString, .modify .delete] ∧
      postgreSqlRules.lexer.Runs hiddenDelete 12 ∧
      ¬ (dialectLexer .mySql).Runs hiddenDelete 12 ∧
      ¬ Fits parseHidden dialectLexer hiddenDeleteGrammar postgreSqlRules.lexer hiddenDelete := by
  have himp : Implements parseHidden dialectLexer hiddenDeleteGrammar := fun _ _ => rfl
  have hgate : riskGate parseHidden hiddenDelete = .ok () := by decide
  have hfirst : firstDialect parseHidden hiddenDelete = some .mySql := by decide
  have hread : hiddenDeleteGrammar .mySql (postgreSqlRules.lexer.read hiddenDelete) =
      some [selectString, .modify .delete] := by
    rw [hiddenDeleteGrammar, if_neg (by decide), if_pos rfl]
  refine ⟨himp, hgate, hfirst, hread, by decide, by decide, fun hfits => ?_⟩
  obtain ⟨d, hd, ⟨s, hs, -⟩, -⟩ := hfits hgate
  cases hfirst.symm.trans hd
  rw [hread] at hs
  cases hs

end Dbmaster.Risk.Dialects
