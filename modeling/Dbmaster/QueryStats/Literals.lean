import Dbmaster.QueryStats.Strides
/-!
# Normal forms and literals

Statements that differ only in what their single-quoted and numeric literals say have one
normal form, where the normaliser delimits the literals as the engine does.  Strings in
double quotes, blanks and comments stay in the normal form.
-/

namespace Dbmaster.QueryStats.Literals

open Dbmaster.QueryStats.Normalize Dbmaster.QueryStats.Pieces Dbmaster.QueryStats.Strides

theorem normalizeSql_erase {ps : List Piece} (hsound : sound ps = true)
    (hdelimited : delimited ps = true) :
    normalizeSql (render ps) =
      form 0 ((ps.map Piece.erase).drop (blanks (ps.map Piece.erase))) := by
  rw [normalizeSql_render hsound hdelimited, blanks_erase, ← List.map_drop, form_erase]

/-- Neither the normal form nor the digest depends on what the literals say. -/
theorem normalizeSql_literals {engine : Engine} {ps ps' : List Piece}
    (hreads : engine.reads .code [] ps = true) (hreads' : engine.reads .code [] ps' = true)
    (hdelimited : delimited ps = true) (hdelimited' : delimited ps' = true)
    (herase : ps.map Piece.erase = ps'.map Piece.erase) :
    normalizeSql (render ps) = normalizeSql (render ps') ∧
      normalizeDigest (render ps) = normalizeDigest (render ps') := by
  have hsame : normalizeSql (render ps) = normalizeSql (render ps') := by
    rw [normalizeSql_erase (sound_of_reads hreads) hdelimited, herase,
      normalizeSql_erase (sound_of_reads hreads') hdelimited']
  refine ⟨hsame, ?_⟩
  rw [normalizeDigest, normalizeDigest, hsame]

theorem normalizeSql_literals_names :
    normalizeSql (render (plain "a=" ++ .string "it''s".toList :: .blank [' '] :: plain "OR" ++
        .blank [' '] :: plain "b=-" ++ [.number "2.5e3".toList])) =
      normalizeSql (render (plain "a=" ++ .string [] :: .blank [' '] :: plain "OR" ++
        .blank ['\n', ' '] :: plain "b=-" ++ [.number ['7']])) ∧
      normalizeDigest (render (plain "a=" ++ .string "it''s".toList :: .blank [' '] ::
        plain "OR" ++ .blank [' '] :: plain "b=-" ++ [.number "2.5e3".toList])) =
      normalizeDigest (render (plain "a=" ++ .string [] :: .blank [' '] :: plain "OR" ++
        .blank ['\n', ' '] :: plain "b=-" ++ [.number ['7']])) :=
  @normalizeSql_literals postgreSql _ _ (by decide +kernel) (by decide +kernel) (by decide +kernel)
    (by decide +kernel) (by decide +kernel)

/-- The engine reads the same tokens, and the normal forms differ. -/
def Unlike (engine : Engine) (ps ps' : List Piece) : Prop :=
  engine.reads .code [] ps = true ∧ engine.reads .code [] ps' = true ∧
    engine.tokens ps = engine.tokens ps' ∧ normalizeSql (render ps) ≠ normalizeSql (render ps')

instance (engine : Engine) (ps ps' : List Piece) : Decidable (Unlike engine ps ps') :=
  inferInstanceAs (Decidable (_ ∧ _ ∧ _ ∧ _))

/-- Texts of the same tokens need not have one normal form.  A string in double quotes, a
blank between tokens and a comment stay.  What a literal says is read as code where no
backslash escapes, after a quote in a comment, after a sign, and after a word or points that
go on as a number. -/
theorem normalizeSql_tokens :
    ¬ (∀ (engine : Engine) (ps ps' : List Piece), engine.reads .code [] ps = true →
        engine.reads .code [] ps' = true → engine.tokens ps = engine.tokens ps' →
        normalizeSql (render ps) = normalizeSql (render ps')) ∧
      Unlike postgreSql (plain "a=b") (plain "a" ++ .blank [' '] :: plain "=b") ∧
      Unlike postgreSql (plain "a=b") (plain "a/*c*/=b") ∧
      Unlike postgreSql [.string ['\\'], .char ',', .string ['a']]
        [.string ['\\'], .char ',', .string ['b']] ∧
      Unlike mysql (plain "/*'*/" ++ [.string ['a']]) (plain "/*'*/" ++ [.string ['b']]) ∧
      Unlike mysql [.char '-', .number "0xA".toList] [.char '-', .number "0xB".toList] ∧
      Unlike mysql (plain "a1e+" ++ [.number "0xA".toList])
        (plain "a1e+" ++ [.number "0xB".toList]) ∧
      Unlike postgreSql (.number ['1'] :: plain ".." ++ [.number "0xA".toList])
        (.number ['1'] :: plain ".." ++ [.number "0xB".toList]) := by
  refine ⟨fun h => ?_, by decide +kernel, by decide +kernel, by decide +kernel,
    by decide +kernel, by decide +kernel, by decide +kernel, by decide +kernel⟩
  have hunlike : Unlike mysql (plain "\"a\"") (plain "\"b\"") := by decide +kernel
  obtain ⟨hreads, hreads', htokens, hne⟩ := hunlike
  exact hne (h mysql _ _ hreads hreads' htokens)

end Dbmaster.QueryStats.Literals
