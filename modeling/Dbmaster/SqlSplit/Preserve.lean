import Dbmaster.Lib.Layout
import Dbmaster.SqlSplit.Fragments
/-!
# The splitter loses and invents nothing

Without a delimiter directive the loop copies the script character by character, so the
statements stand in it as they are, with blanks and terminators between them.
-/

namespace Dbmaster.SqlSplit.Preserve

open Dbmaster.Lib Dbmaster.Lib.Layout Dbmaster.SqlSplit.Splitter Dbmaster.SqlSplit.Fragments

variable (alphanumeric : Char → Bool) (script : List Char)

/-- The loop comes upon no delimiter directive. -/
def NoDirective : Prop := (splitter alphanumeric).Avoids (directs alphanumeric) (start script)

instance : Decidable (NoDirective alphanumeric script) := inferInstanceAs (Decidable (_ = true))

/-- The loop ends a statement at this offset. -/
def Terminator (i : Nat) : Prop :=
  ∃ n, cuts alphanumeric (after alphanumeric script n) = true ∧
    (after alphanumeric script n).rest = script.drop i

/-- What may stand between statements. -/
def Gap (i : Nat) (c : Char) : Prop :=
  Text.isWhitespace c = true ∨ c = ';' ∧ Terminator alphanumeric script i

variable {alphanumeric script}

theorem laid_flush {m : Nat} {buf rest : List Char} {statements : List (List Char)}
    (h : Laid script (Gap alphanumeric script) m statements)
    (hread : script.drop m = buf ++ rest) :
    Laid script (Gap alphanumeric script) (m + buf.length) (statements ++ flush buf) := by
  obtain ⟨lead, hlead, hbuf⟩ := Text.exists_blank_append buf
  obtain ⟨trail, htrail, hcore⟩ := Text.exists_append_blank (Text.trimStart buf)
  have hbuf' : buf = lead ++ (Text.trim buf ++ trail) := by
    rw [Text.trim, ← hcore]
    exact hbuf
  have hblank : ∀ {part : List Char} {k : Nat}, (∀ c ∈ part, Text.isWhitespace c = true) →
      ∀ i c, part[i]? = some c → Gap alphanumeric script (k + i) c :=
    fun hall i c hget => Or.inl (hall c (List.mem_of_getElem? hget))
  have hstart : lead <+: script.drop m := by
    rw [hread, hbuf', List.append_assoc]
    exact List.prefix_append _ _
  have hmiddle : script.drop (m + lead.length) = Text.trim buf ++ (trail ++ rest) := by
    rw [← List.drop_drop, hread]
    conv_lhs => rw [hbuf', List.append_assoc, List.drop_left, List.append_assoc]
  have hend : script.drop (m + lead.length + (Text.trim buf).length) = trail ++ rest := by
    rw [← List.drop_drop, hmiddle, List.drop_left]
  have hlength : m + buf.length =
      m + lead.length + (Text.trim buf).length + trail.length := by
    have hsum := congrArg List.length hbuf'
    rw [List.length_append, List.length_append] at hsum
    omega
  have hbefore := h.gaps hstart (hblank hlead)
  have hcut : Laid script (Gap alphanumeric script) (m + lead.length + (Text.trim buf).length)
      (statements ++ flush buf) := by
    unfold flush
    split
    case isTrue hempty =>
      rw [hempty, List.append_nil]
      exact hbefore
    case isFalse =>
      refine hbefore.piece ?_
      rw [hmiddle]
      exact List.prefix_append _ _
  rw [hlength]
  refine hcut.gaps ?_ (hblank htrail)
  rw [hend]
  exact List.prefix_append _ _

theorem exists_of_cuts {s : State} (h : cuts alphanumeric s = true) (hsemicolon : s.delimiter = [';']) :
    ∃ tail, s.rest = ';' :: tail := by
  cases hrest : s.rest with
  | nil =>
      rw [cuts_of_rest_nil hrest] at h
      cases h
  | cons c tail =>
      simp only [cuts, hrest, hsemicolon, Bool.and_eq_true] at h
      obtain ⟨c', hprefix⟩ := List.isPrefixOf_iff_prefix.mp h.1.2
      exact ⟨tail, by rw [← (List.cons.inj hprefix).1]⟩

/-- Up to some offset the script is laid out; what follows is in the buffer or unread. -/
theorem laid_after (h : NoDirective alphanumeric script) (n : Nat) :
    (after alphanumeric script n).delimiter = [';'] ∧ ∃ m,
      Laid script (Gap alphanumeric script) m (after alphanumeric script n).statements ∧
      script.drop m = (after alphanumeric script n).buf ++ (after alphanumeric script n).rest := by
  induction n with
  | zero => exact ⟨rfl, 0, .start, rfl⟩
  | succ n ih =>
      obtain ⟨hsemicolon, m, hlaid, hread⟩ := ih
      by_cases hrest : (after alphanumeric script n).rest = []
      · rw [after_succ_of_rest_nil hrest]
        exact ⟨hsemicolon, m, hlaid, hread⟩
      · rw [after_succ]
        cases @turn_step alphanumeric _ hrest with
        | copies text hbuf hstatements hdelimiter htext =>
            refine ⟨hdelimiter.trans hsemicolon, m, hstatements ▸ hlaid, ?_⟩
            rw [hread, hbuf, htext hsemicolon, List.append_assoc]
        | directs hdirects =>
            have hno := (splitter alphanumeric).avoids_iff.mp h n
            exact absurd hdirects (Bool.eq_false_iff.mp hno)
        | cuts hcuts hbuf hstatements hdelimiter hnext =>
            obtain ⟨tail, htail⟩ := exists_of_cuts hcuts hsemicolon
            have hplace : script.drop (m + (after alphanumeric script n).buf.length) =
                (after alphanumeric script n).rest := by
              rw [← List.drop_drop, hread, List.drop_left]
            have hget : script[m + (after alphanumeric script n).buf.length]? = some ';' := by
              rw [← List.head?_drop, hplace, htail]
              rfl
            refine ⟨hdelimiter.trans hsemicolon, m + (after alphanumeric script n).buf.length + 1,
              ?_, ?_⟩
            · rw [hstatements]
              exact (laid_flush hlaid hread).gap hget (Or.inr ⟨rfl, n, hcuts, hplace.symm⟩)
            · rw [← List.drop_drop, hplace, hbuf, hnext, hsemicolon]
              rfl

/-- The statements of a script without directives stand in it in their order and without
overlap, none of them empty or with a blank at either end; what is outside of them is blank
or a semicolon at which the loop ends a statement. -/
theorem statements_are_slices (alphanumeric : Char → Bool) (script : List Char)
    (h : NoDirective alphanumeric script) :
    ∃ spans : List (Nat × Nat),
      splitSqlScript alphanumeric script = spans.map (slice script) ∧
      spans.Pairwise (fun a b => a.2 ≤ b.1) ∧
      (∀ span ∈ spans, span.1 < span.2 ∧ span.2 ≤ script.length ∧
        Text.trim (slice script span) = slice script span) ∧
      ∀ i c, script[i]? = some c → (∀ span ∈ spans, i < span.1 ∨ span.2 ≤ i) →
        Text.isWhitespace c = true ∨ c = ';' ∧ Terminator alphanumeric script i := by
  have hend := @after_end alphanumeric script script.length (Nat.le_refl _)
  have hread : (after alphanumeric script script.length).rest = [] := by
    rw [hend]
    exact (splitter alphanumeric).rest_finish _
  obtain ⟨-, m, hlaid, hdrop⟩ := laid_after h script.length
  rw [hread, List.append_nil] at hdrop
  have hall : Laid script (Gap alphanumeric script)
      (m + (after alphanumeric script script.length).buf.length)
      (splitSqlScript alphanumeric script) := by
    rw [splitSqlScript, ← hend]
    refine @laid_flush alphanumeric script m _ [] _ hlaid ?_
    rw [hdrop, List.append_nil]
  obtain ⟨spans, hpieces, hordered, hspans, hgaps⟩ := hall.exists_spans
  have hlength : script.length - m = (after alphanumeric script script.length).buf.length := by
    rw [← hdrop, List.length_drop]
  refine ⟨spans, hpieces, hordered, fun span hmem => ?_, fun i c hget hout => ?_⟩
  · have hstmt : slice script span ∈ splitSqlScript alphanumeric script := by
      rw [hpieces]
      exact List.mem_map_of_mem hmem
    have hne := (mem_splitSqlScript_iff.mp hstmt).2
    obtain ⟨hplace, hle⟩ := hspans span hmem
    have hpos := List.length_pos_of_ne_nil hne
    have hinside : span.2 ≤ script.length := by
      have hsize : (slice script span).length = min span.2 script.length - span.1 := by
        rw [slice, List.length_drop, List.length_take]
      omega
    exact ⟨by omega, hinside, trim_of_mem_splitSqlScript hstmt⟩
  · refine hgaps i c ?_ hget hout
    have hlt := (List.getElem?_eq_some_iff.mp hget).1
    omega

/-- A comment, a quoted semicolon and a last statement without a terminator. -/
theorem statements_are_slices_quoted :
    ∃ spans : List (Nat × Nat),
      ["-- c\nSELECT ';'".toList, "b".toList] =
        spans.map (slice " -- c\nSELECT ';' ;; b ".toList) := by
  obtain ⟨spans, hstatements, -⟩ := statements_are_slices Char.isAlphanum
    " -- c\nSELECT ';' ;; b ".toList (by decide +kernel)
  refine ⟨spans, ?_⟩
  rw [← hstatements]
  decide +kernel

end Dbmaster.SqlSplit.Preserve
