import Dbmaster.SqlSplit.Splitter
/-!
# The fragments of a script

The loop copies the script into a buffer, drops a delimiter directive, and cuts the
buffer off at a terminator outside of compound bodies.  What it returns are the
fragments, trimmed, that are not blank.
-/

namespace Dbmaster.SqlSplit.Fragments

open Dbmaster.Lib Dbmaster.SqlSplit.Splitter

section Turns

variable (alphanumeric : Char → Bool)

/-- The next turn of the loop reads a delimiter directive. -/
def directs (s : State) : Bool :=
  s.inQuote.isNone && isBlank s.buf && matchesDelimiterDirective alphanumeric s.rest

/-- The next turn of the loop reads a terminator, and the statement ends. -/
def cuts (s : State) : Bool :=
  match s.rest with
  | [] => false
  | c :: _ =>
    s.inQuote.isNone && !isLineCommentStart s.rest && !isBlockCommentStart s.rest &&
      !isQuoteStart c && !(isBlank s.buf && matchesDelimiterDirective alphanumeric s.rest) &&
      !matchKeyword alphanumeric "BEGIN" s.rest && matchesStr s.rest s.delimiter &&
      decide (s.beginDepth = 0)

/-- What a turn of the loop does. -/
inductive Turn (s s' : State) : Prop
  | copies (text : List Char) (hbuf : s'.buf = s.buf ++ text)
      (hstatements : s'.statements = s.statements) (hdelimiter : s'.delimiter = s.delimiter)
      (hread : s.delimiter = [';'] → s.rest = text ++ s'.rest)
      (hcuts : cuts alphanumeric s = false) (hne : text ≠ []) (hpart : text <+: s.rest) : Turn s s'
  | directs (hdirects : directs alphanumeric s = true) (hbuf : s'.buf = [])
      (hstatements : s'.statements = s.statements) (hcuts : cuts alphanumeric s = false) : Turn s s'
  | cuts (hcuts : cuts alphanumeric s = true) (hbuf : s'.buf = [])
      (hstatements : s'.statements = s.statements ++ flush s.buf)
      (hdelimiter : s'.delimiter = s.delimiter)
      (hrest : s'.rest = s.rest.drop (byteLen s.delimiter)) : Turn s s'

variable {alphanumeric} {s : State} {c : Char} {rest : List Char}

theorem turn_quoted (hrest : s.rest = c :: rest) {q : Char} (hquote : s.inQuote = some q) :
    Turn alphanumeric s (stepQuoted s q c rest) := by
  have hcuts : cuts alphanumeric s = false := by
    simp [cuts, hrest, hquote]
  unfold stepQuoted
  split
  case h_1 escaped rest =>
    exact .copies ['\\', escaped] rfl rfl rfl (fun _ => hrest) hcuts (List.cons_ne_nil _ _)
      ⟨rest, hrest.symm⟩
  case h_2 =>
    exact .copies [c] rfl rfl rfl (fun _ => hrest) hcuts (List.cons_ne_nil _ _) ⟨_, hrest.symm⟩

theorem turn_terminator (hrest : s.rest = c :: rest) (hquote : s.inQuote = none)
    (hline : isLineCommentStart s.rest = false) (hblock : isBlockCommentStart s.rest = false)
    (hopens : isQuoteStart c = false)
    (hdirective : (isBlank s.buf && matchesDelimiterDirective alphanumeric s.rest) = false)
    (hbegin : matchKeyword alphanumeric "BEGIN" s.rest = false)
    (hmatches : matchesStr s.rest s.delimiter = true) :
    Turn alphanumeric s (stepTerminator s) := by
  have hcuts : cuts alphanumeric s = decide (s.beginDepth = 0) := by
    rw [cuts, hrest]
    simp only []
    rw [← hrest, hquote, hline, hblock, hopens, hdirective, hbegin, hmatches]
    rfl
  unfold stepTerminator
  split
  case isTrue hdepth =>
    refine .copies s.delimiter rfl rfl rfl (fun hsemicolon => ?_) ?_ s.delimiter_ne
      (List.isPrefixOf_iff_prefix.mp hmatches)
    · obtain ⟨tail, htail⟩ := List.isPrefixOf_iff_prefix.mp hmatches
      rw [hsemicolon] at htail
      show s.rest = s.delimiter ++ s.rest.drop (byteLen s.delimiter)
      rw [hsemicolon, ← htail]
      rfl
    · rw [hcuts]
      exact decide_eq_false (by omega)
  case isFalse hdepth =>
    refine .cuts ?_ rfl rfl rfl rfl
    rw [hcuts]
    exact decide_eq_true (by omega)

theorem turn_plain (hrest : s.rest = c :: rest) (hquote : s.inQuote = none) :
    Turn alphanumeric s (stepPlain alphanumeric s c rest) := by
  have hcuts : ∀ b, (!isLineCommentStart s.rest && !isBlockCommentStart s.rest &&
      !isQuoteStart c && !(isBlank s.buf && matchesDelimiterDirective alphanumeric s.rest) &&
      !matchKeyword alphanumeric "BEGIN" s.rest && matchesStr s.rest s.delimiter) = b →
      b = false → cuts alphanumeric s = false := by
    rintro b hb rfl
    rw [cuts, hrest]
    simp only []
    rw [← hrest, hquote, Option.isNone_none, Bool.true_and, hb, Bool.false_and]
  unfold stepPlain
  by_cases hline : isLineCommentStart s.rest = true
  · rw [if_pos hline]
    refine .copies _ rfl rfl rfl (fun _ => List.takeWhile_append_dropWhile.symm)
      (hcuts _ rfl (by simp [hline])) (fun hnone => ?_) (List.takeWhile_prefix _)
    have hless := lineComment_reads hline
    have hsplit := congrArg List.length (List.takeWhile_append_dropWhile (p := (· != '\n')) (l := s.rest))
    rw [hnone, List.nil_append] at hsplit
    omega
  rw [if_neg hline]
  by_cases hblock : isBlockCommentStart s.rest = true
  · rw [if_pos hblock]
    have hsplit : s.rest = s.rest.take 2 ++ (blockTail (s.rest.drop 2)).1 ++
        (stepBlockComment s).rest := by
      calc s.rest = s.rest.take 2 ++ s.rest.drop 2 := (List.take_append_drop 2 s.rest).symm
        _ = s.rest.take 2 ++ ((blockTail (s.rest.drop 2)).1 ++ (blockTail (s.rest.drop 2)).2) := by
          rw [blockTail_append]
        _ = s.rest.take 2 ++ (blockTail (s.rest.drop 2)).1 ++ (stepBlockComment s).rest :=
          (List.append_assoc _ _ _).symm
    refine .copies (s.rest.take 2 ++ (blockTail (s.rest.drop 2)).1) (List.append_assoc _ _ _) rfl rfl
      (fun _ => hsplit) (hcuts _ rfl (by simp [hblock])) (fun hnone => ?_) ⟨_, hsplit.symm⟩
    have hless := blockComment_reads hblock
    have hlength := congrArg List.length hsplit
    rw [hnone, List.nil_append] at hlength
    exact absurd hlength (Nat.ne_of_gt hless)
  rw [if_neg hblock]
  by_cases hopens : isQuoteStart c = true
  · rw [if_pos hopens]
    exact .copies [c] rfl rfl rfl (fun _ => hrest) (hcuts _ rfl (by simp [hopens]))
      (List.cons_ne_nil _ _) ⟨rest, hrest.symm⟩
  rw [if_neg hopens]
  by_cases hdirective : (isBlank s.buf && matchesDelimiterDirective alphanumeric s.rest) = true
  · rw [if_pos hdirective]
    have hdirects : directs alphanumeric s = true := by
      rw [directs, hquote, Option.isNone_none, Bool.true_and, hdirective]
    have hno := hcuts _ rfl (by simp [hdirective])
    unfold stepDirective
    split
    · exact .directs hdirects rfl rfl hno
    · exact .directs hdirects rfl rfl hno
  rw [if_neg hdirective]
  by_cases hbegin : matchKeyword alphanumeric "BEGIN" s.rest = true
  · rw [if_pos hbegin]
    exact .copies _ rfl rfl rfl (fun _ => (List.take_append_drop 5 s.rest).symm)
      (hcuts _ rfl (by simp [hbegin])) (by simp [hrest]) (List.take_prefix _ _)
  rw [if_neg hbegin]
  by_cases hmatches : matchesStr s.rest s.delimiter = true
  · rw [if_pos hmatches]
    rw [Bool.not_eq_true] at hline hblock hopens hdirective hbegin
    exact turn_terminator hrest hquote hline hblock hopens hdirective hbegin hmatches
  rw [if_neg hmatches]
  have hno := hcuts _ rfl (by simp [hmatches])
  split
  · exact .copies _ rfl rfl rfl (fun _ => (List.take_append_drop 3 s.rest).symm) hno
      (by simp [hrest]) (List.take_prefix _ _)
  · exact .copies [c] rfl rfl rfl (fun _ => hrest) hno (List.cons_ne_nil _ _) ⟨rest, hrest.symm⟩

theorem turn_step (hrest : s.rest ≠ []) : Turn alphanumeric s (step alphanumeric s) := by
  obtain ⟨c, rest, hcons⟩ := List.exists_cons_of_ne_nil hrest
  cases hquote : s.inQuote with
  | some q =>
      simp only [step, hcons, hquote]
      exact turn_quoted hcons hquote
  | none =>
      simp only [step, hcons, hquote]
      exact turn_plain hcons hquote

end Turns

/-! ## The statements -/

section Statements

variable (alphanumeric : Char → Bool) (script : List Char)

/-- The loop over the script after `n` turns. -/
def after (n : Nat) : State := (splitter alphanumeric).step^[n] (start script)

/-- At a terminator, and at the end of the script. -/
def ends (s : State) : Bool := s.rest == [] || cuts alphanumeric s

/-- What the loop cuts off, without the blanks around it. -/
def Fragment (text : List Char) : Prop :=
  ∃ n, ends alphanumeric (after alphanumeric script n) = true ∧
    text = Text.trim (after alphanumeric script n).buf

variable {alphanumeric script} {text : List Char}

theorem after_succ (n : Nat) :
    after alphanumeric script (n + 1) = step alphanumeric (after alphanumeric script n) :=
  Function.iterate_succ_apply' _ _ _

theorem after_succ_of_rest_nil {n : Nat} (h : (after alphanumeric script n).rest = []) :
    after alphanumeric script (n + 1) = after alphanumeric script n := by
  rw [after_succ]
  exact (splitter alphanumeric).stops _ h

theorem mem_flush_iff {buf : List Char} : text ∈ flush buf ↔ text = Text.trim buf ∧ text ≠ [] := by
  unfold flush
  split
  case isTrue hempty =>
    rw [hempty]
    exact ⟨fun h => absurd h List.not_mem_nil, fun h => absurd h.1 h.2⟩
  case isFalse hne =>
    rw [List.mem_singleton]
    exact ⟨fun h => ⟨h, h ▸ hne⟩, And.left⟩

theorem cuts_of_rest_nil {s : State} (h : s.rest = []) : cuts alphanumeric s = false := by
  rw [cuts, h]

/-- What has been cut off before turn `n`. -/
theorem mem_statements_iff (n : Nat) : text ∈ (after alphanumeric script n).statements ↔
    ∃ k < n, cuts alphanumeric (after alphanumeric script k) = true ∧
      text ∈ flush (after alphanumeric script k).buf := by
  induction n with
  | zero =>
      constructor
      · intro h
        exact absurd h List.not_mem_nil
      · rintro ⟨k, hk, -⟩
        omega
  | succ n ih =>
      have hnext : text ∈ (after alphanumeric script (n + 1)).statements ↔
          text ∈ (after alphanumeric script n).statements ∨
            cuts alphanumeric (after alphanumeric script n) = true ∧
              text ∈ flush (after alphanumeric script n).buf := by
        by_cases hrest : (after alphanumeric script n).rest = []
        · rw [after_succ_of_rest_nil hrest, cuts_of_rest_nil hrest]
          simp
        · rw [after_succ]
          cases @turn_step alphanumeric _ hrest with
          | copies _ _ hstatements _ _ hcuts _ _ =>
              rw [hstatements, hcuts]
              simp
          | directs _ _ hstatements hcuts =>
              rw [hstatements, hcuts]
              simp
          | cuts hcuts _ hstatements =>
              rw [hstatements, hcuts, List.mem_append]
              simp
      rw [hnext, ih]
      constructor
      · rintro (⟨k, hk, hcut⟩ | hcut)
        · exact ⟨k, by omega, hcut⟩
        · exact ⟨n, by omega, hcut⟩
      · rintro ⟨k, hk, hcut⟩
        by_cases hlast : k = n
        · rw [hlast] at hcut
          exact Or.inr hcut
        · exact Or.inl ⟨k, by omega, hcut⟩

theorem after_end (n : Nat) (h : script.length ≤ n) :
    after alphanumeric script n = (splitter alphanumeric).finish (start script) :=
  (splitter alphanumeric).iterate_eq_finish ((splitter alphanumeric).rest_iterate_of_le n _ h)

theorem mem_splitSqlScript_iff :
    text ∈ splitSqlScript alphanumeric script ↔ Fragment alphanumeric script text ∧ text ≠ [] := by
  have hend := @after_end alphanumeric script script.length (Nat.le_refl _)
  have hread : (after alphanumeric script script.length).rest = [] := by
    rw [hend]
    exact (splitter alphanumeric).rest_finish _
  have houtput : text ∈ splitSqlScript alphanumeric script ↔
      text ∈ (after alphanumeric script script.length).statements ∨
        text ∈ flush (after alphanumeric script script.length).buf := by
    rw [splitSqlScript, ← hend, State.output, List.mem_append]
  rw [houtput, mem_statements_iff]
  constructor
  · rintro (⟨k, -, hcuts, hmem⟩ | hmem)
    · obtain ⟨htext, hne⟩ := mem_flush_iff.mp hmem
      exact ⟨⟨k, by rw [ends, hcuts, Bool.or_true], htext⟩, hne⟩
    · obtain ⟨htext, hne⟩ := mem_flush_iff.mp hmem
      exact ⟨⟨script.length, by rw [ends, hread]; rfl, htext⟩, hne⟩
  · rintro ⟨⟨n, hends, htext⟩, hne⟩
    have hmem : text ∈ flush (after alphanumeric script n).buf := mem_flush_iff.mpr ⟨htext, hne⟩
    rw [ends, Bool.or_eq_true, beq_iff_eq] at hends
    rcases hends with hrest | hcuts
    · right
      have hsame : after alphanumeric script n = after alphanumeric script script.length := by
        rw [hend]
        exact (splitter alphanumeric).iterate_eq_finish hrest
      rw [← hsame]
      exact hmem
    · left
      have hlt : n < script.length := by
        by_contra hle
        rw [after_end n (by omega), ← hend, cuts_of_rest_nil hread] at hcuts
        cases hcuts
      exact ⟨n, hlt, hcuts, hmem⟩

theorem trim_of_fragment (h : Fragment alphanumeric script text) : Text.trim text = text := by
  obtain ⟨n, -, htext⟩ := h
  rw [htext, Text.trim_trim]

theorem trim_of_mem_splitSqlScript (h : text ∈ splitSqlScript alphanumeric script) :
    Text.trim text = text :=
  trim_of_fragment (mem_splitSqlScript_iff.mp h).1

end Statements

end Dbmaster.SqlSplit.Fragments
