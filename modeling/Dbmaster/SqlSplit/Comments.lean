import Dbmaster.SqlSplit.CommentSyntax
import Dbmaster.SqlSplit.Engine
import Dbmaster.SqlSplit.Fragments
import Mathlib.Logic.Relation
/-!
# Comments in front of statements

A comment is copied into the buffer like any other text.  A fragment of comments alone is
therefore a statement, and the whitelist looks for its keywords in front of the comments.
-/

namespace Dbmaster.SqlSplit.Comments

open Dbmaster.Lib Dbmaster.SqlSplit.Splitter Dbmaster.SqlSplit.Fragments
open Dbmaster.SqlSplit.CommentSyntax Dbmaster.SqlSplit.DdlWhitelist

/-! ## What should hold -/

section Law

variable (alphanumeric : Char → Bool)

def Passes (script : List Char) : Prop := rejected (splitSqlScript alphanumeric script) = none

def IsComment (note text : List Char) : Prop :=
  isCommentStart (note ++ text) = true ∧
    (afterComment (note ++ text) = text ∨ afterComment (note ++ text) = '\n' :: text)

/-- The loop is before, between or after the statements. -/
def Gap (s : State) : Prop :=
  s.inQuote = none ∧ (isBlank s.buf = true ∨ ends alphanumeric s = true)

/-- One more comment is in a gap of the script. -/
def Inserts (script commented : List Char) : Prop :=
  ∃ n note, Gap alphanumeric (after alphanumeric script n) ∧
    IsComment note (after alphanumeric script n).rest ∧
    commented = script.take (script.length - (after alphanumeric script n).rest.length) ++ note ++
      (after alphanumeric script n).rest

def Commented (script : List Char) : List Char → Prop :=
  Relation.ReflTransGen (Inserts alphanumeric) script

/-- Every statement has a token, and comments around the statements of a script that is made
of DDL do not make the whitelist reject it. -/
structure CommentsIgnored (script : List Char) : Prop where
  tokens : ∀ stmt ∈ splitSqlScript alphanumeric script, skipComments stmt ≠ []
  accepted : Passes alphanumeric script →
    ∀ commented, Commented alphanumeric script commented → Passes alphanumeric commented

/-! ## A comment alone -/

/-- The loop behind the blanks and comments that it has before it. -/
def behindComments (s : State) : State :=
  { s with rest := skipComments s.rest, buf := s.buf ++ lead s.rest }

/-- The fragment ends behind two dashes, which are a comment where no text follows. -/
def dashesAlone (s : State) : Bool :=
  !ends alphanumeric s && !ends alphanumeric (step alphanumeric s) &&
    ends alphanumeric (step alphanumeric (step alphanumeric s)) &&
    (step alphanumeric (step alphanumeric s)).buf == s.buf ++ ['-', '-']

/-- At the start of a fragment, the loop has comments before it and then the end of the
fragment. -/
def commentAlone (s : State) : Bool :=
  s.inQuote.isNone && isBlank s.buf &&
    (ends alphanumeric (behindComments s) && !isBlank (behindComments s).buf ||
      dashesAlone alphanumeric (behindComments s))

/-! ## The fragment that is being read -/

/-- The text is in the buffer when the fragment that the loop reads ends. -/
inductive Collects : State → List Char → Prop
  | here {s : State} (h : ends alphanumeric s = true) : Collects s s.buf
  | later {s : State} {text : List Char} (h : ends alphanumeric s = false)
      (hrest : Collects (step alphanumeric s) text) : Collects s text

end Law

variable {alphanumeric : Char → Bool} {script : List Char} {s : State} {text : List Char}

theorem rest_ne_nil_of_ends (h : ends alphanumeric s = false) : s.rest ≠ [] := by
  intro hnil
  rw [ends, hnil] at h
  cases h

theorem cuts_of_ends (h : ends alphanumeric s = false) : cuts alphanumeric s = false := by
  rw [ends, Bool.or_eq_false_iff] at h
  exact h.2

theorem exists_collects (s : State) : ∃ text, Collects alphanumeric s text := by
  by_cases h : ends alphanumeric s = true
  · exact ⟨s.buf, .here h⟩
  · rw [Bool.not_eq_true] at h
    have hless := step_reads alphanumeric s (rest_ne_nil_of_ends h)
    obtain ⟨text, hrest⟩ := exists_collects (step alphanumeric s)
    exact ⟨text, .later h hrest⟩
termination_by s.rest.length

theorem collects_of_ends (h : ends alphanumeric s = true) :
    Collects alphanumeric s text ↔ text = s.buf := by
  constructor
  · rintro (hhere | ⟨hlater, -⟩)
    · rfl
    · rw [h] at hlater
      cases hlater
  · rintro rfl
    exact .here h

theorem collects_step (h : ends alphanumeric s = false) :
    Collects alphanumeric s text ↔ Collects alphanumeric (step alphanumeric s) text := by
  constructor
  · rintro (hhere | ⟨-, hrest⟩)
    · rw [h] at hhere
      cases hhere
    · exact hrest
  · exact .later h

theorem fragment_of_collects {n : Nat}
    (h : Collects alphanumeric (after alphanumeric script n) text) :
    Fragment alphanumeric script (Text.trim text) := by
  generalize hs : after alphanumeric script n = s at h
  induction h generalizing n with
  | here h =>
      subst hs
      exact ⟨n, h, rfl⟩
  | later h hrest ih => exact ih (by rw [after_succ, hs])

theorem collects_append (h : Collects alphanumeric s text) (hbuf : isBlank s.buf = false) :
    ∃ y, text = s.buf ++ y ∧
      (ends alphanumeric s = true ∧ y = [] ∨
        ends alphanumeric s = false ∧ y ≠ [] ∧ y.head? = s.rest.head?) := by
  induction h with
  | here h => exact ⟨[], (List.append_nil _).symm, Or.inl ⟨h, rfl⟩⟩
  | @later s text h hrest ih =>
      cases @turn_step alphanumeric s (rest_ne_nil_of_ends h) with
      | copies part hcopy _ _ _ _ hne hpart =>
          have hnext : isBlank (step alphanumeric s).buf = false := by
            rw [hcopy, ← Bool.not_eq_true, isBlank_append]
            rintro ⟨hblank, -⟩
            rw [hbuf] at hblank
            cases hblank
          obtain ⟨y, rfl, -⟩ := ih hnext
          refine ⟨part ++ y, by rw [hcopy, List.append_assoc], Or.inr ⟨h, ?_, ?_⟩⟩
          · exact List.append_ne_nil_of_left_ne_nil hne y
          · obtain ⟨c, part, rfl⟩ := List.exists_cons_of_ne_nil hne
            obtain ⟨tail, htail⟩ := hpart
            rw [← htail]
            rfl
      | directs hdirects =>
          rw [directs, hbuf, Bool.and_false, Bool.false_and] at hdirects
          cases hdirects
      | cuts hcuts =>
          rw [cuts_of_ends h] at hcuts
          cases hcuts

/-! ## Single turns -/

/-- Outside quotes and compound bodies, with a delimiter that starts with no blank. -/
structure Outside (s : State) : Prop where
  quote : s.inQuote = none
  depth : s.beginDepth = 0
  delimiter : ∀ c rest, s.delimiter = c :: rest → Text.isWhitespace c = false

theorem step_of_plain {c : Char} {rest : List Char} (hrest : s.rest = c :: rest)
    (hquote : s.inQuote = none) : step alphanumeric s = stepPlain alphanumeric s c rest := by
  simp only [step, hrest, hquote]

theorem step_comment (h : Outside s) (hstart : isCommentStart s.rest = true) :
    ends alphanumeric s = false ∧ step alphanumeric s =
      { s with rest := afterComment s.rest, buf := s.buf ++ noteOf s.rest } := by
  obtain ⟨c, rest, hrest, -⟩ := comment_head hstart
  rw [step_of_plain hrest h.quote]
  unfold stepPlain afterComment noteOf
  by_cases hline : isLineCommentStart s.rest = true
  · have hends : ends alphanumeric s = false := by
      simp only [ends, cuts, hrest]
      rw [← hrest, hline]
      simp [hrest]
    rw [if_pos hline, if_pos hline, if_pos hline]
    exact ⟨hends, rfl⟩
  · have hblock : isBlockCommentStart s.rest = true := by
      rwa [isCommentStart, Bool.eq_false_iff.mpr hline, Bool.false_or] at hstart
    have hends : ends alphanumeric s = false := by
      simp only [ends, cuts, hrest]
      rw [← hrest, hblock]
      simp [hrest]
    rw [if_neg hline, if_neg hline, if_neg hline, if_pos hblock]
    refine ⟨hends, ?_⟩
    rw [stepBlockComment, List.append_assoc]

theorem step_char (h : Outside s) {c : Char} {rest : List Char} (hrest : s.rest = c :: rest)
    (hstart : isCommentStart s.rest = false) (hopens : isQuoteStart c = false)
    (hdirective : (isBlank s.buf && matchesDelimiterDirective alphanumeric s.rest) = false)
    (hbegin : matchKeyword alphanumeric "BEGIN" s.rest = false)
    (hmatches : matchesStr s.rest s.delimiter = false) :
    ends alphanumeric s = false ∧
      step alphanumeric s = { s with rest := rest, buf := s.buf ++ [c] } := by
  rw [isCommentStart, Bool.or_eq_false_iff] at hstart
  constructor
  · have hcuts : cuts alphanumeric s = false := by
      simp only [cuts, hrest]
      rw [← hrest, hmatches, Bool.and_false, Bool.false_and]
    rw [ends, hcuts, hrest]
    rfl
  · rw [step_of_plain hrest h.quote]
    unfold stepPlain
    simp only [hstart.1, hstart.2, hopens, hdirective, hbegin, hmatches, h.depth,
      Bool.false_eq_true, if_false, Nat.lt_irrefl, decide_false, Bool.false_and]

theorem step_blank (h : Outside s) {c : Char} {rest : List Char} (hrest : s.rest = c :: rest)
    (hc : Text.isWhitespace c = true) :
    ends alphanumeric s = false ∧
      step alphanumeric s = { s with rest := rest, buf := s.buf ++ [c] } := by
  have hno : ∀ {p : Bool}, (p = true → Text.isWhitespace c = false) → p = false := by
    intro p hp
    cases p with
    | false => rfl
    | true => exact absurd (hp rfl) (by rw [hc]; decide)
  apply step_char h hrest
  · exact hno fun hstart => isWhitespace_head (hrest ▸ hstart)
  · exact hno isQuoteStart_not_whitespace
  · refine hno fun hdirective => ?_
    rw [hrest, Bool.and_eq_true] at hdirective
    exact (delimiter_plain hdirective.2).2.1
  · exact hno fun hbegin => (begin_plain (hrest ▸ hbegin)).2.1
  · refine hno fun hmatches => ?_
    obtain ⟨d, delimiter, hdelimiter⟩ := List.exists_cons_of_ne_nil s.delimiter_ne
    obtain ⟨tail, htail⟩ := List.isPrefixOf_iff_prefix.mp hmatches
    rw [hdelimiter, hrest] at htail
    rw [← (List.cons.inj htail).1]
    exact h.delimiter d delimiter hdelimiter

theorem step_directs (h : directs alphanumeric s = true) :
    step alphanumeric s = stepDirective s := by
  rw [directs, Bool.and_eq_true, Bool.and_eq_true, Option.isNone_iff_eq_none] at h
  obtain ⟨⟨hquote, hblank⟩, hdirective⟩ := h
  cases hrest : s.rest with
  | nil =>
      rw [hrest] at hdirective
      cases hdirective
  | cons c rest =>
      rw [hrest] at hdirective
      obtain ⟨hopens, -, hplain⟩ := delimiter_plain hdirective
      obtain ⟨hline, hblock⟩ := not_comment hplain rest
      rw [step_of_plain hrest hquote]
      unfold stepPlain
      rw [hrest]
      simp only [hline, hblock, hopens, hblank, hdirective, Bool.false_eq_true, if_false,
        Bool.and_self, if_true]

theorem step_cuts (h : cuts alphanumeric s = true) :
    s.inQuote = none ∧ s.beginDepth = 0 ∧ step alphanumeric s =
      { s with
        rest := s.rest.drop (byteLen s.delimiter)
        buf := []
        statements := s.statements ++ flush s.buf } := by
  cases hrest : s.rest with
  | nil =>
      rw [cuts_of_rest_nil hrest] at h
      cases h
  | cons c rest =>
      simp only [cuts, hrest, Bool.and_eq_true, Bool.not_eq_true', decide_eq_true_eq,
        Option.isNone_iff_eq_none] at h
      obtain ⟨⟨⟨⟨⟨⟨⟨hquote, hline⟩, hblock⟩, hopens⟩, hdirective⟩, hbegin⟩, hmatches⟩, hdepth⟩ := h
      refine ⟨hquote, hdepth, ?_⟩
      rw [step_of_plain hrest hquote]
      unfold stepPlain stepTerminator
      rw [hrest]
      simp only [hline, hblock, hopens, hdirective, hbegin, hmatches, hdepth, Bool.false_eq_true,
        if_false, if_true, Nat.lt_irrefl]

/-! ## Every state of the loop -/

/-- A buffer that is blank is that of a statement to come. -/
structure Tidy (s : State) : Prop where
  delimiter : ∀ c rest, s.delimiter = c :: rest → Text.isWhitespace c = false
  fresh : isBlank s.buf = true → s.inQuote = none ∧ s.beginDepth = 0

theorem Tidy.outside (h : Tidy s) (hblank : isBlank s.buf = true) : Outside s :=
  ⟨(h.fresh hblank).1, (h.fresh hblank).2, h.delimiter⟩

theorem newDelimiter_head {chars : List Char} {c : Char} {rest : List Char}
    (h : newDelimiter chars = c :: rest) : Text.isWhitespace c = false := by
  unfold newDelimiter at h
  have hstart := Text.trimStart_of_part (Text.trim_isPart
    (((chars.drop 9).dropWhile fun c => Text.isWhitespace c && c != '\n').takeWhile (· != '\n')))
  rw [h, Text.trimStart] at hstart
  have hnot := List.head?_dropWhile_not Text.isWhitespace (c :: rest)
  rw [hstart] at hnot
  simpa using hnot

theorem tidy_stepDirective (h : Tidy s) (hblank : isBlank s.buf = true) :
    Tidy (stepDirective s) := by
  unfold stepDirective
  split
  case isTrue => exact ⟨h.delimiter, fun _ => h.fresh hblank⟩
  case isFalse => exact ⟨fun c rest hnew => newDelimiter_head hnew, fun _ => h.fresh hblank⟩

theorem tidy_step (h : Tidy s) : Tidy (step alphanumeric s) := by
  by_cases hrest : s.rest = []
  · have hstop : step alphanumeric s = s := (splitter alphanumeric).stops s hrest
    rwa [hstop]
  cases @turn_step alphanumeric s hrest with
  | copies part hcopy _ hdelimiter _ _ hne hpart =>
      refine ⟨fun c rest hc => h.delimiter c rest (hdelimiter ▸ hc), fun hblank => ?_⟩
      rw [hcopy, isBlank_append] at hblank
      obtain ⟨c, part, rfl⟩ := List.exists_cons_of_ne_nil hne
      obtain ⟨tail, htail⟩ := hpart
      have hc := isBlank_iff.mp hblank.2 c List.mem_cons_self
      rw [(step_blank (h.outside hblank.1) htail.symm hc).2]
      exact h.fresh hblank.1
  | directs hdirects =>
      rw [step_directs hdirects]
      rw [directs, Bool.and_eq_true, Bool.and_eq_true] at hdirects
      exact tidy_stepDirective h hdirects.1.2
  | cuts hcuts =>
      obtain ⟨hquote, hdepth, hstep⟩ := step_cuts hcuts
      rw [hstep]
      exact ⟨h.delimiter, fun _ => ⟨hquote, hdepth⟩⟩

theorem tidy_after (n : Nat) : Tidy (after alphanumeric script n) := by
  induction n with
  | zero =>
      refine ⟨fun c rest hc => ?_, fun _ => ⟨rfl, rfl⟩⟩
      cases hc
      decide
  | succ n ih =>
      rw [after_succ]
      exact tidy_step ih

/-! ## The first token of a fragment -/

theorem behindComments_eq_self (h : skipComments s.rest = s.rest) : behindComments s = s := by
  unfold behindComments lead
  rw [h, Nat.sub_self, List.take_zero, List.append_nil]

theorem collects_behind (h : Outside s) :
    Collects alphanumeric s text ↔ Collects alphanumeric (behindComments s) text := by
  generalize hrest : s.rest = ahead
  induction ahead using text_induction generalizing s with
  | hnil => rw [behindComments_eq_self (by rw [hrest]; rfl)]
  | hblank c ahead hc ih =>
      obtain ⟨hends, hstep⟩ := @step_blank alphanumeric s h c ahead hrest hc
      have hsame : behindComments s = behindComments (step alphanumeric s) := by
        rw [hstep]
        simp [behindComments, hrest, skipComments_blank hc, lead_blank hc]
      rw [collects_step hends, hsame, hstep]
      exact ih ⟨h.quote, h.depth, h.delimiter⟩ rfl
  | hcomment ahead hstart ih =>
      obtain ⟨hends, hstep⟩ := @step_comment alphanumeric s h (hrest ▸ hstart)
      have hsame : behindComments s = behindComments (step alphanumeric s) := by
        rw [hstep]
        simp [behindComments, hrest, skipComments_comment hstart, lead_comment hstart]
      rw [collects_step hends, hsame, hstep, hrest]
      exact ih ⟨h.quote, h.depth, h.delimiter⟩ rfl
  | htoken c ahead hc hstart =>
      rw [behindComments_eq_self (by rw [hrest, skipComments_token hc hstart])]

/-- The loop is before a token, and neither a directive nor the end of the fragment. -/
structure AtToken (alphanumeric : Char → Bool) (s : State) : Prop extends Outside s where
  ends : ends alphanumeric s = false
  start : isCommentStart s.rest = false
  head : ∀ c rest, s.rest = c :: rest → Text.isWhitespace c = false
  directive : (isBlank s.buf && matchesDelimiterDirective alphanumeric s.rest) = false

theorem AtToken.step_sign (h : AtToken alphanumeric s) {c : Char} {rest : List Char}
    (hrest : s.rest = c :: rest) (hc : c = '-' ∨ c = '/') :
    step alphanumeric s = { s with rest := rest, buf := s.buf ++ [c] } := by
  have hopens : isQuoteStart c = false := by
    rcases hc with rfl | rfl <;> rfl
  have hbegin : matchKeyword alphanumeric "BEGIN" s.rest = false := by
    rw [← Bool.not_eq_true, hrest]
    intro hbegin
    obtain ⟨-, -, -, hdash, hslash⟩ := begin_plain hbegin
    exact hc.elim hdash hslash
  have hmatches : matchesStr s.rest s.delimiter = false := by
    have hstart := h.start
    have hcuts := cuts_of_ends h.ends
    rw [isCommentStart, Bool.or_eq_false_iff] at hstart
    simp only [cuts, hrest] at hcuts
    rw [← hrest, h.quote, hstart.1, hstart.2, hopens, h.directive, hbegin, h.depth] at hcuts
    simpa using hcuts
  exact (step_char h.toOutside hrest h.start hopens h.directive hbegin hmatches).2

theorem AtToken.copies (h : AtToken alphanumeric s) {c : Char} {rest : List Char}
    (hrest : s.rest = c :: rest) :
    ∃ part, (step alphanumeric s).buf = s.buf ++ c :: part := by
  cases @turn_step alphanumeric s (rest_ne_nil_of_ends h.ends) with
  | copies part hcopy _ _ _ _ hne hpart =>
      obtain ⟨d, part, rfl⟩ := List.exists_cons_of_ne_nil hne
      obtain ⟨tail, htail⟩ := hpart
      rw [hrest] at htail
      rw [(List.cons.inj htail).1] at hcopy
      exact ⟨part, hcopy⟩
  | directs hdirects =>
      rw [directs, Bool.and_assoc, h.directive, Bool.and_false] at hdirects
      cases hdirects
  | cuts hcuts =>
      rw [cuts_of_ends h.ends] at hcuts
      cases hcuts

/-- The fragment behind a sign that starts no comment. -/
theorem collects_sign (h : AtToken alphanumeric s) {c : Char} {rest y : List Char}
    (hrest : s.rest = c :: rest) (hc : c = '-' ∨ c = '/')
    (hcollects : Collects alphanumeric s (s.buf ++ c :: y)) :
    Collects alphanumeric (step alphanumeric s) (s.buf ++ c :: y) ∧
      (ends alphanumeric (step alphanumeric s) = true ∧ y = [] ∨
        ends alphanumeric (step alphanumeric s) = false ∧ y ≠ [] ∧ y.head? = rest.head?) := by
  have hstep := h.step_sign hrest hc
  have hnext := (collects_step h.ends).mp hcollects
  have hbuf : isBlank (step alphanumeric s).buf = false := by
    rw [hstep]
    exact not_isBlank_append_cons (h.head c rest hrest) _ _
  obtain ⟨z, hz, hgoes⟩ := collects_append hnext hbuf
  have hzy : y = z := by
    rw [hstep] at hz
    simpa using hz
  subst hzy
  refine ⟨hnext, ?_⟩
  rwa [hstep] at hgoes ⊢

/-- A dash that starts no comment in the script starts none in the fragment, unless a second
one ends the fragment. -/
theorem AtToken.collects_dash (h : AtToken alphanumeric s)
    (hdashes : dashesAlone alphanumeric s = false) {rest y : List Char} (hrest : s.rest = '-' :: rest)
    (hcollects : Collects alphanumeric s (s.buf ++ '-' :: y)) :
    isCommentStart ('-' :: y) = false := by
  rw [← Bool.not_eq_true, isCommentStart_dash_iff]
  -- the fragment goes on with a dash, and then with a blank or not at all
  rintro ⟨y, rfl, hblank⟩
  have hstep := h.step_sign hrest (Or.inl rfl)
  obtain ⟨hfirst, hgoes⟩ := collects_sign h hrest (Or.inl rfl) hcollects
  obtain ⟨hends, -, hhead⟩ := hgoes.resolve_left fun hnone => List.cons_ne_nil _ _ hnone.2
  obtain ⟨rest, rfl⟩ := List.head?_eq_some_iff.mp hhead.symm
  rw [hstep] at hfirst hends
  have houtside : Outside { s with rest := '-' :: rest, buf := s.buf ++ ['-'] } :=
    ⟨h.quote, h.depth, h.delimiter⟩
  have hbuf : isBlank (s.buf ++ ['-']) = false := not_isBlank_append_cons (by decide) _ _
  by_cases hstart : isCommentStart ('-' :: rest) = true
  · -- the second dash starts a comment, so that a third one follows
    obtain ⟨note, hnote⟩ := noteOf_dash hstart
    have hsecond := (collects_step hends).mp hfirst
    rw [(step_comment houtside hstart).2, hnote] at hsecond
    obtain ⟨z, hz, -⟩ := collects_append hsecond (not_isBlank_append_cons (by decide) _ _)
    have hy : y = '-' :: (note ++ z) := by simpa using hz
    rw [hy] at hblank
    exact absurd (hblank '-' rfl) (by decide)
  · have hat : AtToken alphanumeric { s with rest := '-' :: rest, buf := s.buf ++ ['-'] } :=
      { houtside with
        ends := hends
        start := Bool.eq_false_iff.mpr hstart
        head := fun c tail heq => by
          cases heq
          decide
        directive := by rw [hbuf, Bool.false_and] }
    rw [List.append_cons _ _ ('-' :: y)] at hfirst
    obtain ⟨-, hgoes'⟩ := collects_sign hat rfl (Or.inl rfl) hfirst
    rcases hgoes' with ⟨hends', -⟩ | ⟨-, -, hhead'⟩
    · rw [dashesAlone, h.ends, hstep, hends, hends', hat.step_sign rfl (Or.inl rfl)] at hdashes
      simp at hdashes
    · have hstart' : isCommentStart s.rest = true := by
        rw [hrest, isCommentStart_dash_iff]
        exact ⟨rest, rfl, hhead' ▸ hblank⟩
      rw [h.start] at hstart'
      cases hstart'

theorem AtToken.collects (h : AtToken alphanumeric s) (hdashes : dashesAlone alphanumeric s = false)
    (hcollects : Collects alphanumeric s text) :
    ∃ c y, text = s.buf ++ c :: y ∧ Text.isWhitespace c = false ∧
      isCommentStart (c :: y) = false := by
  obtain ⟨c, rest, hrest⟩ := List.exists_cons_of_ne_nil (rest_ne_nil_of_ends h.ends)
  have hc := h.head c rest hrest
  obtain ⟨part, hcopy⟩ := h.copies hrest
  have hnext : isBlank (step alphanumeric s).buf = false := by
    rw [hcopy]
    exact not_isBlank_append_cons hc _ _
  obtain ⟨y, rfl, hgoes⟩ := collects_append ((collects_step h.ends).mp hcollects) hnext
  refine ⟨c, part ++ y, by rw [hcopy, List.append_assoc, List.cons_append], hc, ?_⟩
  by_contra hstart
  rw [Bool.not_eq_false] at hstart
  obtain ⟨d, tail, heq, hd⟩ := comment_head hstart
  obtain ⟨rfl, -⟩ := List.cons.inj heq
  have hno := h.start
  rw [hrest] at hno
  rcases hd with rfl | hsign
  · cases hno
  have hstep := h.step_sign hrest hsign
  have hpart : part = [] := by
    rw [hstep] at hcopy
    simpa using hcopy
  subst hpart
  rw [hcopy, List.append_assoc, List.cons_append] at hcollects
  rw [List.nil_append] at hstart hcollects
  rcases hsign with rfl | rfl
  · rw [h.collects_dash hdashes hrest hcollects] at hstart
    cases hstart
  · have hline : isLineCommentStart ('/' :: y) = false := rfl
    rw [isCommentStart, hline, Bool.false_or, isBlockCommentStart_iff] at hstart
    obtain ⟨y', hy'⟩ := hstart
    obtain ⟨-, rfl⟩ := List.cons.inj hy'
    obtain ⟨-, -, hhead⟩ := hgoes.resolve_left fun hnone => List.cons_ne_nil _ _ hnone.2
    rw [hstep] at hhead
    obtain ⟨rest', rfl⟩ := List.head?_eq_some_iff.mp hhead.symm
    cases hno

/-! ## Statements without a token -/

theorem isBlank_eq_false_iff : isBlank text = false ↔ Text.trim text ≠ [] :=
  beq_eq_false_iff_ne

theorem mem_of_collects {n : Nat} (h : Collects alphanumeric (after alphanumeric script n) text)
    (hne : isBlank text = false) : Text.trim text ∈ splitSqlScript alphanumeric script :=
  mem_splitSqlScript_iff.mpr ⟨fragment_of_collects h, isBlank_eq_false_iff.mp hne⟩

theorem atToken_behind (h : Outside s) (hends : ends alphanumeric (behindComments s) = false)
    (hdirective : (isBlank (behindComments s).buf &&
      matchesDelimiterDirective alphanumeric (behindComments s).rest) = false) :
    AtToken alphanumeric (behindComments s) := by
  obtain ⟨hdrop, hcomment⟩ := blanksAndComments.token_skip s.rest
  refine ⟨⟨h.quote, h.depth, h.delimiter⟩, hends, ?_, fun c rest hrest => ?_, hdirective⟩
  · by_contra hstart
    have hsome : blanksAndComments.comment (skipComments s.rest) =
        some (afterComment (skipComments s.rest)) := if_pos (Bool.not_eq_false _ ▸ hstart)
    cases hcomment.symm.trans hsome
  · have hnot := List.head?_dropWhile_not Text.isWhitespace (skipComments s.rest)
    have hsame : (skipComments s.rest).dropWhile Text.isWhitespace = c :: rest :=
      hdrop.trans hrest
    rw [hsame] at hnot
    simpa using hnot

theorem isBlank_step_of_directive (h : Outside s)
    (hdirective : (isBlank (behindComments s).buf &&
      matchesDelimiterDirective alphanumeric (behindComments s).rest) = true) :
    isBlank (step alphanumeric s).buf = true := by
  rw [Bool.and_eq_true] at hdirective
  obtain ⟨hblank, hdelimiter⟩ := hdirective
  obtain ⟨hbuf, hlead⟩ := isBlank_append.mp hblank
  have hsplit := lead_append_skip s.rest
  cases hfirst : lead s.rest with
  | nil =>
      rw [hfirst, List.nil_append] at hsplit
      rw [behindComments_eq_self hsplit] at hdelimiter
      have hdirects : directs alphanumeric s = true := by
        rw [directs, h.quote, hbuf, hdelimiter]
        rfl
      rw [step_directs hdirects]
      unfold stepDirective
      split <;> rfl
  | cons c blank =>
      rw [hfirst] at hsplit hlead
      have hc := isBlank_iff.mp hlead c List.mem_cons_self
      rw [(step_blank h hsplit.symm hc).2]
      exact isBlank_append.mpr ⟨hbuf, isBlank_iff.mpr fun d hd => List.mem_singleton.mp hd ▸ hc⟩

theorem token_of_collects (h : Collects alphanumeric s text) (htidy : Tidy s)
    (hblank : isBlank s.buf = true)
    (havoids : ∀ n, commentAlone alphanumeric ((step alphanumeric)^[n] s) = false)
    (hne : isBlank text = false) : skipComments text ≠ [] := by
  induction h with
  | here =>
      rw [hblank] at hne
      cases hne
  | @later s text hends hrest ih =>
      by_cases hnext : isBlank (step alphanumeric s).buf = true
      · exact ih (tidy_step htidy) hnext (fun n => havoids (n + 1)) hne
      have hout := htidy.outside hblank
      have hcollects := (collects_behind hout).mp (.later hends hrest)
      have hno : commentAlone alphanumeric s = false := havoids 0
      rw [commentAlone, hout.quote, hblank, Option.isNone_none, Bool.true_and, Bool.true_and,
        Bool.or_eq_false_iff] at hno
      obtain ⟨halone, hdashes⟩ := hno
      by_cases hbehind : ends alphanumeric (behindComments s) = true
      · rw [(collects_of_ends hbehind).mp hcollects] at hne
        rw [hbehind, hne] at halone
        cases halone
      rw [Bool.not_eq_true] at hbehind
      have hdirective : (isBlank (behindComments s).buf &&
          matchesDelimiterDirective alphanumeric (behindComments s).rest) = false := by
        by_contra hdirective
        exact hnext (isBlank_step_of_directive hout (Bool.not_eq_false _ ▸ hdirective))
      obtain ⟨c, y, rfl, hc, hstart⟩ :=
        (atToken_behind hout hbehind hdirective).collects hdashes hcollects
      have hahead : skipComments s.rest ≠ [] := rest_ne_nil_of_ends hbehind
      show skipComments (s.buf ++ lead s.rest ++ c :: y) ≠ []
      rw [List.append_assoc, skipComments_blanks (isBlank_iff.mp hblank),
        skip_lead_append (fun hnil => absurd hnil hahead), skipComments_token hc hstart]
      exact List.cons_ne_nil _ _

theorem token_of_avoids
    (h : (splitter alphanumeric).Avoids (commentAlone alphanumeric) (start script)) {n : Nat}
    (hcollects : Collects alphanumeric (after alphanumeric script n) text)
    (hne : isBlank text = false) : skipComments text ≠ [] := by
  have havoids : ∀ m k, commentAlone alphanumeric
      ((step alphanumeric)^[k] (after alphanumeric script m)) = false := by
    intro m k
    have hno := (splitter alphanumeric).avoids_iff.mp h (k + m)
    rwa [Function.iterate_add_apply] at hno
  induction n with
  | zero => exact token_of_collects hcollects (tidy_after 0) rfl (havoids 0) hne
  | succ n ih =>
      by_cases hends : ends alphanumeric (after alphanumeric script n) = true
      · by_cases hrest : (after alphanumeric script n).rest = []
        · rw [after_succ_of_rest_nil hrest] at hcollects
          exact ih hcollects
        · have hcuts : cuts alphanumeric (after alphanumeric script n) = true := by
            rw [ends, Bool.or_eq_true, beq_iff_eq] at hends
            exact hends.resolve_left hrest
          refine token_of_collects hcollects (tidy_after _) ?_ (havoids _) hne
          rw [after_succ, (step_cuts hcuts).2.2]
          rfl
      · rw [Bool.not_eq_true] at hends
        rw [after_succ] at hcollects
        exact ih ((collects_step hends).mpr hcollects)

theorem exists_of_commentAlone {n : Nat}
    (h : commentAlone alphanumeric (after alphanumeric script n) = true) :
    ∃ stmt ∈ splitSqlScript alphanumeric script, skipComments stmt = [] := by
  generalize hs : after alphanumeric script n = s at h
  rw [commentAlone, Bool.and_eq_true, Bool.and_eq_true, Bool.or_eq_true] at h
  obtain ⟨⟨-, hblank⟩, halone⟩ := h
  have hout : Outside s := (hs ▸ tidy_after n : Tidy s).outside hblank
  have hskip : ∀ y, (skipComments s.rest = [] → y = []) →
      skipComments ((behindComments s).buf ++ y) = skipComments y := by
    intro y hy
    show skipComments (s.buf ++ lead s.rest ++ y) = skipComments y
    rw [List.append_assoc, skipComments_blanks (isBlank_iff.mp hblank), skip_lead_append hy]
  have hstmt : ∀ y, Collects alphanumeric (behindComments s) ((behindComments s).buf ++ y) →
      (skipComments s.rest = [] → y = []) → isBlank ((behindComments s).buf ++ y) = false →
      skipComments y = [] → ∃ stmt ∈ splitSqlScript alphanumeric script, skipComments stmt = [] := by
    intro y hcollects hy hne hnone
    have hback : Collects alphanumeric (after alphanumeric script n)
        ((behindComments s).buf ++ y) := by
      rw [hs]
      exact (collects_behind hout).mpr hcollects
    refine ⟨_, mem_of_collects hback hne, ?_⟩
    rw [skipComments_trim, hskip y hy, hnone]
  rcases halone with hends | hdashes
  · rw [Bool.and_eq_true, Bool.not_eq_true'] at hends
    have hcollects : Collects alphanumeric (behindComments s) (behindComments s).buf :=
      .here hends.1
    rw [← List.append_nil (behindComments s).buf] at hcollects
    exact hstmt [] hcollects (fun _ => rfl) (by rw [List.append_nil]; exact hends.2) rfl
  · simp only [dashesAlone, Bool.and_eq_true, Bool.not_eq_true', beq_iff_eq] at hdashes
    obtain ⟨⟨⟨hfirst, hsecond⟩, hends⟩, hbuf⟩ := hdashes
    have hcollects := (collects_step hfirst).mpr
      ((collects_step hsecond).mpr ((collects_of_ends hends).mpr hbuf.symm))
    have hahead : skipComments s.rest ≠ [] := rest_ne_nil_of_ends hfirst
    exact hstmt ['-', '-'] hcollects (fun hnil => absurd hnil hahead)
      (not_isBlank_append_cons (by decide) _ _) rfl

/-! ## The whitelist -/

theorem passes_iff : Passes alphanumeric script ↔
    ∀ stmt ∈ splitSqlScript alphanumeric script, isDdlStatement stmt = true := by
  rw [Passes, rejected, List.find?_eq_none]
  constructor
  · intro h stmt hmem
    have hne := (mem_splitSqlScript_iff.mp hmem).2
    have hchecked := h (Text.trim stmt) (List.mem_map_of_mem hmem)
    rw [trim_of_mem_splitSqlScript hmem] at hchecked
    simpa [hne] using hchecked
  · intro h s hs
    obtain ⟨stmt, hmem, rfl⟩ := List.mem_map.mp hs
    rw [trim_of_mem_splitSqlScript hmem, h stmt hmem]
    simp

theorem isAlpha_of_isDdlStatement (h : isDdlStatement text = true) :
    ∃ c rest, Text.trimStart text = c :: rest ∧ c.isAlpha = true := by
  obtain ⟨kw, hkw, hupper⟩ := Engine.keyword_of_isDdlStatement h
  have hletter : ∀ kw ∈ ddlKeywords, kw.length ≠ 0 ∧ (kw.toList.head?.any Char.isUpper) = true := by
    decide
  obtain ⟨hlength, hhead⟩ := hletter kw hkw
  obtain ⟨k, hk⟩ := Nat.exists_eq_succ_of_ne_zero hlength
  cases hstart : Text.trimStart text with
  | nil =>
      rw [hstart] at hupper
      rw [← hupper] at hhead
      simp [Text.asciiUpper] at hhead
  | cons c rest =>
      rw [hstart, hk, List.take_succ_cons, Text.asciiUpper, List.map_cons] at hupper
      rw [← hupper] at hhead
      exact ⟨c, rest, rfl, Engine.isAlpha_of_toUpper hhead⟩

theorem not_passes_of_comment {n : Nat}
    (hblank : isBlank (after alphanumeric script n).buf = true)
    (hstart : isCommentStart (after alphanumeric script n).rest = true) :
    ¬ Passes alphanumeric script := by
  intro hpasses
  obtain ⟨text, hcollects⟩ := @exists_collects alphanumeric (after alphanumeric script n)
  have hout := (tidy_after n).outside hblank
  obtain ⟨hends, hstep⟩ := step_comment hout hstart
  obtain ⟨c, rest, hrest, hsign⟩ := comment_head hstart
  have hc : Text.isWhitespace c = false := isWhitespace_head (hrest ▸ hstart)
  obtain ⟨note, hnote⟩ : ∃ note, noteOf (after alphanumeric script n).rest = c :: note := by
    have hsplit := noteOf_append (after alphanumeric script n).rest
    have hless := afterComment_length_lt hstart
    cases hfirst : noteOf (after alphanumeric script n).rest with
    | nil =>
        rw [hfirst, List.nil_append] at hsplit
        rw [hsplit] at hless
        exact absurd hless (Nat.lt_irrefl _)
    | cons d note =>
        rw [hfirst, hrest] at hsplit
        exact ⟨note, by rw [(List.cons.inj hsplit).1]⟩
  have hcopy : (step alphanumeric (after alphanumeric script n)).buf =
      (after alphanumeric script n).buf ++ c :: note := by rw [hstep, ← hnote]
  have hbuf : isBlank (step alphanumeric (after alphanumeric script n)).buf = false := by
    rw [hcopy]
    exact not_isBlank_append_cons hc _ _
  obtain ⟨y, htext, -⟩ := collects_append ((collects_step hends).mp hcollects) hbuf
  rw [hcopy, List.append_assoc, List.cons_append] at htext
  have hne : isBlank text = false := by
    rw [htext]
    exact not_isBlank_append_cons hc _ _
  -- the statement that is cut off starts with the sign of the comment
  obtain ⟨d, tail, hhead, halpha⟩ :=
    isAlpha_of_isDdlStatement (passes_iff.mp hpasses _ (mem_of_collects hcollects hne))
  rw [Text.trimStart_of_part (Text.trim_isPart text)] at hhead
  have hpart := Text.trim_isPart text
  have hfirst : Text.trimStart text = c :: (note ++ y) := by
    rw [htext, Text.trimStart_append_of_blank (isBlank_iff.mp hblank), Text.trimStart,
      List.dropWhile_cons_of_neg (by simp [hc])]
  rw [hhead, hfirst] at hpart
  rw [(List.cons_prefix_cons.mp hpart).1] at halpha
  rcases hsign with rfl | rfl | rfl <;> cases halpha

theorem commented_at_start (script : List Char) :
    Commented alphanumeric script ("/**/".toList ++ script) := by
  refine Relation.ReflTransGen.single ⟨0, "/**/".toList, ⟨rfl, Or.inl rfl⟩, ⟨rfl, Or.inl rfl⟩, ?_⟩
  show "/**/".toList ++ script = script.take (script.length - script.length) ++ "/**/".toList ++ script
  rw [Nat.sub_self, List.take_zero, List.nil_append]

/-- The law holds exactly when the loop meets no comment alone and the whitelist rejects the
script without further comments too. -/
theorem commentsIgnored_iff (alphanumeric : Char → Bool) (script : List Char) :
    CommentsIgnored alphanumeric script ↔
      (splitter alphanumeric).Avoids (commentAlone alphanumeric) (start script) ∧
        ¬ Passes alphanumeric script := by
  constructor
  · rintro ⟨htokens, haccepted⟩
    constructor
    · rw [Scan.Scanner.avoids_iff]
      intro n
      by_contra halone
      obtain ⟨stmt, hmem, hnone⟩ := exists_of_commentAlone (n := n) (Bool.not_eq_false _ ▸ halone)
      exact htokens stmt hmem hnone
    · intro hpasses
      have hcommented := haccepted hpasses _ (commented_at_start script)
      exact not_passes_of_comment (n := 0) rfl rfl hcommented
  · rintro ⟨havoids, hnot⟩
    refine ⟨fun stmt hmem hnone => ?_, fun hpasses => absurd hpasses hnot⟩
    obtain ⟨⟨n, hends, rfl⟩, hne⟩ := mem_splitSqlScript_iff.mp hmem
    rw [skipComments_trim] at hnone
    exact token_of_avoids havoids (.here hends) (isBlank_eq_false_iff.mpr hne) hnone

/-- A comment alone is a statement, and one in front of DDL makes the whitelist reject it. -/
theorem comments_count :
    ¬ CommentsIgnored Char.isAlphanum "-- c".toList ∧
      ¬ CommentsIgnored Char.isAlphanum "DROP TABLE a".toList ∧
      Passes Char.isAlphanum "DROP TABLE a".toList ∧
      Commented Char.isAlphanum "DROP TABLE a".toList "/**/DROP TABLE a".toList ∧
      ¬ Passes Char.isAlphanum "/**/DROP TABLE a".toList := by
  have hpasses : Passes Char.isAlphanum "DROP TABLE a".toList := by
    unfold Passes
    decide +kernel
  have hcommented := @commented_at_start Char.isAlphanum "DROP TABLE a".toList
  have hrejects : ¬ Passes Char.isAlphanum "/**/DROP TABLE a".toList := by
    unfold Passes
    decide +kernel
  refine ⟨fun h => ?_, fun h => ?_, hpasses, hcommented, hrejects⟩
  · exact h.tokens "-- c".toList (by decide +kernel) (by decide +kernel)
  · exact hrejects (h.accepted hpasses _ hcommented)

end Dbmaster.SqlSplit.Comments
