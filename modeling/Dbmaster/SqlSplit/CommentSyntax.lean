import Dbmaster.Lib.Lead
import Dbmaster.SqlSplit.Splitter
/-!
# Blanks and comments in front of a token

The comments as the splitter reads them.  What is passed over in front of a token is closed:
it is passed over in front of any other text, too.
-/

namespace Dbmaster.SqlSplit.CommentSyntax

open Dbmaster.Lib Dbmaster.SqlSplit.Splitter

def isCommentStart (text : List Char) : Bool :=
  isLineCommentStart text || isBlockCommentStart text

/-- What follows the comment that the text starts with. -/
def afterComment (text : List Char) : List Char :=
  if isLineCommentStart text then text.dropWhile (· != '\n') else (blockTail (text.drop 2)).2

theorem afterComment_length_lt {text : List Char} (h : isCommentStart text = true) :
    (afterComment text).length < text.length := by
  unfold afterComment
  split
  case isTrue hline => exact lineComment_reads hline
  case isFalse hline =>
    rw [isCommentStart, Bool.eq_false_iff.mpr hline, Bool.false_or] at h
    exact blockComment_reads h

/-- Blanks and comments, as the splitter reads them. -/
def blanksAndComments : Lead.Skipper Char where
  blank := Text.isWhitespace
  comment text := if isCommentStart text then some (afterComment text) else none
  reads text rest h := by
    split at h
    case isTrue hcomment =>
      rw [← Option.some.inj h]
      exact afterComment_length_lt hcomment
    case isFalse => cases h

/-- The text from its first token on. -/
def skipComments (text : List Char) : List Char := blanksAndComments.skip text

example : skipComments "-- c\n /* d */ DROP".toList = "DROP".toList := by
  decide

/-! ## Passing over -/

theorem comment_head {text : List Char} (h : isCommentStart text = true) :
    ∃ c rest, text = c :: rest ∧ (c = '#' ∨ c = '-' ∨ c = '/') := by
  rw [isCommentStart, Bool.or_eq_true] at h
  rcases h with hline | hblock
  · unfold isLineCommentStart at hline
    split at hline
    case h_1 rest => exact ⟨'#', rest, rfl, Or.inl rfl⟩
    case h_2 => exact ⟨'-', ['-'], rfl, Or.inr (Or.inl rfl)⟩
    case h_3 nxt rest => exact ⟨'-', '-' :: nxt :: rest, rfl, Or.inr (Or.inl rfl)⟩
    case h_4 => cases hline
  · obtain ⟨tail, htail⟩ := List.isPrefixOf_iff_prefix.mp hblock
    exact ⟨'/', '*' :: tail, htail.symm, Or.inr (Or.inr rfl)⟩

theorem isWhitespace_head {c : Char} {rest : List Char} (h : isCommentStart (c :: rest) = true) :
    Text.isWhitespace c = false := by
  obtain ⟨d, rest', heq, hd⟩ := comment_head h
  obtain ⟨rfl, -⟩ := List.cons.inj heq
  rcases hd with rfl | rfl | rfl <;> decide

theorem skipComments_blank {c : Char} (hc : Text.isWhitespace c = true) (text : List Char) :
    skipComments (c :: text) = skipComments text := by
  have hall : ∀ d ∈ [c], blanksAndComments.blank d = true := by
    intro d hd
    rw [List.mem_singleton.mp hd]
    exact hc
  exact blanksAndComments.skip_append_blank hall text

theorem skipComments_blanks {blank : List Char} (h : ∀ c ∈ blank, Text.isWhitespace c = true)
    (text : List Char) : skipComments (blank ++ text) = skipComments text :=
  blanksAndComments.skip_append_blank h text

theorem skipComments_comment {text : List Char} (h : isCommentStart text = true) :
    skipComments text = skipComments (afterComment text) := by
  apply blanksAndComments.skip_of_comment
  obtain ⟨c, rest, rfl, -⟩ := comment_head h
  have hdrop : (c :: rest).dropWhile blanksAndComments.blank = c :: rest :=
    List.dropWhile_cons_of_neg (by simpa [blanksAndComments] using isWhitespace_head h)
  rw [hdrop]
  exact if_pos h

theorem skipComments_token {c : Char} {rest : List Char} (hc : Text.isWhitespace c = false)
    (h : isCommentStart (c :: rest) = false) : skipComments (c :: rest) = c :: rest := by
  have hdrop : (c :: rest).dropWhile blanksAndComments.blank = c :: rest :=
    List.dropWhile_cons_of_neg (by simpa [blanksAndComments] using hc)
  have hnone : blanksAndComments.comment ((c :: rest).dropWhile blanksAndComments.blank) = none := by
    rw [hdrop]
    exact if_neg (Bool.eq_false_iff.mp h)
  exact (blanksAndComments.skip_of_token hnone).trans hdrop

/-- A text starts with a blank, with a comment or with a token. -/
theorem text_induction {P : List Char → Prop} (hnil : P [])
    (hblank : ∀ c text, Text.isWhitespace c = true → P text → P (c :: text))
    (hcomment : ∀ text, isCommentStart text = true → P (afterComment text) → P text)
    (htoken : ∀ c text, Text.isWhitespace c = false → isCommentStart (c :: text) = false →
      P (c :: text)) (text : List Char) : P text := by
  match text with
  | [] => exact hnil
  | c :: text =>
      by_cases hc : Text.isWhitespace c = true
      · exact hblank c text hc (text_induction hnil hblank hcomment htoken text)
      · by_cases hstart : isCommentStart (c :: text) = true
        · have hless := afterComment_length_lt hstart
          exact hcomment _ hstart
            (text_induction hnil hblank hcomment htoken (afterComment (c :: text)))
        · exact htoken c text (Bool.eq_false_iff.mpr hc) (Bool.eq_false_iff.mpr hstart)
termination_by text.length
decreasing_by
  · exact Nat.lt_succ_self _
  · exact hless

/-! ## Comments with their ends -/

/-- The comment that the text starts with. -/
def noteOf (text : List Char) : List Char :=
  if isLineCommentStart text then text.takeWhile (· != '\n')
  else text.take 2 ++ (blockTail (text.drop 2)).1

theorem noteOf_append (text : List Char) : noteOf text ++ afterComment text = text := by
  unfold noteOf afterComment
  by_cases hline : isLineCommentStart text = true
  · rw [if_pos hline, if_pos hline, List.takeWhile_append_dropWhile]
  · rw [if_neg hline, if_neg hline, List.append_assoc, blockTail_append, List.take_append_drop]

theorem blockTail_cons {c : Char} {text : List Char} (h : c = '*' → text.head? ≠ some '/') :
    blockTail (c :: text) = (c :: (blockTail text).1, (blockTail text).2) := by
  rw [blockTail]
  rintro rest rfl rfl
  exact h rfl rfl

/-- A comment that is closed stays so. -/
theorem blockTail_closed {text : List Char} (h : (blockTail text).2 ≠ []) (z : List Char) :
    blockTail ((blockTail text).1 ++ z) = ((blockTail text).1, z) := by
  fun_induction blockTail text with
  | case1 text => rfl
  | case2 c text hnot ih =>
      have hrest : (blockTail text).2 ≠ [] := h
      have hhead : ((blockTail text).1 ++ z).head? = text.head? := by
        have hsplit := blockTail_append text
        cases hfirst : (blockTail text).1 with
        | nil =>
            cases text with
            | nil => exact absurd rfl hrest
            | cons d text =>
                unfold blockTail at hfirst
                split at hfirst
                case h_1 => cases hfirst
                case h_2 => cases hfirst
                case h_3 hnil => cases hnil
        | cons d first =>
            rw [← hsplit, hfirst]
            rfl
      have hopen : c = '*' → ((blockTail text).1 ++ z).head? ≠ some '/' := by
        rintro rfl hslash
        rw [hhead] at hslash
        obtain ⟨rest, rfl⟩ := List.head?_eq_some_iff.mp hslash
        exact hnot rest rfl rfl
      rw [List.cons_append, blockTail_cons hopen, ih hrest]
  | case3 => exact absurd rfl h

theorem isLineCommentStart_iff {text : List Char} : isLineCommentStart text = true ↔
    (∃ rest, text = '#' :: rest) ∨ text = ['-', '-'] ∨
      ∃ nxt rest, text = '-' :: '-' :: nxt :: rest ∧ Text.isWhitespace nxt = true := by
  constructor
  · intro h
    unfold isLineCommentStart at h
    split at h
    case h_1 rest => exact Or.inl ⟨rest, rfl⟩
    case h_2 => exact Or.inr (Or.inl rfl)
    case h_3 nxt rest => exact Or.inr (Or.inr ⟨nxt, rest, rfl, h⟩)
    case h_4 => cases h
  · rintro (⟨rest, rfl⟩ | rfl | ⟨nxt, rest, rfl, h⟩)
    · rfl
    · rfl
    · exact h

theorem isLineCommentStart_append {note : List Char} (z z' : List Char)
    (h : isLineCommentStart (note ++ '\n' :: z) = true) :
    isLineCommentStart (note ++ '\n' :: z') = true := by
  rw [isLineCommentStart_iff] at h ⊢
  match note with
  | [] => simp at h
  | [a] => simpa using h
  | [a, b] => simpa using h
  | a :: b :: d :: note => simpa using h

theorem isBlockCommentStart_iff {text : List Char} :
    isBlockCommentStart text = true ↔ ∃ rest, text = '/' :: '*' :: rest := by
  constructor
  · intro h
    obtain ⟨rest, hrest⟩ := List.isPrefixOf_iff_prefix.mp h
    exact ⟨rest, hrest.symm⟩
  · rintro ⟨rest, rfl⟩
    rfl

theorem isCommentStart_dash_iff {text : List Char} : isCommentStart ('-' :: text) = true ↔
    ∃ rest, text = '-' :: rest ∧ ∀ nxt ∈ rest.head?, Text.isWhitespace nxt = true := by
  have hblock : isBlockCommentStart ('-' :: text) = false := rfl
  rw [isCommentStart, hblock, Bool.or_false, isLineCommentStart_iff]
  constructor
  · rintro (⟨rest, heq⟩ | heq | ⟨nxt, rest, heq, hnxt⟩)
    · cases heq
    · exact ⟨[], (List.cons.inj heq).2, fun d hd => absurd hd (Option.not_mem_none d)⟩
    · refine ⟨nxt :: rest, (List.cons.inj heq).2, fun d hd => ?_⟩
      cases hd
      exact hnxt
  · rintro ⟨rest, rfl, hrest⟩
    cases rest with
    | nil => exact Or.inr (Or.inl rfl)
    | cons nxt rest => exact Or.inr (Or.inr ⟨nxt, rest, rfl, hrest nxt rfl⟩)

theorem noteOf_dash {text : List Char} (h : isCommentStart ('-' :: text) = true) :
    ∃ note, noteOf ('-' :: text) = '-' :: '-' :: note := by
  have hblock : isBlockCommentStart ('-' :: text) = false := rfl
  obtain ⟨rest, rfl, -⟩ := isCommentStart_dash_iff.mp h
  rw [isCommentStart, hblock, Bool.or_false] at h
  rw [noteOf, if_pos h]
  exact ⟨rest.takeWhile (· != '\n'), rfl⟩

/-- In front of another text, the comment is still one, and ends where it did. -/
theorem noteOf_closed {text z : List Char} (h : isCommentStart text = true)
    (hend : afterComment text = [] → z = [])
    (hline : isLineCommentStart text = true → afterComment text ≠ [] → ∃ z', z = '\n' :: z') :
    isCommentStart (noteOf text ++ z) = true ∧ afterComment (noteOf text ++ z) = z := by
  by_cases hafter : afterComment text = []
  · have hnote := noteOf_append text
    rw [hafter, List.append_nil] at hnote
    rw [hend hafter, List.append_nil, hnote]
    exact ⟨h, hafter⟩
  by_cases hstart : isLineCommentStart text = true
  · obtain ⟨z', rfl⟩ := hline hstart hafter
    have hrest := hafter
    unfold afterComment at hrest
    rw [if_pos hstart] at hrest
    have hbreak : ∃ rest, text.dropWhile (· != '\n') = '\n' :: rest := by
      obtain ⟨c, rest, hcons⟩ := List.exists_cons_of_ne_nil hrest
      have hnot := List.head?_dropWhile_not (· != '\n') text
      rw [hcons] at hnot
      have hc : c = '\n' := by simpa using hnot
      exact ⟨rest, hc ▸ hcons⟩
    obtain ⟨rest, hcons⟩ := hbreak
    have hsplit : text = noteOf text ++ '\n' :: rest := by
      rw [noteOf, if_pos hstart, ← hcons, List.takeWhile_append_dropWhile]
    have hstart' : isLineCommentStart (noteOf text ++ '\n' :: z') = true := by
      rw [hsplit] at hstart
      exact isLineCommentStart_append rest z' hstart
    refine ⟨by rw [isCommentStart, hstart', Bool.true_or], ?_⟩
    have hall : ∀ c ∈ noteOf text, (c != '\n') = true := by
      rw [noteOf, if_pos hstart]
      intro c hc
      exact List.mem_takeWhile_imp (p := (· != '\n')) hc
    rw [afterComment, if_pos hstart', List.dropWhile_append_of_pos hall,
      List.dropWhile_cons_of_neg (by simp)]
  · rw [isCommentStart, Bool.eq_false_iff.mpr hstart, Bool.false_or] at h
    obtain ⟨rest, rfl⟩ := isBlockCommentStart_iff.mp h
    have hopen : (blockTail rest).2 ≠ [] := by
      rw [afterComment, if_neg hstart] at hafter
      exact hafter
    have hnote : noteOf ('/' :: '*' :: rest) ++ z = '/' :: '*' :: ((blockTail rest).1 ++ z) := by
      rw [noteOf, if_neg hstart]
      rfl
    rw [hnote]
    refine ⟨rfl, ?_⟩
    show (blockTail ((blockTail rest).1 ++ z)).2 = z
    rw [blockTail_closed hopen]

/-! ## What is passed over -/

def lead (text : List Char) : List Char :=
  text.take (text.length - (skipComments text).length)

theorem lead_append {note rest : List Char}
    (h : skipComments (note ++ rest) = skipComments rest) : lead (note ++ rest) = note ++ lead rest := by
  have hle : (skipComments rest).length ≤ rest.length := blanksAndComments.length_skip_le rest
  have hlength : (note ++ rest).length - (skipComments rest).length =
      note.length + (rest.length - (skipComments rest).length) := by
    rw [List.length_append]
    omega
  rw [lead, h, hlength, List.take_length_add_append]
  rfl

theorem lead_blank {c : Char} (hc : Text.isWhitespace c = true) (text : List Char) :
    lead (c :: text) = c :: lead text :=
  @lead_append [c] text (skipComments_blank hc text)

theorem lead_comment {text : List Char} (h : isCommentStart text = true) :
    lead text = noteOf text ++ lead (afterComment text) := by
  have hskip := skipComments_comment h
  have hlead := @lead_append (noteOf text) (afterComment text)
  rw [noteOf_append] at hlead
  exact hlead hskip

theorem lead_token {c : Char} {rest : List Char} (hc : Text.isWhitespace c = false)
    (h : isCommentStart (c :: rest) = false) : lead (c :: rest) = [] := by
  rw [lead, skipComments_token hc h, Nat.sub_self, List.take_zero]

theorem lead_append_skip (text : List Char) : lead text ++ skipComments text = text := by
  induction text using text_induction with
  | hnil => rfl
  | hblank c text hc ih => rw [lead_blank hc, skipComments_blank hc, List.cons_append, ih]
  | hcomment text h ih =>
      rw [lead_comment h, skipComments_comment h, List.append_assoc, ih, noteOf_append]
  | htoken c text hc h => rw [lead_token hc h, skipComments_token hc h, List.nil_append]

/-- The same is passed over in front of any other text. -/
theorem skip_lead_append {text z : List Char} (hend : skipComments text = [] → z = []) :
    skipComments (lead text ++ z) = skipComments z := by
  induction text using text_induction with
  | hnil => rfl
  | hblank c text hc ih =>
      rw [skipComments_blank hc] at hend
      rw [lead_blank hc, List.cons_append, skipComments_blank hc, ih hend]
  | hcomment text h ih =>
      rw [skipComments_comment h] at hend
      have hclosed : isCommentStart (noteOf text ++ (lead (afterComment text) ++ z)) = true ∧
          afterComment (noteOf text ++ (lead (afterComment text) ++ z)) =
            lead (afterComment text) ++ z := by
        apply noteOf_closed h
        · intro hafter
          rw [hafter] at hend ⊢
          rw [hend rfl]
          rfl
        · intro hline hafter
          unfold afterComment at hafter ⊢
          rw [if_pos hline] at hafter ⊢
          obtain ⟨c, rest, hcons⟩ := List.exists_cons_of_ne_nil hafter
          have hnot := List.head?_dropWhile_not (· != '\n') text
          rw [hcons] at hnot
          have hc : c = '\n' := by simpa using hnot
          rw [hcons, hc, lead_blank (by decide)]
          exact ⟨_, rfl⟩
      rw [lead_comment h, List.append_assoc, skipComments_comment hclosed.1, hclosed.2, ih hend]
  | htoken c text hc h => rw [lead_token hc h, List.nil_append]

/-! ## Blanks at the end -/

theorem isCommentStart_append_blank {c : Char} {text blank : List Char}
    (hblank : ∀ c ∈ blank, Text.isWhitespace c = true) :
    isLineCommentStart (c :: text ++ blank) = isLineCommentStart (c :: text) ∧
      isBlockCommentStart (c :: text ++ blank) = isBlockCommentStart (c :: text) := by
  cases blank with
  | nil => exact ⟨by rw [List.append_nil], by rw [List.append_nil]⟩
  | cons b blank =>
      have hb := hblank b List.mem_cons_self
      have hdash : b ≠ '-' := by
        rintro rfl
        cases hb
      have hstar : b ≠ '*' := by
        rintro rfl
        cases hb
      constructor
      · rw [Bool.eq_iff_iff, isLineCommentStart_iff, isLineCommentStart_iff]
        match text with
        | [] => simp [hdash]
        | [d] => simp [hb]
        | d :: e :: text => simp
      · rw [Bool.eq_iff_iff, isBlockCommentStart_iff, isBlockCommentStart_iff]
        match text with
        | [] => simp [hstar]
        | d :: text => simp

theorem blockTail_append_blank (text : List Char) {blank : List Char}
    (hblank : ∀ c ∈ blank, Text.isWhitespace c = true) :
    ∃ blank', (∀ c ∈ blank', Text.isWhitespace c = true) ∧
      (blockTail (text ++ blank)).2 = (blockTail text).2 ++ blank' := by
  fun_induction blockTail text with
  | case1 text => exact ⟨blank, hblank, rfl⟩
  | case2 c text hnot ih =>
      obtain ⟨blank', hblank', hih⟩ := ih
      refine ⟨blank', hblank', ?_⟩
      rw [List.cons_append, blockTail_cons, hih]
      rintro rfl hslash
      cases text with
      | nil =>
          obtain ⟨rest, hrest⟩ := List.head?_eq_some_iff.mp hslash
          have hb := hblank '/' (by rw [← List.nil_append blank, hrest]; exact List.mem_cons_self)
          cases hb
      | cons d text =>
          cases Option.some.inj hslash
          exact hnot text rfl rfl
  | case3 =>
      refine ⟨[], fun c hc => absurd hc List.not_mem_nil, ?_⟩
      rw [List.nil_append, List.append_nil]
      induction blank with
      | nil => rfl
      | cons b blank ih =>
          have hopen : b = '*' → blank.head? ≠ some '/' := by
            rintro rfl
            cases hblank '*' List.mem_cons_self
          rw [blockTail_cons hopen]
          exact ih fun c hc => hblank c (List.mem_cons_of_mem _ hc)

theorem afterComment_append_blank {c : Char} {text blank : List Char}
    (hblank : ∀ c ∈ blank, Text.isWhitespace c = true) (h : isCommentStart (c :: text) = true) :
    ∃ blank', (∀ c ∈ blank', Text.isWhitespace c = true) ∧
      afterComment (c :: text ++ blank) = afterComment (c :: text) ++ blank' := by
  unfold afterComment
  rw [(isCommentStart_append_blank hblank).1]
  by_cases hline : isLineCommentStart (c :: text) = true
  · rw [if_pos hline, if_pos hline, List.dropWhile_append]
    split
    case isTrue hnone =>
      rw [List.isEmpty_iff.mp hnone]
      exact ⟨blank.dropWhile (· != '\n'),
        fun d hd => hblank d ((List.dropWhile_suffix _).subset hd), rfl⟩
    case isFalse => exact ⟨blank, hblank, rfl⟩
  · rw [if_neg hline, if_neg hline]
    rw [isCommentStart, Bool.eq_false_iff.mpr hline, Bool.false_or] at h
    obtain ⟨rest, hrest⟩ := isBlockCommentStart_iff.mp h
    rw [hrest]
    exact blockTail_append_blank rest hblank

theorem skipComments_append_blank {text blank : List Char}
    (hblank : ∀ c ∈ blank, Text.isWhitespace c = true) :
    skipComments (text ++ blank) = [] ↔ skipComments text = [] := by
  induction text using text_induction generalizing blank with
  | hnil =>
      have hnone := skipComments_blanks hblank []
      rw [List.append_nil] at hnone
      exact iff_of_true hnone rfl
  | hblank c text hc ih =>
      rw [List.cons_append, skipComments_blank hc, skipComments_blank hc]
      exact ih hblank
  | hcomment text h ih =>
      obtain ⟨c, rest, rfl, -⟩ := comment_head h
      obtain ⟨blank', hblank', hafter⟩ := afterComment_append_blank hblank h
      have hstart : isCommentStart (c :: rest ++ blank) = true := by
        obtain ⟨hline, hblock⟩ := @isCommentStart_append_blank c rest blank hblank
        rw [isCommentStart, hline, hblock]
        exact h
      rw [skipComments_comment hstart, skipComments_comment h, hafter]
      exact ih hblank'
  | htoken c text hc h =>
      have hstart : isCommentStart (c :: (text ++ blank)) = false := by
        obtain ⟨hline, hblock⟩ := @isCommentStart_append_blank c text blank hblank
        rw [← List.cons_append, isCommentStart, hline, hblock]
        exact h
      rw [List.cons_append, skipComments_token hc hstart, skipComments_token hc h]
      exact iff_of_false (List.cons_ne_nil _ _) (List.cons_ne_nil _ _)

theorem skipComments_trim (text : List Char) :
    skipComments (Text.trim text) = [] ↔ skipComments text = [] := by
  obtain ⟨p, q, hp, hq, htext⟩ := Text.exists_trim text
  rw [htext, skipComments_blanks hp, skipComments_append_blank hq, ← htext]

end Dbmaster.SqlSplit.CommentSyntax
