import Dbmaster.Lib.Lead
import Dbmaster.Lib.Text
/-!
# Dialects of a query language

What is blank, a comment, a word and a delimited text, and what a backslash does in the
latter; and the tokens of a text under these rules.
-/

namespace Dbmaster.Lib.Dialect

inductive Delimited
  | literal
  | name
  deriving DecidableEq

section Quotes

variable {q : Char}

/-- Both quotes for literals and the backtick for names. -/
theorem quote_of_literal
    (h : (if q = '\'' ∨ q = '"' then some Delimited.literal
      else if q = '`' then some .name else none) = some .literal) : q = '\'' ∨ q = '"' := by
  split_ifs at h with hliteral hname
  · exact hliteral
  · cases h

theorem quote_of_delimited
    (h : (if q = '\'' ∨ q = '"' then some Delimited.literal
      else if q = '`' then some .name else none) ≠ none) : q = '\'' ∨ q = '"' ∨ q = '`' := by
  split_ifs at h with hliteral hname
  · exact or_assoc.mp (Or.inl hliteral)
  · exact Or.inr (Or.inr hname)
  · exact absurd rfl h

end Quotes

inductive Token
  | word (upper : List Char)
  | literal (value : List Char)
  | name (value : List Char)
  | symbol (c : Char)
  deriving DecidableEq

def Token.literal? : Token → Option (List Char)
  | .literal value => some value
  | _ => none

structure Rules where
  lead : Lead.Skipper Char
  /-- a comment starts with one of these -/
  comments : Char → Bool
  delimiter : Char → Option Delimited
  word : Char → Bool
  /-- between these delimiters a backslash acts on the character -/
  escapes : Char → Char → Bool
  /-- what the two of them stand for, and how many characters more belong to them -/
  unescape : Char → List Char → List Char × Nat
  starts : ∀ (c : Char) (text rest : List Char),
    lead.comment (c :: text) = some rest → comments c = true
  delimits : ∀ q, delimiter q ≠ none → lead.blank q = false ∧ comments q = false
  backslash : delimiter '\\' = none
  escapesSelf : ∀ q, delimiter q = some .literal → escapes q q = true ∧ escapes q '\\' = true
  self : ∀ (c : Char) (text : List Char),
    c = '\\' ∨ delimiter c = some .literal → unescape c text = ([c], 0)
  short : ∀ (c : Char) (text : List Char), (unescape c text).1.length ≤ 1
  extra : ∀ (c : Char) (text : List Char),
    ∀ d ∈ text.take (unescape c text).2, d ≠ '\\' ∧ delimiter d = none

/-- A comment starts with such a character and leaves a part of what follows it. -/
def Opens (starts : Char → Bool) (comment : List Char → Option (List Char)) : Prop :=
  ∀ text rest, comment text = some rest →
    ∃ c tail, text = c :: tail ∧ starts c = true ∧ rest.length ≤ tail.length

namespace Opens

variable {starts : Char → Bool} {comment : List Char → Option (List Char)}

theorem length_lt (h : Opens starts comment) (text rest : List Char)
    (hcomment : comment text = some rest) : rest.length < text.length := by
  obtain ⟨c, tail, rfl, -, hle⟩ := h text rest hcomment
  exact Nat.lt_succ_of_le hle

theorem head (h : Opens starts comment) (c : Char) (text rest : List Char)
    (hcomment : comment (c :: text) = some rest) : starts c = true := by
  obtain ⟨d, tail, heq, hstarts, -⟩ := h (c :: text) rest hcomment
  rw [(List.cons.inj heq).1]
  exact hstarts

end Opens

namespace Rules

variable (d : Rules)

/-! ## Delimited texts -/

/-- The value of a delimited text and what follows it, after `skip` more characters. -/
def readBody (q : Char) : Nat → List Char → Option (List Char × List Char)
  | _, [] => none
  | skip + 1, _ :: text => readBody q skip text
  | 0, c :: text =>
    if c = '\\' ∧ text.head?.any (d.escapes q) = true then
      let (value, more) := d.unescape (text.headD c) text.tail
      (readBody q (more + 1) text).map fun read => (value ++ read.1, read.2)
    else if c = q then
      if text.head? = some q then (readBody q 1 text).map fun read => (q :: read.1, read.2)
      else some ([], text)
    else (readBody q 0 text).map fun read => (c :: read.1, read.2)

variable {d} {q : Char}

theorem length_rest_lt {skip : Nat} {text value rest : List Char}
    (h : d.readBody q skip text = some (value, rest)) : rest.length < text.length := by
  induction text generalizing skip value with
  | nil => cases skip <;> cases h
  | cons c text ih =>
      rw [List.length_cons]
      cases skip with
      | succ skip => exact Nat.lt_succ_of_lt (ih h)
      | zero =>
          unfold readBody at h
          split_ifs at h
          · obtain ⟨read, hread, heq⟩ := Option.map_eq_some_iff.mp h
            cases heq
            exact Nat.lt_succ_of_lt (ih hread)
          · obtain ⟨read, hread, heq⟩ := Option.map_eq_some_iff.mp h
            cases heq
            exact Nat.lt_succ_of_lt (ih hread)
          · cases h
            exact Nat.lt_succ_self _
          · obtain ⟨read, hread, heq⟩ := Option.map_eq_some_iff.mp h
            cases heq
            exact Nat.lt_succ_of_lt (ih hread)

theorem readBody_plain {c : Char} (text : List Char) (hc : c ≠ '\\') (hq : c ≠ q) :
    d.readBody q 0 (c :: text) = (d.readBody q 0 text).map fun read => (c :: read.1, read.2) := by
  rw [readBody, if_neg fun h => hc h.1, if_neg hq]

theorem readBody_kept {text : List Char} (hq : '\\' ≠ q)
    (htext : text.head?.any (d.escapes q) = false) :
    d.readBody q 0 ('\\' :: text) =
      (d.readBody q 0 text).map fun read => ('\\' :: read.1, read.2) := by
  rw [readBody, if_neg (fun h => Bool.false_ne_true (htext.symm.trans h.2)), if_neg hq]

theorem readBody_escaped {c : Char} {text : List Char} (hc : d.escapes q c = true) :
    d.readBody q 0 ('\\' :: c :: text) =
      (d.readBody q (d.unescape c text).2 text).map fun read =>
        ((d.unescape c text).1 ++ read.1, read.2) := by
  rw [readBody, if_pos ⟨rfl, hc⟩]
  rfl

theorem readBody_doubled (text : List Char) (hq : q ≠ '\\') :
    d.readBody q 0 (q :: q :: text) =
      (d.readBody q 0 text).map fun read => (q :: read.1, read.2) := by
  rw [readBody, if_neg fun h => hq h.1, if_pos rfl, List.head?_cons, if_pos rfl]
  rfl

theorem readBody_closed {text : List Char} (hq : q ≠ '\\') (htext : text.head? ≠ some q) :
    d.readBody q 0 (q :: text) = some ([], text) := by
  rw [readBody, if_neg fun h => hq h.1, if_pos rfl, if_neg htext]

/-! ## Tokens -/

variable (d)

def token : Delimited → List Char → Token
  | .literal, value => .literal value
  | .name, value => .name value

/-- The tokens of a text, unless it ends between delimiters. -/
def tokensFrom : Nat → List Char → Option (List Token)
  | 0, _ => none
  | fuel + 1, text =>
    match d.lead.skip text with
    | [] => some []
    | c :: rest =>
      match d.delimiter c with
      | some kind =>
        (d.readBody c 0 rest).bind fun read =>
          (tokensFrom fuel read.2).map (token kind read.1 :: ·)
      | none =>
        if d.word c then
          (tokensFrom fuel (rest.dropWhile d.word)).map
            (.word (Text.asciiUpper (c :: rest.takeWhile d.word)) :: ·)
        else (tokensFrom fuel rest).map (.symbol c :: ·)

/-- There are no more tokens than characters. -/
def tokens (text : List Char) : Option (List Token) := d.tokensFrom (text.length + 1) text

/-- The values of the string literals of a text. -/
def literals (text : List Char) : Option (List (List Char)) :=
  (d.tokens text).map (List.filterMap Token.literal?)

/-- The tokens of a text that stands at its first one. -/
def tokensAt : List Char → Option (List Token)
  | [] => some []
  | c :: rest =>
    match d.delimiter c with
    | some kind =>
      (d.readBody c 0 rest).bind fun read => (d.tokens read.2).map (token kind read.1 :: ·)
    | none =>
      if d.word c then
        (d.tokens (rest.dropWhile d.word)).map
          (.word (Text.asciiUpper (c :: rest.takeWhile d.word)) :: ·)
      else (d.tokens rest).map (.symbol c :: ·)

variable {d}

theorem tokensFrom_enough {n m : Nat} {text : List Char} (hn : text.length < n)
    (hm : text.length < m) : d.tokensFrom n text = d.tokensFrom m text := by
  induction n generalizing m text with
  | zero => exact absurd hn (Nat.not_lt_zero _)
  | succ n ih =>
      obtain ⟨m, rfl⟩ := Nat.exists_eq_succ_of_ne_zero (Nat.ne_of_gt (Nat.zero_lt_of_lt hm))
      have hskip := d.lead.length_skip_le text
      rw [tokensFrom, tokensFrom]
      cases htext : d.lead.skip text with
      | nil => rfl
      | cons c rest =>
          have hrest : rest.length < text.length := by
            rw [htext] at hskip
            exact hskip
          have hless : ∀ later : List Char, later.length ≤ rest.length →
              d.tokensFrom n later = d.tokensFrom m later := by
            intro later hlater
            exact ih (by omega) (by omega)
          simp only []
          split
          · apply Option.bind_congr
            intro read hread
            rw [hless read.2 (Nat.le_of_lt (length_rest_lt hread))]
          · rw [hless _ (List.dropWhile_suffix d.word).length_le, hless rest (Nat.le_refl _)]

theorem tokens_eq (text : List Char) : d.tokens text = d.tokensAt (d.lead.skip text) := by
  have hskip := d.lead.length_skip_le text
  rw [tokens, tokensFrom]
  cases htext : d.lead.skip text with
  | nil => rfl
  | cons c rest =>
      have hrest : rest.length < text.length := by
        rw [htext] at hskip
        exact hskip
      have hless : ∀ later : List Char, later.length ≤ rest.length →
          d.tokensFrom text.length later = d.tokens later := by
        intro later hlater
        exact tokensFrom_enough (by omega) (Nat.lt_succ_self _)
      simp only [tokensAt]
      split
      · apply Option.bind_congr
        intro read hread
        rw [hless read.2 (Nat.le_of_lt (length_rest_lt hread))]
      · rw [hless _ (List.dropWhile_suffix d.word).length_le, hless rest (Nat.le_refl _)]

/-! ## Texts read on their own -/

/-- The character is no delimiter and no comment starts with it. -/
def isPlain (d : Rules) (c : Char) : Bool := d.delimiter c = none && !d.comments c

theorem isPlain_iff {c : Char} :
    d.isPlain c = true ↔ d.delimiter c = none ∧ d.comments c = false := by
  rw [isPlain, Bool.and_eq_true, decide_eq_true_iff, Bool.not_eq_true']

theorem skip_eq_cons {c : Char} {text rest : List Char}
    (htext : text.dropWhile d.lead.blank = c :: rest) (hc : d.comments c = false) :
    d.lead.skip text = c :: rest := by
  rw [d.lead.skip_of_token, htext]
  rw [htext]
  cases hcomment : d.lead.comment (c :: rest) with
  | none => rfl
  | some later => exact absurd (hc.symm.trans (d.starts c rest later hcomment)) Bool.false_ne_true

theorem dropWhile_append_of_neg {p : Char → Bool} {b : Char} (hb : p b = false)
    (text rest : List Char) :
    (text ++ b :: rest).dropWhile p = text.dropWhile p ++ b :: rest := by
  rw [List.dropWhile_append]
  split
  case isTrue hempty =>
      rw [List.isEmpty_iff.mp hempty, List.dropWhile_cons_of_neg (Bool.not_eq_true _ ▸ hb)]
      rfl
  case isFalse => rfl

theorem takeWhile_append_of_neg {p : Char → Bool} {b : Char} (hb : p b = false)
    (text rest : List Char) : (text ++ b :: rest).takeWhile p = text.takeWhile p := by
  rw [List.takeWhile_append]
  split
  case isTrue hlength =>
      rw [List.takeWhile_cons_of_neg (Bool.not_eq_true _ ▸ hb), List.append_nil]
      exact ((List.takeWhile_prefix p).eq_of_length hlength).symm
  case isFalse => rfl

/-- A text of plain characters is read on its own up to a blank. -/
theorem tokens_append {text : List Char} {b : Char} {ts : List Token}
    (hplain : ∀ c ∈ text, d.isPlain c = true) (hblank : d.lead.blank b = true)
    (hword : d.word b = false) (hts : d.tokens text = some ts) (rest : List Char) :
    d.tokens (text ++ b :: rest) = (d.tokens rest).map (ts ++ ·) := by
  have hall : ∀ n (text : List Char) ts, text.length < n → (∀ c ∈ text, d.isPlain c = true) →
      d.tokens text = some ts → d.tokens (text ++ b :: rest) = (d.tokens rest).map (ts ++ ·) := by
    intro n
    induction n with
    | zero => exact fun _ _ h => absurd h (Nat.not_lt_zero _)
    | succ n ih =>
        intro text ts hlt hplain hts
        have hsuffix : text.dropWhile d.lead.blank <:+ text := List.dropWhile_suffix _
        cases hdrop : text.dropWhile d.lead.blank with
        | nil =>
            have hblanks : ∀ c ∈ text ++ [b], d.lead.blank c = true := by
              rw [List.forall_mem_append, List.forall_mem_singleton]
              exact ⟨List.dropWhile_eq_nil_iff.mp hdrop, hblank⟩
            have hnil : d.lead.skip text = [] := by
              rw [d.lead.skip_of_token, hdrop]
              rw [hdrop]
              exact d.lead.comment_nil
            rw [tokens_eq, hnil] at hts
            obtain rfl := Option.some.inj hts
            rw [List.append_cons, tokens_eq, d.lead.skip_append_blank hblanks, ← tokens_eq]
            simp
        | cons c later =>
            rw [hdrop] at hsuffix
            obtain ⟨hdelimiter, hcomment⟩ :=
              isPlain_iff.mp (hplain c (hsuffix.subset List.mem_cons_self))
            have hlater : ∀ x ∈ later, d.isPlain x = true := fun x hx =>
              hplain x (hsuffix.subset (List.mem_cons_of_mem c hx))
            have hlength : later.length + 1 ≤ text.length := hsuffix.length_le
            have hboth : (text ++ b :: rest).dropWhile d.lead.blank =
                c :: (later ++ b :: rest) := by
              rw [List.dropWhile_append, hdrop]
              rfl
            rw [tokens_eq, skip_eq_cons hdrop hcomment, tokensAt, hdelimiter] at hts
            rw [tokens_eq, skip_eq_cons hboth hcomment, tokensAt, hdelimiter]
            simp only [] at hts ⊢
            split
            · rename_i hc
              rw [if_pos hc] at hts
              obtain ⟨tail, htail, rfl⟩ := Option.map_eq_some_iff.mp hts
              have hless : (later.dropWhile d.word).length ≤ later.length :=
                (List.dropWhile_suffix d.word).length_le
              rw [dropWhile_append_of_neg hword, takeWhile_append_of_neg hword,
                ih _ tail (by omega) (fun x hx => hlater x ((List.dropWhile_suffix _).subset hx))
                  htail, Option.map_map]
              rfl
            · rename_i hc
              rw [if_neg hc] at hts
              obtain ⟨tail, htail, rfl⟩ := Option.map_eq_some_iff.mp hts
              rw [ih _ tail (by omega) hlater htail, Option.map_map]
              rfl
  exact hall _ text ts (Nat.lt_succ_self _) hplain hts

/-- The literals on both sides of the blank. -/
theorem literals_append {text : List Char} {b : Char} {ts : List Token}
    (hplain : ∀ c ∈ text, d.isPlain c = true) (hblank : d.lead.blank b = true)
    (hword : d.word b = false) (hts : d.tokens text = some ts) (rest : List Char) :
    d.literals (text ++ b :: rest) =
      (d.literals rest).map (ts.filterMap Token.literal? ++ ·) := by
  rw [literals, literals, tokens_append hplain hblank hword hts, Option.map_map, Option.map_map]
  congr 1
  funext later
  exact List.filterMap_append

/-- Behind words and signs the literals of a text are its own. -/
theorem literals_behind {text : List Char} {b : Char} (hplain : text.all d.isPlain = true)
    (hblank : d.lead.blank b = true) (hword : d.word b = false)
    (hnone : d.literals text = some []) (rest : List Char) :
    d.literals (text ++ b :: rest) = d.literals rest := by
  obtain ⟨ts, hts, hfilter⟩ := Option.map_eq_some_iff.mp hnone
  rw [literals_append (List.all_eq_true.mp hplain) hblank hword hts, hfilter]
  exact Option.map_id'

theorem tokens_delimited {kind : Delimited} (hq : d.delimiter q = some kind) (text : List Char) :
    d.tokens (q :: text) = (d.readBody q 0 text).bind fun read =>
      (d.tokens read.2).map (token kind read.1 :: ·) := by
  obtain ⟨hblank, hcomment⟩ := d.delimits q (by rw [hq]; exact nofun)
  rw [tokens_eq, skip_eq_cons (List.dropWhile_cons_of_neg (Bool.not_eq_true _ ▸ hblank)) hcomment,
    tokensAt, hq]

theorem literals_delimited (hq : d.delimiter q = some .literal) (text : List Char) :
    d.literals (q :: text) = (d.readBody q 0 text).bind fun read =>
      (d.literals read.2).map (read.1 :: ·) := by
  rw [literals, tokens_delimited hq, Option.map_bind]
  apply Option.bind_congr
  intro read _
  rw [Function.comp_apply, literals, Option.map_map, Option.map_map]
  rfl

end Rules

end Dbmaster.Lib.Dialect
