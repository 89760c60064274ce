import Dbmaster.Gateway.Classify
import Dbmaster.Lib.Dialect
/-!
# Respelled statements for TDengine

`is_write_statement` against the tokens of a statement: comments, blanks and letter case
between the tokens, and what it takes the first word for.
-/

namespace Dbmaster.Gateway.Respelling

open Dbmaster.Lib Dbmaster.Lib.Text Dbmaster.Lib.Dialect Dbmaster.Gateway.Classify.Tdengine

/-! ## The tokens of a statement -/

/-- What follows the comment that the text starts with. -/
def commentRest : List Char → Option (List Char)
  | '-' :: '-' :: text => some ((afterFirst "\n" text).getD [])
  | '/' :: '/' :: text => some ((afterFirst "\n" text).getD [])
  | '/' :: '*' :: text => some ((afterFirst "*/" text).getD [])
  | _ => none

def delimiter (c : Char) : Option Delimited :=
  if c = '\'' ∨ c = '"' then some .literal else if c = '`' then some .name else none

def unescape : Char → Char
  | 'n' => '\n'
  | 'r' => '\r'
  | 't' => '\t'
  | c => c

def isWord (c : Char) : Bool := c.isAlphanum || c = '_' || ('\x80' ≤ c && !isWhitespace c)

def startsComment (c : Char) : Bool := c = '-' || c = '/'

theorem opens_commentRest : Opens startsComment commentRest := by
  intro text rest h
  unfold commentRest at h
  split at h
  case h_1 tail =>
    cases h
    exact ⟨_, _, rfl, rfl, Nat.le_succ_of_le (length_afterFirst_le _ tail)⟩
  case h_2 tail =>
    cases h
    exact ⟨_, _, rfl, rfl, Nat.le_succ_of_le (length_afterFirst_le _ tail)⟩
  case h_3 tail =>
    cases h
    exact ⟨_, _, rfl, rfl, Nat.le_succ_of_le (length_afterFirst_le _ tail)⟩
  case h_4 => cases h

theorem delimiter_eq_literal {q : Char} (h : delimiter q = some .literal) : q = '\'' ∨ q = '"' :=
  quote_of_literal h

theorem delimiter_cases {q : Char} (h : delimiter q ≠ none) : q = '\'' ∨ q = '"' ∨ q = '`' :=
  quote_of_delimited h

/-- The comments are those that `is_write_statement` knows. -/
def tdengine : Rules where
  lead := ⟨isWhitespace, commentRest, opens_commentRest.length_lt⟩
  comments := startsComment
  delimiter := delimiter
  word := isWord
  escapes := fun q _ => q ≠ '`'
  unescape := fun c _ => ([unescape c], 0)
  starts := opens_commentRest.head
  delimits := by
    intro q h
    rcases delimiter_cases h with rfl | rfl | rfl
    · decide
    · decide
    · decide
  backslash := rfl
  escapesSelf := by
    intro q h
    rcases delimiter_eq_literal h with rfl | rfl
    · decide
    · decide
  self := by
    intro c _ h
    rcases h with rfl | h
    · rfl
    · rcases delimiter_eq_literal h with rfl | rfl
      · rfl
      · rfl
  short := fun _ _ => Nat.le_refl 1
  extra := fun _ _ _ hd => absurd hd List.not_mem_nil

/-- The word behind opening parentheses. -/
def keywordOf : List Token → Option (List Char)
  | .symbol '(' :: ts => keywordOf ts
  | .word upper :: _ => some upper
  | _ => none

/-- The same tokens, words up to their case. -/
def SameTokens (text text' : String) : Prop :=
  ∃ ts, tdengine.tokens text.toList = some ts ∧ tdengine.tokens text'.toList = some ts

/-- The word that the text starts with, in capitals. -/
def wordAt : List Char → Option (List Char)
  | [] => none
  | c :: rest =>
    if isWord c then some (asciiUpper ((c :: rest).takeWhile isWord)) else none

def firstKeywordFrom : Nat → List Char → Option (List Char)
  | 0, _ => none
  | fuel + 1, text =>
    match tdengine.lead.skip text with
    | '(' :: rest => firstKeywordFrom fuel rest
    | rest => wordAt rest

/-- The first keyword, behind comments, blanks and opening parentheses. -/
def firstKeyword (text : String) : Option (List Char) :=
  firstKeywordFrom (text.toList.length + 1) text.toList

/-- The text from the first character that is neither a blank nor an opening parenthesis,
behind the leading comments. -/
def bodyOf (text : String) : List Char :=
  (tdengine.lead.skip text.toList).dropWhile isWordBreak

/-- No comment follows the parentheses, and the first keyword ends at a blank, at a
parenthesis or with the text. -/
structure WellSpaced (text : String) : Prop where
  comment : commentRest (bodyOf text) = none
  keyword : (bodyOf text).takeWhile isWord ≠ [] →
    ((bodyOf text).dropWhile isWord).head?.all isWordBreak = true

/-! ## What the scanner takes for the first word -/

theorem stripPrefix_eq_some {word : String} {a b : Char} (hword : word.toList = [a, b])
    {text rest : List Char} : stripPrefix word text = some rest ↔ text = a :: b :: rest := by
  rw [stripPrefix_eq_some_iff, hword]
  rfl

theorem commentRest_eq_some {text rest : List Char} (h : commentRest text = some rest) :
    ∃ tail, text = '-' :: '-' :: tail ∨ text = '/' :: '/' :: tail ∨ text = '/' :: '*' :: tail := by
  unfold commentRest at h
  split at h
  case h_1 tail => exact ⟨tail, Or.inl rfl⟩
  case h_2 tail => exact ⟨tail, Or.inr (Or.inl rfl)⟩
  case h_3 tail => exact ⟨tail, Or.inr (Or.inr rfl)⟩
  case h_4 => cases h

theorem stripComments_succ (fuel : Nat) (text : List Char) :
    stripComments (fuel + 1) text =
      match commentRest text with
      | some rest => stripComments fuel (trimStart rest)
      | none => text := by
  have hdashes : ("--" : String).toList = ['-', '-'] := by decide
  have hslashes : ("//" : String).toList = ['/', '/'] := by decide
  have hblock : ("/*" : String).toList = ['/', '*'] := by decide
  rw [stripComments]
  cases hline : stripPrefix "--" text with
  | some rest =>
      rw [(stripPrefix_eq_some hdashes).mp hline]
      rfl
  | none =>
      cases hslash : stripPrefix "//" text with
      | some rest =>
          rw [(stripPrefix_eq_some hslashes).mp hslash]
          rfl
      | none =>
          cases hstar : stripPrefix "/*" text with
          | some rest =>
              rw [(stripPrefix_eq_some hblock).mp hstar]
              rfl
          | none =>
              cases hcomment : commentRest text with
              | none => rfl
              | some rest =>
                  obtain ⟨tail, htext | htext | htext⟩ := commentRest_eq_some hcomment
                  · rw [(stripPrefix_eq_some hdashes).mpr htext] at hline
                    cases hline
                  · rw [(stripPrefix_eq_some hslashes).mpr htext] at hslash
                    cases hslash
                  · rw [(stripPrefix_eq_some hblock).mpr htext] at hstar
                    cases hstar

theorem stripComments_eq_skip {fuel : Nat} {text : List Char} (hfuel : text.length ≤ fuel) :
    stripComments fuel (trimStart text) = tdengine.lead.skip text := by
  induction fuel generalizing text with
  | zero =>
      obtain rfl := List.length_eq_zero_iff.mp (Nat.le_zero.mp hfuel)
      rfl
  | succ fuel ih =>
      rw [stripComments_succ]
      cases hcomment : commentRest (trimStart text) with
      | none => exact (tdengine.lead.skip_of_token hcomment).symm
      | some rest =>
          have hless := opens_commentRest.length_lt _ _ hcomment
          have hle : (trimStart text).length ≤ text.length := (List.dropWhile_suffix _).length_le
          rw [tdengine.lead.skip_of_comment hcomment]
          exact ih (by omega)

theorem isWriteStatement_eq (text : String) :
    isWriteStatement text = true ↔
      String.ofList (asciiUpper ((bodyOf text).takeWhile fun c => !isWordBreak c)) ∈
        writeWords := by
  have hfuel : text.toList.length ≤ text.length := Nat.le_of_eq String.length_toList
  rw [isWriteStatement, stripComments_eq_skip hfuel, decide_eq_true_iff]
  rfl

/-! ## The first keyword -/

theorem not_word_of_delimiter {c : Char} {kind : Delimited} (h : delimiter c = some kind) :
    isWord c = false ∧ c ≠ '(' := by
  have hsome : delimiter c ≠ none := by
    rw [h]
    exact Option.some_ne_none kind
  rcases delimiter_cases hsome with rfl | rfl | rfl
  · decide
  · decide
  · decide

theorem firstKeywordFrom_of_tokens {fuel : Nat} {text : List Char} {ts : List Token}
    (hfuel : text.length < fuel) (hts : tdengine.tokens text = some ts) :
    firstKeywordFrom fuel text = keywordOf ts := by
  induction fuel generalizing text ts with
  | zero => exact absurd hfuel (Nat.not_lt_zero _)
  | succ fuel ih =>
      have hlength := tdengine.lead.length_skip_le text
      rw [Rules.tokens_eq] at hts
      rw [firstKeywordFrom]
      cases hskip : tdengine.lead.skip text with
      | nil =>
          rw [hskip] at hts
          cases hts
          rfl
      | cons c rest =>
          rw [hskip, Rules.tokensAt] at hts
          rw [hskip, List.length_cons] at hlength
          cases hdelimiter : tdengine.delimiter c with
          | some kind =>
              obtain ⟨hword, hparen⟩ := not_word_of_delimiter hdelimiter
              rw [hdelimiter] at hts
              obtain ⟨read, -, hmap⟩ := Option.bind_eq_some_iff.mp hts
              obtain ⟨later, -, rfl⟩ := Option.map_eq_some_iff.mp hmap
              cases kind <;> simp [hparen, wordAt, hword, Rules.token, keywordOf]
          | none =>
              rw [hdelimiter] at hts
              simp only [] at hts
              by_cases hword : tdengine.word c = true
              · have hparen : c ≠ '(' := by
                  rintro rfl
                  exact absurd hword (by decide)
                rw [if_pos hword] at hts
                obtain ⟨later, -, rfl⟩ := Option.map_eq_some_iff.mp hts
                change isWord c = true at hword
                simp [hparen, wordAt, hword, keywordOf, tdengine]
              · rw [if_neg hword] at hts
                obtain ⟨later, hlater, rfl⟩ := Option.map_eq_some_iff.mp hts
                change ¬ isWord c = true at hword
                by_cases hparen : c = '('
                · subst hparen
                  change firstKeywordFrom fuel rest = keywordOf later
                  exact ih (by omega) hlater
                · simp [hparen, wordAt, hword, keywordOf]

theorem firstKeyword_of_tokens {text : String} {ts : List Token}
    (hts : tdengine.tokens text.toList = some ts) : firstKeyword text = keywordOf ts :=
  firstKeywordFrom_of_tokens (Nat.lt_succ_self _) hts

theorem isWordBreak_iff {c : Char} :
    isWordBreak c = true ↔ isWhitespace c = true ∨ c = '(' := by
  rw [isWordBreak, Bool.or_eq_true, decide_eq_true_iff]

theorem not_break_of_isWord {c : Char} (h : isWord c = true) : isWordBreak c = false := by
  rw [Bool.eq_false_iff]
  intro hbreak
  rw [isWord, Bool.or_eq_true, Bool.or_eq_true, decide_eq_true_iff, Bool.and_eq_true] at h
  rcases isWordBreak_iff.mp hbreak with hblank | rfl
  · rcases h with (halnum | rfl) | ⟨-, hnot⟩
    · exact Bool.false_ne_true ((not_isWhitespace_of_isAlphanum halnum).symm.trans hblank)
    · exact absurd hblank (by decide)
    · rw [hblank] at hnot
      cases hnot
  · exact absurd h (by decide)

theorem firstKeywordFrom_parens {fuel : Nat} {parens rest : List Char}
    (hfuel : (parens ++ rest).length < fuel) (hparens : ∀ c ∈ parens, isWordBreak c = true)
    (hrest : ∀ c ∈ rest.head?, isWordBreak c = false) (hcomment : commentRest rest = none) :
    firstKeywordFrom fuel (parens ++ rest) = wordAt rest := by
  induction fuel generalizing parens with
  | zero => exact absurd hfuel (Nat.not_lt_zero _)
  | succ fuel ih =>
      rw [firstKeywordFrom]
      cases hdrop : parens.dropWhile isWhitespace with
      | nil =>
          have hstop : rest.dropWhile isWhitespace = rest := by
            cases rest with
            | nil => rfl
            | cons c later =>
                have hc := hrest c rfl
                rw [Bool.eq_false_iff] at hc
                exact List.dropWhile_cons_of_neg fun h => hc (isWordBreak_iff.mpr (Or.inl h))
          have htext : (parens ++ rest).dropWhile isWhitespace = rest := by
            rw [List.dropWhile_append_of_pos (List.dropWhile_eq_nil_iff.mp hdrop), hstop]
          have hskip : tdengine.lead.skip (parens ++ rest) = rest := by
            rw [tdengine.lead.skip_of_token]
            · exact htext
            · change commentRest ((parens ++ rest).dropWhile isWhitespace) = none
              rw [htext]
              exact hcomment
          rw [hskip]
          split
          · exact absurd (hrest '(' rfl) (by decide)
          · rfl
      | cons c later =>
          have hsuffix : c :: later <:+ parens := hdrop ▸ List.dropWhile_suffix _
          have hc : c = '(' := by
            rcases isWordBreak_iff.mp (hparens c (hsuffix.subset List.mem_cons_self)) with h | h
            · have hnot := List.head?_dropWhile_not isWhitespace parens
              rw [hdrop] at hnot
              exact absurd (hnot.symm.trans h) Bool.false_ne_true
            · exact h
          subst hc
          have hskip : tdengine.lead.skip (parens ++ rest) = '(' :: (later ++ rest) := by
            apply Rules.skip_eq_cons _ rfl
            change (parens ++ rest).dropWhile isWhitespace = _
            rw [List.dropWhile_append, hdrop]
            rfl
          have hlength := hsuffix.length_le
          rw [hskip]
          refine ih ?_ fun x hx => hparens x (hsuffix.subset (List.mem_cons_of_mem _ hx))
          rw [List.length_append] at hfuel ⊢
          rw [List.length_cons] at hlength
          omega

theorem not_break_head {text : String} {c : Char} (hc : (bodyOf text).head? = some c) :
    isWordBreak c = false := by
  have hnot := List.head?_dropWhile_not isWordBreak (tdengine.lead.skip text.toList)
  have hbody : (tdengine.lead.skip text.toList).dropWhile isWordBreak = bodyOf text := rfl
  rw [hbody, hc] at hnot
  exact hnot

theorem firstKeyword_eq_wordAt {text : String} (hcomment : commentRest (bodyOf text) = none) :
    firstKeyword text = wordAt (bodyOf text) := by
  have hlength := tdengine.lead.length_skip_le text.toList
  obtain ⟨hblank, htoken⟩ := tdengine.lead.token_skip text.toList
  have hagain : tdengine.lead.skip (tdengine.lead.skip text.toList) =
      tdengine.lead.skip text.toList := by
    rw [tdengine.lead.skip_of_token (by rw [hblank]; exact htoken), hblank]
  have hsame : firstKeyword text =
      firstKeywordFrom (text.toList.length + 1) (tdengine.lead.skip text.toList) := by
    rw [firstKeyword, firstKeywordFrom, firstKeywordFrom, hagain]
  rw [hsame, ← List.takeWhile_append_dropWhile (p := isWordBreak)
    (l := tdengine.lead.skip text.toList)]
  apply firstKeywordFrom_parens
  · rw [List.takeWhile_append_dropWhile]
    exact Nat.lt_succ_of_le hlength
  · exact fun c hc => List.mem_takeWhile_imp hc
  · exact fun c hc => not_break_head (Option.mem_def.mp hc)
  · exact hcomment

/-! ## Writes -/

theorem isWord_of_toUpper {c : Char} (h : c.toUpper.isUpper = true) : isWord c = true := by
  have hrange : 65 ≤ c.toUpper.toNat ∧ c.toUpper.toNat ≤ 90 := of_decide_eq_true h
  have halpha : c.isAlphanum = true := by
    have hcases : c.isUpper = true ∨ c.isLower = true := by
      rcases toNat_toUpper c with hsame | hshift
      · rw [hsame] at h
        exact Or.inl h
      · have hlow : 97 ≤ c.toNat ∧ c.toNat ≤ 122 := by omega
        exact Or.inr (Bool.and_eq_true_iff.mpr
          ⟨decide_eq_true hlow.1, decide_eq_true hlow.2⟩)
    show (c.isUpper || c.isLower || c.isDigit) = true
    rcases hcases with hupper | hlower
    · rw [hupper]
      rfl
    · rw [hlower, Bool.or_true]
      rfl
  rw [isWord, halpha]
  rfl

theorem isWord_of_writeWord {c : Char} {rest : List Char}
    (h : String.ofList (asciiUpper (c :: rest)) ∈ writeWords) : isWord c = true := by
  have hletters : writeWords.all (fun word => word.toList.head?.all Char.isUpper) = true := by
    decide +kernel
  have hhead := List.all_eq_true.mp hletters _ h
  rw [String.toList_ofList] at hhead
  exact isWord_of_toUpper hhead

theorem takeWhile_eq_word {text : List Char}
    (hstop : (text.dropWhile isWord).head?.all isWordBreak = true) :
    text.takeWhile (fun c => !isWordBreak c) = text.takeWhile isWord := by
  have hword : ∀ c ∈ text.takeWhile isWord, (!isWordBreak c) = true := fun c hc =>
    congrArg (!·) (not_break_of_isWord (List.mem_takeWhile_imp hc))
  have hrest : (text.dropWhile isWord).takeWhile (fun c => !isWordBreak c) = [] := by
    cases htail : text.dropWhile isWord with
    | nil => rfl
    | cons c later =>
        rw [htail] at hstop
        exact List.takeWhile_cons_of_neg (by simpa using hstop)
  calc
    text.takeWhile (fun c => !isWordBreak c) =
        (text.takeWhile isWord ++ text.dropWhile isWord).takeWhile fun c => !isWordBreak c := by
      rw [List.takeWhile_append_dropWhile]
    _ = text.takeWhile isWord := by
      rw [List.takeWhile_append_of_pos hword, hrest, List.append_nil]

theorem isWriteStatement_iff_wordAt {text : String} (hspaced : WellSpaced text) :
    isWriteStatement text = true ↔
      ∃ keyword, wordAt (bodyOf text) = some keyword ∧ String.ofList keyword ∈ writeWords := by
  have hkeyword := hspaced.keyword
  rw [isWriteStatement_eq]
  cases hbody : bodyOf text with
  | nil => exact iff_of_false (by decide) (by simp [wordAt])
  | cons c rest =>
      rw [hbody] at hkeyword
      have hc : isWordBreak c = false := not_break_head (congrArg List.head? hbody)
      by_cases hword : isWord c = true
      · have hne : (c :: rest).takeWhile isWord ≠ [] := by
          rw [List.takeWhile_cons_of_pos hword]
          exact List.cons_ne_nil _ _
        rw [takeWhile_eq_word (hkeyword hne), wordAt, if_pos hword]
        simp
      · rw [wordAt, if_neg hword]
        refine iff_of_false (fun hmem => hword ?_) (by simp)
        rw [List.takeWhile_cons_of_pos (by rw [hc]; rfl)] at hmem
        exact isWord_of_writeWord hmem

/-- A well spaced text is a write if and only if its first keyword is a write word; so respelled
texts are both writes or both not. -/
theorem isWriteStatement_iff_firstKeyword (text text' : String) (hspaced : WellSpaced text) :
    (isWriteStatement text = true ↔
        ∃ keyword, firstKeyword text = some keyword ∧ String.ofList keyword ∈ writeWords) ∧
      (WellSpaced text' → SameTokens text text' →
        isWriteStatement text = isWriteStatement text') := by
  have hiff : ∀ {text : String}, WellSpaced text → (isWriteStatement text = true ↔
      ∃ keyword, firstKeyword text = some keyword ∧ String.ofList keyword ∈ writeWords) := by
    intro text h
    rw [isWriteStatement_iff_wordAt h, firstKeyword_eq_wordAt h.comment]
  refine ⟨hiff hspaced, ?_⟩
  rintro hspaced' ⟨ts, hts, hts'⟩
  rw [Bool.eq_iff_iff, hiff hspaced, hiff hspaced', firstKeyword_of_tokens hts,
    firstKeyword_of_tokens hts']

theorem delete_respelled :
    isWriteStatement "/* old */ delete FROM t -- all" = true ∧
      isWriteStatement "/* old */ delete FROM t -- all" =
        isWriteStatement "\n DELETE\tfrom // every\n T" := by
  have hspaced : WellSpaced "/* old */ delete FROM t -- all" :=
    ⟨by decide +kernel, by decide +kernel⟩
  have hspaced' : WellSpaced "\n DELETE\tfrom // every\n T" :=
    ⟨by decide +kernel, by decide +kernel⟩
  have hsame : SameTokens "/* old */ delete FROM t -- all" "\n DELETE\tfrom // every\n T" :=
    ⟨[.word "DELETE".toList, .word "FROM".toList, .word "T".toList], by decide +kernel,
      by decide +kernel⟩
  have hboth := isWriteStatement_iff_firstKeyword _ "\n DELETE\tfrom // every\n T" hspaced
  exact ⟨hboth.1.mpr ⟨"DELETE".toList, by decide +kernel, by decide +kernel⟩,
    hboth.2 hspaced' hsame⟩

/-- The read keywords that the documentation of the classifier lists. -/
def readWords : List String := ["SHOW", "SELECT", "DESCRIBE", "EXPLAIN"]

/-- An unknown first keyword is let through as a read. -/
theorem unknown_keyword_read :
    ¬ ∀ text keyword, firstKeyword text = some keyword → String.ofList keyword ∉ readWords →
      isWriteStatement text = true := by
  intro hall
  have hwrite := hall "FLUSH DATABASE db" "FLUSH".toList (by decide +kernel) (by decide +kernel)
  have hread : isWriteStatement "FLUSH DATABASE db" = false := by decide +kernel
  rw [hread] at hwrite
  cases hwrite

end Dbmaster.Gateway.Respelling
