import Dbmaster.QueryStats.Digits
import Dbmaster.QueryStats.Words
/-!
# Normal forms and identifiers

The digits of an identifier are taken for a number, and statements on different objects are
merged.  Where no identifier has a digit they stay apart.
-/

namespace Dbmaster.QueryStats.Identifiers

open Dbmaster.Lib Dbmaster.Lib.Text Dbmaster.Lib.Lexing Dbmaster.QueryStats.Normalize
open Dbmaster.QueryStats.Pieces Dbmaster.QueryStats.Strides Dbmaster.QueryStats.Words
open Dbmaster.QueryStats.Digits (normalizeSql_digit)

/-! ## Identifiers -/

/-- The identifiers of the pieces, under a folding that knows which words are keywords. -/
def identifiers (engine : Engine) (fold : Token → Option (List Char)) (ps : List Piece) :
    List (List Char) :=
  (wordsFrom engine .code [] ps).filterMap fold

/-- Words and names in lower case. -/
def lowerCase : Token → Option (List Char)
  | .word text => some (text.map Char.toLower)
  | .name text => some (text.map Char.toLower)
  | _ => none

/-! ## Merged statements -/

/-- A statement on the table of this name. -/
def selectFrom (table : String) : List Piece :=
  plain "SELECT" ++ .blank [' '] :: plain "*" ++ .blank [' '] :: plain "FROM" ++
    .blank [' '] :: plain table

variable {engine : Engine} {spells : Char → Bool}

/-- Statements of these texts are not merged. -/
def Apart (sql sql' : List Char) : Prop :=
  normalizeSql sql ≠ normalizeSql sql' ∧
    (sql.length ≤ digestMaxChars → sql'.length ≤ digestMaxChars →
      normalizeDigest sql ≠ normalizeDigest sql')

theorem apart_of_normalizeSql {sql sql' : List Char} (hne : normalizeSql sql ≠ normalizeSql sql') :
    Apart sql sql' := by
  refine ⟨hne, fun hshort hshort' => ?_⟩
  rw [normalizeDigest_of_short hshort, normalizeDigest_of_short hshort']
  exact hne

theorem apart_of_identifiers (hspells : ∀ c, spells c = true → c.isDigit = false)
    {fold : Token → Option (List Char)} {ps ps' : List Piece} (h : Spelled engine spells ps)
    (h' : Spelled engine spells ps')
    (hdiffer : identifiers engine fold ps ≠ identifiers engine fold ps') :
    Apart (render ps) (render ps') := by
  apply apart_of_normalizeSql
  intro hsame
  apply hdiffer
  rw [identifiers, identifiers, ← wordsFrom_normalizeSql hspells h, hsame,
    wordsFrom_normalizeSql hspells h']

theorem next_word {c : Char} (h : isWordChar c = true) (rest : List Char) :
    engine.next .code c rest = .code := by
  have hne : ∀ {d : Char}, isWordChar d = false → c ≠ d := fun hd => ne_of_test h hd
  have hclosing : engine.rules.closing c = none := by
    simp only [Engine.rules, hne (d := '\'') (by decide), hne (d := '"') (by decide),
      hne (d := '`') (by decide), hne (d := '[') (by decide), or_self, false_and, if_false]
  simp only [Engine.next, Rules.next, startsLine_none engine.rules (hne (d := '-') (by decide)) (hne (by decide)),
    hne (d := '/') (by decide), hclosing, false_and, if_false]
  rfl

theorem not_isDigit_of_isAlpha {c : Char} (h : c.isAlpha = true) : c.isDigit = false := by
  have hrange : (65 ≤ c.toNat ∧ c.toNat ≤ 90) ∨ (97 ≤ c.toNat ∧ c.toNat ≤ 122) := by
    have hcases : (c.isUpper || c.isLower) = true := h
    rcases Bool.or_eq_true_iff.mp hcases with hupper | hlower
    · exact .inl (of_decide_eq_true hupper)
    · obtain ⟨hlow, hhigh⟩ := Bool.and_eq_true_iff.mp hlower
      exact .inr ⟨of_decide_eq_true hlow, of_decide_eq_true hhigh⟩
  rw [Bool.eq_false_iff]
  intro hdigit
  obtain ⟨hlow, hhigh⟩ := Bool.and_eq_true_iff.mp hdigit
  have hlow' : 48 ≤ c.toNat := of_decide_eq_true hlow
  have hhigh' : c.toNat ≤ 57 := of_decide_eq_true hhigh
  omega

theorem isWordChar_of_isAlphanum {c : Char} (h : c.isAlphanum = true) : isWordChar c = true := by
  rw [isWordChar, h]
  rfl

theorem extends_of_isAlphanum {c : Char} (h : c.isAlphanum = true) (word : List Char) :
    engine.extends word c = true := by
  have hdollar : (c == '$') = false := beq_eq_false_iff_ne.mpr (ne_of_test h (by decide))
  rw [Engine.extends, isWordChar_of_isAlphanum h, hdollar, Bool.and_false]
  rfl

theorem runsInto_chars (text : List Char) : runsInto (text.map .char) = false := by
  have hdrop := dropWhile_chars isDigitOrDot text []
  rw [List.append_nil] at hdrop
  rw [runsInto, hdrop]
  split_ifs with hnil
  · rfl
  · rcases text.dropWhile isDigitOrDot with _ | ⟨c, _ | ⟨d, _ | ⟨e, rest⟩⟩⟩ <;> rfl

theorem delimited_word {text : List Char} (h : ∀ c ∈ text, c.isAlphanum = true) :
    delimited (text.map .char) = true := by
  induction text with
  | nil => rfl
  | cons c text ih =>
      have hquote : (c != '\'') = true :=
        bne_iff_ne.mpr (ne_of_test (h c List.mem_cons_self) (by decide))
      have hstarts : startsNumber (text.map .char) = false ∧ startsHex (text.map .char) = false := by
        cases text <;> exact ⟨rfl, rfl⟩
      rw [List.map_cons, delimited, hquote, runsInto_chars, hstarts.1, hstarts.2,
        ih fun d hd => h d (List.mem_cons_of_mem c hd)]
      simp only [Bool.and_false, Bool.not_false, Bool.and_self]

theorem reads_word {text word : List Char} (h : ∀ c ∈ text, c.isAlphanum = true)
    (hstart : word ≠ [] ∨ ∀ c ∈ text.head?, c.isDigit = false) :
    engine.reads .code word (text.map .char) = true := by
  induction text generalizing word with
  | nil => rw [List.map_nil, Engine.reads]
  | cons c text ih =>
      have halnum := h c List.mem_cons_self
      have hc := isWordChar_of_isAlphanum halnum
      have hquote : (c != '\'') = true := bne_iff_ne.mpr (ne_of_test hc (by decide))
      have hdigit : (!c.isDigit || !word.isEmpty) = true := by
        rcases hstart with hword | hhead
        · rw [List.isEmpty_eq_false_iff.mpr hword, Bool.not_false, Bool.or_true]
        · rw [hhead c rfl, Bool.not_false, Bool.true_or]
      have hrest := ih (fun d hd => h d (List.mem_cons_of_mem c hd))
        (.inl (List.append_ne_nil_of_right_ne_nil word (List.cons_ne_nil c [])))
      rw [List.map_cons, Engine.reads, next_word hc, if_pos (extends_of_isAlphanum halnum word),
        hrest, hquote, hdigit, isBlank, hc, Bool.not_true, Bool.and_false]
      rfl

theorem clean_word {text : List Char} (h : ∀ c ∈ text, c.isAlphanum = true)
    (hspelled : ∀ c ∈ text, isSpelled spells c = true) :
    clean engine spells .code (text.map .char) = true := by
  induction text with
  | nil => rfl
  | cons c text ih =>
      have hc := isWordChar_of_isAlphanum (h c List.mem_cons_self)
      have hdash : (c != '-') = true := bne_iff_ne.mpr (ne_of_test hc (by decide))
      have hdashes : dashes engine c (text.map .char) = true := by
        cases text with
        | nil => rfl
        | cons d text => rw [List.map_cons, dashes, hdash, Bool.true_or, Bool.true_or]
      have hrest := ih (fun d hd => h d (List.mem_cons_of_mem c hd))
        fun d hd => hspelled d (List.mem_cons_of_mem c hd)
      rw [List.map_cons]
      show (allows engine spells .code c (text.map .char) && clean engine spells
        (engine.next .code c (render (text.map .char))) (text.map .char)) = true
      rw [next_word hc, hrest, allows, hspelled c List.mem_cons_self, hdashes]
      rfl

theorem wordsFrom_word {text : List Char} (h : ∀ c ∈ text, c.isAlphanum = true)
    (word : List Char) :
    wordsFrom engine .code word (text.map .char) =
      (wordToken (word ++ text)).filter isIdentifier := by
  induction text generalizing word with
  | nil =>
      rw [List.append_nil]
      rfl
  | cons c text ih =>
      have hc := h c List.mem_cons_self
      rw [List.map_cons, wordsFrom_char, next_word (isWordChar_of_isAlphanum hc), Engine.emits,
        if_pos (extends_of_isAlphanum hc word),
        ih fun d hd => h d (List.mem_cons_of_mem c hd), List.append_assoc]
      rfl

section Numbered

variable {a d : Char}

/-- A name with a number at its end. -/
def numbered (a d : Char) (n : Nat) : List Char := a :: List.replicate n d

/-- The number is lost, however long. -/
theorem normalizeSql_numbered (ha : a.isAlpha = true) (hd : d.isDigit = true) (n : Nat) :
    normalizeSql (numbered a d (n + 1)) = [a, '?'] := by
  have halnum : a.isAlphanum = true := by rw [Char.isAlphanum, ha, Bool.true_or]
  have hquote : a ≠ '\'' := ne_of_test ha (by decide)
  have hsign : isSign a = false := by
    rw [Bool.eq_false_iff]
    intro hs
    rcases eq_of_isSign hs with rfl | rfl <;> exact absurd ha (by decide)
  have htail : consumeNumberTail (d == '0') (List.replicate n d) = [] := by
    have hx : ((d == '0') && peeks isX (List.replicate n d)) = false := by
      cases n with
      | zero => exact Bool.and_false _
      | succ n =>
          have hnot : isX d = false := by
            rw [Bool.eq_false_iff]
            intro hx
            rcases eq_of_isX hx with rfl | rfl <;> exact absurd hd (by decide)
          have hpeek : peeks isX (List.replicate (n + 1) d) = false := hnot
          rw [hpeek, Bool.and_false]
    have hdrop : (List.replicate n d).dropWhile isDigitOrDot = [] := by
      rw [List.dropWhile_eq_nil_iff]
      intro c hc
      rw [List.eq_of_mem_replicate hc]
      exact isDigitOrDot_of_isDigit d hd
    rw [consumeNumberTail_decimal hx, hdrop]
    rfl
  have hfirst : Loop.step ⟨[], a :: List.replicate (n + 1) d⟩ = ⟨[a], List.replicate (n + 1) d⟩ := by
    rw [Loop.step, if_neg hquote, not_isDigit_of_isAlpha ha, if_neg Bool.false_ne_true, hsign,
      Bool.false_and, if_neg Bool.false_ne_true, not_isWhitespace_of_isAlphanum halnum,
      if_neg Bool.false_ne_true]
    rfl
  rw [numbered, normalizeSql, ← finish_step, hfirst, List.replicate_succ, ← finish_step,
    step_digit hd, htail]
  rfl

theorem isAlphanum_of_mem_numbered (ha : a.isAlpha = true) (hd : d.isDigit = true) (n : Nat) :
    ∀ c ∈ numbered a d n, c.isAlphanum = true := by
  intro c hc
  rcases List.mem_cons.mp hc with rfl | hc
  · rw [Char.isAlphanum, ha, Bool.true_or]
  · rw [List.eq_of_mem_replicate hc]
    exact isAlphanum_of_isDigit hd

theorem spelled_numbered (ha : a.isAlpha = true) (hd : d.isDigit = true) (hspells : spells a = true)
    (hspells' : spells d = true) (n : Nat) :
    Spelled engine spells ((numbered a d n).map .char) := by
  have hword := isAlphanum_of_mem_numbered ha hd n
  refine ⟨reads_word hword (.inr ?_), delimited_word hword, clean_word hword ?_⟩
  · intro c hc
    cases hc
    exact not_isDigit_of_isAlpha ha
  · intro c hc
    have hspelled : spells c = true := by
      rcases List.mem_cons.mp hc with rfl | hc
      · exact hspells
      · rw [List.eq_of_mem_replicate hc]
        exact hspells'
    rw [isSpelled, hspelled, not_isWhitespace_of_isAlphanum (hword c hc), Bool.or_true]
    rfl

theorem identifiers_numbered (ha : a.isAlpha = true) (hd : d.isDigit = true) (n : Nat) :
    identifiers engine lowerCase ((numbered a d n).map .char) =
      [(numbered a d n).map Char.toLower] := by
  rw [identifiers, wordsFrom_word (isAlphanum_of_mem_numbered ha hd n)]
  rfl

end Numbered

/-! ## Normal forms as statements -/

/-- A text without literals, in the pieces that the engine reads. -/
def cut (engine : Engine) : Mode → List Char → List Piece
  | _, [] => []
  | .code, ' ' :: text => .blank [' '] :: cut engine .code text
  | mode, c :: text => .char c :: cut engine (engine.next mode c text) text

theorem render_cut (mode : Mode) (text : List Char) : render (cut engine mode text) = text := by
  fun_induction cut engine mode text with
  | case1 => rfl
  | case2 text ih => rw [render_cons, ih]; rfl
  | case3 mode c text _ ih => rw [render_cons, ih]; rfl

/-- Such a text has only plain characters, and its spaces stand alone. -/
structure Tame (text : List Char) : Prop where
  plain : ∀ c ∈ text, Plain c
  single : text.IsChain fun c d => ¬ (c = ' ' ∧ d = ' ')

theorem tame_normalizeSql (sql : List Char) : Tame (normalizeSql sql) :=
  ⟨(isNormal_normalizeSql sql).plain, (isNormal_normalizeSql sql).single⟩

namespace Tame

variable {mode : Mode} {c : Char} {text : List Char}

theorem tail (h : Tame (c :: text)) : Tame text :=
  ⟨fun d hd => h.plain d (List.mem_cons_of_mem c hd), h.single.tail⟩

theorem isWhitespace_iff (h : Tame (c :: text)) : isWhitespace c = true ↔ c = ' ' :=
  ⟨(h.plain c List.mem_cons_self).2.2, fun hc => by rw [hc]; decide⟩

theorem not_peeks (h : Tame (' ' :: text)) : peeks isWhitespace text = false := by
  cases text with
  | nil => rfl
  | cons d text =>
      rw [Bool.eq_false_iff]
      intro hd
      exact h.single.rel ⟨rfl, h.tail.isWhitespace_iff.mp hd⟩

theorem starts (h : Tame text) : startsDigit (cut engine mode text) = false ∧
    startsNumber (cut engine mode text) = false ∧ startsHex (cut engine mode text) = false := by
  fun_cases cut engine mode text with
  | case1 => exact ⟨rfl, rfl, rfl⟩
  | case2 => exact ⟨rfl, rfl, rfl⟩
  | case3 => exact ⟨(h.plain _ List.mem_cons_self).2.1, rfl, rfl⟩

theorem delimited_cut (h : Tame text) : delimited (cut engine mode text) = true := by
  fun_induction cut engine mode text with
  | case1 => rfl
  | case2 text ih => exact ih h.tail
  | case3 mode c text _ ih =>
      obtain ⟨hquote, hdigit, _⟩ := h.plain c List.mem_cons_self
      obtain ⟨_, hnumber, hhex⟩ := @starts engine (engine.next mode c text) _ h.tail
      rw [delimited, hnumber, hhex, hdigit, ih h.tail, bne_iff_ne.mpr hquote]
      simp only [Bool.and_false, Bool.false_and, Bool.not_false, Bool.and_self]

theorem startsBlank_cut (h : Tame (' ' :: text)) : startsBlank (cut engine mode text) = false := by
  fun_cases cut engine mode text with
  | case1 => rfl
  | case2 => exact absurd ⟨rfl, rfl⟩ h.single.rel
  | case3 => rfl

theorem reads_cut (h : Tame text) (word : List Char) :
    engine.reads mode word (cut engine mode text) = true := by
  fun_induction cut engine mode text generalizing word with
  | case1 => rw [Engine.reads]
  | case2 text ih =>
      have hblank : [' '].all isBlank = true := by decide
      rw [Engine.reads, h.startsBlank_cut, hblank, ih h.tail]
      rfl
  | case3 mode c text hcode ih =>
      obtain ⟨hquote, hdigit, _⟩ := h.plain c List.mem_cons_self
      cases mode with
      | code =>
          have hspace : c ≠ ' ' := hcode rfl
          have hblank : isBlank c = false := by
            rw [isBlank, Bool.eq_false_iff.mpr (mt h.isWhitespace_iff.mp hspace), Bool.false_and]
          rw [Engine.reads, render_cut, ih h.tail, hblank, hdigit, bne_iff_ne.mpr hquote]
          rfl
      | quoted | escaped | line | block =>
          rw [Engine.reads, render_cut]
          · exact ih h.tail []
          · rintro ⟨⟩

theorem newline_not_mem (h : Tame text) : '\n' ∉ text := by
  intro hmem
  exact absurd ((h.plain _ hmem).2.2 (by decide)) (by decide)

theorem dashes_cut (h : Tame text) : dashes engine c (cut engine mode text) = true := by
  fun_cases cut engine mode text with
  | case1 => rfl
  | case2 => rfl
  | case3 mode d text =>
      rw [dashes, h.tail.starts.1, render_cut]
      have hknown : (!peeks isWhitespace text || peeks Char.isWhitespace text) = true := by
        cases text with
        | nil => rfl
        | cons e text =>
            show (!isWhitespace e || e.isWhitespace) = true
            cases he : isWhitespace e with
            | false => rfl
            | true =>
                rw [h.tail.isWhitespace_iff.mp he]
                decide
      rw [hknown, Bool.not_false, ite_self, Bool.or_true]

theorem isNamed_of (h : Tame (c :: text)) :
    isNamed (fun c => !c.isDigit) c (cut engine mode text) = true := by
  have hdigit := (h.plain c List.mem_cons_self).2.1
  rw [isNamed, hdigit, render_cut]
  cases hc : isWhitespace c with
  | false => simp
  | true =>
      have hspace := h.isWhitespace_iff.mp hc
      subst hspace
      rw [h.not_peeks]
      simp

theorem allows_cut (h : Tame (c :: text)) (hcode : mode = .code → c ≠ ' ') (mode' : Mode) :
    allows engine (fun c => !c.isDigit) mode c (cut engine mode' text) = true := by
  have hnamed := @isNamed_of engine mode' _ _ h
  cases mode with
  | code =>
      have hwhite := Bool.eq_false_iff.mpr (mt h.isWhitespace_iff.mp (hcode rfl))
      rw [allows, isSpelled, h.tail.dashes_cut, (h.plain c List.mem_cons_self).2.1, hwhite]
      simp
  | quoted | escaped =>
      rw [allows, hnamed, Bool.or_true]
  | line | block => rfl

theorem cut_line (h : '\n' ∉ text) : cut engine .line text = text.map .char := by
  induction text with
  | nil => rfl
  | cons c text ih =>
      rw [List.mem_cons, not_or] at h
      have hnext : engine.next .line c text = .line := by
        simp only [Engine.next, Rules.next, Ne.symm h.1, if_false]
      rw [cut, hnext, ih h.2]
      · rfl
      · rintro ⟨⟩

theorem clean_cut (h : Tame text) :
    clean engine (fun c => !c.isDigit) mode (cut engine mode text) = true := by
  fun_induction cut engine mode text with
  | case1 => rw [clean]
  | case2 text ih => exact ih h.tail
  | case3 mode c text hcode ih =>
      cases mode with
      | line =>
          have hline := @cut_line engine _ h.newline_not_mem
          rw [cut] at hline
          · rw [hline]
            exact List.isEmpty_iff.mpr (wordsFrom_line h.newline_not_mem [])
          · rintro ⟨⟩
      | code | quoted | escaped | block =>
          rw [clean, h.allows_cut hcode, render_cut, ih h.tail]
          · rfl
          · rintro ⟨⟩

end Tame

/-- Every normal form is that of a statement without digits in its identifiers. -/
theorem spelled_cut (sql : List Char) :
    Spelled engine (fun c => !c.isDigit) (cut engine .code (normalizeSql sql)) :=
  have h := tame_normalizeSql sql
  ⟨h.reads_cut [], h.delimited_cut, h.clean_cut⟩

theorem wordsFrom_cut (sql : List Char) :
    wordsFrom engine .code [] ((normalizeSql sql).map .char) =
      wordsFrom engine .code [] (cut engine .code (normalizeSql sql)) := by
  have hwords := wordsFrom_normalizeSql (fun c hc => by simpa using hc)
    (@spelled_cut engine sql)
  rw [render_cut, normalizeSql_of_isNormal (isNormal_normalizeSql sql)] at hwords
  exact hwords

/-- A text is told apart from the statements without digits in their identifiers if and only if
its own identifiers are those of its normal form. -/
theorem apart_iff_stays (fold : Token → Option (List Char)) (ps : List Piece) :
    (∀ ps', Spelled engine (fun c => !c.isDigit) ps' →
        identifiers engine fold ps ≠ identifiers engine fold ps' → Apart (render ps) (render ps')) ↔
      identifiers engine fold ((normalizeSql (render ps)).map .char) =
        identifiers engine fold ps := by
  have hcut : identifiers engine fold ((normalizeSql (render ps)).map .char) =
      identifiers engine fold (cut engine .code (normalizeSql (render ps))) := by
    rw [identifiers, identifiers, wordsFrom_cut]
  constructor
  · intro hapart
    rw [hcut]
    by_contra hdiffer
    have hne := (hapart _ (spelled_cut (render ps)) (Ne.symm hdiffer)).1
    rw [render_cut, normalizeSql_of_isNormal (isNormal_normalizeSql _)] at hne
    exact hne rfl
  · intro hstays ps' h' hdiffer
    apply apart_of_normalizeSql
    intro hsame
    apply hdiffer
    rw [← hstays, identifiers, identifiers, hsame,
      wordsFrom_normalizeSql (fun c hc => by simpa using hc) h']

/-- A statement with a quoted name, a parameter, literals and a comment. -/
def selectWhere (name : String) : List Piece :=
  plain "SELECT" ++ .blank [' '] :: plain "\"order \"\"" ++ plain name ++ plain "\"" ++
    .blank ['\n'] :: plain "/* 1st */" ++ .blank [' '] :: plain "=-" ++
    .number "0.5".toList :: plain "+$" ++ .number "1".toList :: plain "," ++
    .string "it''s".toList :: plain "--"

end Dbmaster.QueryStats.Identifiers
