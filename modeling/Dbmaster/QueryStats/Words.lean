import Dbmaster.QueryStats.Strides
/-!
# Words of normal forms

The words and quoted names of a statement can be read off its normal form, where they have no
digit and nothing else of the statement is read apart from how the engine reads it.
-/

namespace Dbmaster.QueryStats.Words

open Dbmaster.Lib Dbmaster.Lib.Text Dbmaster.Lib.Lexing Dbmaster.QueryStats.Normalize
open Dbmaster.QueryStats.Pieces Dbmaster.QueryStats.Strides

/-! ## Words -/

def isIdentifier : Token → Bool
  | .word _ => true
  | .name _ => true
  | _ => false

/-- The words and quoted names among the tokens; keywords are words. -/
def wordsFrom (engine : Engine) (mode : Mode) (text : List Char) (ps : List Piece) : List Token :=
  (engine.tokensFrom mode text ps).filter isIdentifier

/-! ## Statements whose identifiers stay -/

/-- A character of words is one that they are spelled with, and none is a blank. -/
def isSpelled (spells : Char → Bool) (c : Char) : Bool :=
  (!isWordChar c || spells c) && !isWhitespace c

/-- Before these pieces the character does not make two dashes that are a comment for the
engine and not so in the normal form, or the other way. -/
def dashes (engine : Engine) (c : Char) : List Piece → Bool
  | .char d :: ps =>
      c != '-' || d != '-' ||
        (if engine.bareDashes then !startsDigit ps
          else !peeks isWhitespace (render ps) || peeks Char.isWhitespace (render ps))
  | _ => true

/-- A blank of a quoted name is a space, and no other blank follows. -/
def isNamed (spells : Char → Bool) (c : Char) (ps : List Piece) : Bool :=
  (!isWordChar c || spells c) &&
    (!isWhitespace c || (c == ' ' && !peeks isWhitespace (render ps)))

/-- An identifier that the character is part of is spelled so, with no blank or, where it is
quoted, none but single spaces. -/
def allows (engine : Engine) (spells : Char → Bool) (mode : Mode) (c : Char)
    (ps : List Piece) : Bool :=
  match mode with
  | .code => isSpelled spells c && dashes engine c ps
  | .quoted close => !engine.closesName close || isNamed spells c ps
  | .escaped close => !engine.closesName close || isNamed spells c ps
  | _ => true

/-- The identifiers of the pieces are spelled so, and none follows the start of a line
comment. -/
def clean (engine : Engine) (spells : Char → Bool) : Mode → List Piece → Bool
  | _, [] => true
  | .line, p :: ps => (wordsFrom engine .line [] (p :: ps)).isEmpty
  | mode, .char c :: ps =>
      allows engine spells mode c ps &&
        clean engine spells (engine.next mode c (render ps)) ps
  | mode, _ :: ps => clean engine spells mode ps

/-- The engine reads the pieces, the normaliser delimits their literals as the engine does,
and the identifiers are spelled with these characters. -/
structure Spelled (engine : Engine) (spells : Char → Bool) (ps : List Piece) : Prop where
  reads : engine.reads .code [] ps = true
  isDelimited : delimited ps = true
  isClean : clean engine spells .code ps = true

/-! ## Heads of normal forms -/

/-- Neither a digit nor a blank. -/
def isSteady (c : Char) : Bool := !c.isDigit && !isWhitespace c

theorem not_isDigit_of_spells {spells : Char → Bool}
    (hspells : ∀ c, spells c = true → c.isDigit = false) {c : Char}
    (h : (!isWordChar c || spells c) = true) : c.isDigit = false := by
  rw [Bool.or_eq_true, Bool.not_eq_true'] at h
  rcases h with hnot | hspelled
  · rw [Bool.eq_false_iff]
    intro hdigit
    rw [isWordChar, isAlphanum_of_isDigit hdigit] at hnot
    cases hnot
  · exact hspells c hspelled

theorem isSteady_of_isSpelled {spells : Char → Bool}
    (hspells : ∀ c, spells c = true → c.isDigit = false) {c : Char}
    (h : isSpelled spells c = true) : isSteady c = true := by
  rw [isSpelled, Bool.and_eq_true, Bool.not_eq_true'] at h
  rw [isSteady, not_isDigit_of_spells hspells h.1, h.2]
  rfl

theorem form_char {c : Char} {ps : List Piece} (hsteady : isSteady c = true)
    (hsign : (isSign c && startsDigit ps) = false) :
    form 0 (.char c :: ps) = c :: form 0 ps := by
  rw [isSteady, Bool.and_eq_true, Bool.not_eq_true', Bool.not_eq_true'] at hsteady
  have hdigit : ¬ c.isDigit = true := Bool.eq_false_iff.mp hsteady.1
  have hwhite : ¬ isWhitespace c = true := Bool.eq_false_iff.mp hsteady.2
  have hsign' : ¬ (isSign c && startsDigit ps) = true := Bool.eq_false_iff.mp hsign
  rw [form_step, mark, stride, if_neg hdigit, if_neg hsign', if_neg hwhite, if_neg hdigit,
    if_neg hsign', if_neg hwhite]
  rfl

theorem head_form_char (c : Char) (ps : List Piece) :
    (form 0 (.char c :: ps)).head? = some '?' ∧ (c.isDigit = true ∨ isSign c = true) ∨
      (form 0 (.char c :: ps)).head? = some ' ' ∧ isWhitespace c = true ∨
      (form 0 (.char c :: ps)).head? = some c := by
  rw [form_step, mark]
  split_ifs with hdigit hsign hwhite htakes
  · exact .inl ⟨rfl, .inl hdigit⟩
  · exact .inl ⟨rfl, .inr (Bool.and_eq_true_iff.mp hsign).1⟩
  · exact .inr (.inl ⟨rfl, hwhite⟩)
  · exact absurd rfl htakes
  · exact .inr (.inr rfl)

theorem head_render_blank {text : List Char} {ps : List Piece}
    (h : sound (.blank text :: ps) = true) :
    ∃ w, (render (.blank text :: ps)).head? = some w ∧ isWhitespace w = true := by
  obtain ⟨w, rest, rfl, hw⟩ := exists_of_blank h
  exact ⟨w, rfl, hw⟩

theorem head_render_number {text : List Char} {ps : List Piece}
    (h : sound (.number text :: ps) = true) :
    ∃ d, (render (.number text :: ps)).head? = some d ∧ d.isDigit = true := by
  obtain ⟨d, rest, rfl, _, hd⟩ := exists_of_number h
  exact ⟨d, rfl, hd⟩

/-- The signs that comments are made of, but for the dash, and the closes of quoted texts,
but for that of a literal. -/
def standing : List Char := ['*', '/', '"', '`', ']']

theorem head_form {d : Char} (hd : d ∈ standing) {ps : List Piece} (hsound : sound ps = true) :
    (form 0 ps).head? = some d ↔ (render ps).head? = some d := by
  have hother : ∀ d ∈ standing, isWhitespace d = false ∧ d.isDigit = false ∧ isSign d = false ∧
      d ≠ '?' ∧ d ≠ ' ' ∧ d ≠ '\'' := by
    simp only [standing, List.forall_mem_cons, List.not_mem_nil, false_imp_iff, implies_true,
      and_true]
    decide +kernel
  obtain ⟨hwhite, hdigit, hsign, hmark, hspace, hquote⟩ := hother d hd
  have hnone : ∀ {x y : Char}, x ≠ d → y ≠ d → (some x = some d ↔ some y = some d) :=
    fun hx hy => ⟨fun h => absurd (Option.some.inj h) hx, fun h => absurd (Option.some.inj h) hy⟩
  cases ps with
  | nil => rfl
  | cons p ps =>
      cases p with
      | char c =>
          have hrender : (render (.char c :: ps)).head? = some c := rfl
          rw [hrender]
          rcases head_form_char c ps with ⟨hhead, hdigit' | hsign'⟩ | ⟨hhead, hwhite'⟩ | hhead
          · rw [hhead]
            exact hnone (Ne.symm hmark) (ne_of_test hdigit' hdigit)
          · rw [hhead]
            exact hnone (Ne.symm hmark) (ne_of_test hsign' hsign)
          · rw [hhead]
            exact hnone (Ne.symm hspace) (ne_of_test hwhite' hwhite)
          · rw [hhead]
      | blank text =>
          obtain ⟨w, hhead, hw⟩ := head_render_blank hsound
          rw [hhead]
          exact hnone (Ne.symm hspace) (ne_of_test hw hwhite)
      | string body => exact hnone (Ne.symm hmark) (Ne.symm hquote)
      | number text =>
          obtain ⟨n, hhead, hn⟩ := head_render_number hsound
          rw [hhead]
          exact hnone (Ne.symm hmark) (ne_of_test hn hdigit)

theorem isWhitespace_of_charIsWhitespace {c : Char} (h : c.isWhitespace = true) :
    isWhitespace c = true := by
  simp only [Char.isWhitespace, Bool.or_eq_true, decide_eq_true_eq] at h
  rcases h with ((rfl | rfl) | rfl) | rfl <;> decide

theorem peeks_isWhitespace_render {ps : List Piece} (hsound : sound ps = true) :
    peeks isWhitespace (render ps) = true ↔ blanks ps ≠ 0 := by
  cases ps with
  | nil => decide
  | cons p ps =>
      cases p with
      | char c =>
          show isWhitespace c = true ↔ _
          rw [blanks]
          split_ifs with hc
          · simp [hc]
          · simp [hc]
      | blank text =>
          obtain ⟨w, hhead, hw⟩ := head_render_blank hsound
          rw [peeks, hhead]
          exact ⟨fun _ => Nat.succ_ne_zero _, fun _ => hw⟩
      | string body =>
          have hquote : isWhitespace '\'' = false := by decide
          exact ⟨fun h => absurd (hquote.symm.trans h) Bool.false_ne_true, fun h => absurd rfl h⟩
      | number text =>
          obtain ⟨d, hhead, hd⟩ := head_render_number hsound
          have hnot := not_isWhitespace_of_isAlphanum (isAlphanum_of_isDigit hd)
          rw [peeks, hhead]
          exact ⟨fun h => absurd (hnot.symm.trans h) Bool.false_ne_true, fun h => absurd rfl h⟩

theorem head_all_form {ps : List Piece} (hsound : sound ps = true)
    (hknown : peeks isWhitespace (render ps) = true → peeks Char.isWhitespace (render ps) = true) :
    (form 0 ps).head?.all Char.isWhitespace = (render ps).head?.all Char.isWhitespace := by
  cases ps with
  | nil => rfl
  | cons p ps =>
      have hpeeks := peeks_isWhitespace_render hsound
      obtain ⟨x, hx⟩ : ∃ x, (render (p :: ps)).head? = some x := by
        cases p with
        | char c => exact ⟨c, rfl⟩
        | blank text =>
            obtain ⟨w, hhead, _⟩ := head_render_blank hsound
            exact ⟨w, hhead⟩
        | string body => exact ⟨'\'', rfl⟩
        | number text =>
            obtain ⟨d, hhead, _⟩ := head_render_number hsound
            exact ⟨d, hhead⟩
      simp only [peeks, hx, Option.any_some] at hpeeks hknown
      rw [form_step, hx]
      rcases mark_or_blank p ps with ⟨hzero, c, hc, hmark⟩ | ⟨hstride, hmark⟩
      · have hwhite : x.isWhitespace = false := by
          rw [Bool.eq_false_iff]
          intro h
          exact hpeeks.mp (isWhitespace_of_charIsWhitespace h) hzero
        have hwhite' : c.isWhitespace = false := by
          rw [Bool.eq_false_iff]
          intro h
          exact Bool.false_ne_true (hc.symm.trans (isWhitespace_of_charIsWhitespace h))
        rw [hmark]
        exact hwhite'.trans hwhite.symm
      · have hne : blanks (p :: ps) ≠ 0 := by
          rw [← hstride]
          exact Nat.ne_of_gt (stride_pos p ps)
        have hwhite : x.isWhitespace = true := hknown (hpeeks.mpr hne)
        rw [hmark]
        exact hwhite.symm

theorem startsLine_dash (rules : Rules) (text : List Char) :
    rules.startsLine ('-' :: text) =
      (peeks (· == '-') text && (rules.bareDashes || text.tail.head?.all Char.isWhitespace)) := by
  cases text with
  | nil => rfl
  | cons d text =>
      by_cases hd : d = '-'
      · subst hd
        rfl
      · have hpeek : peeks (· == '-') (d :: text) = false := beq_eq_false_iff_ne.mpr hd
        rw [hpeek, Bool.false_and]
        unfold Rules.startsLine
        split
        · rename_i heq
          cases heq
        · rename_i heq
          cases heq
          exact absurd rfl hd
        · rfl

theorem startsLine_none (rules : Rules) {c : Char} (hdash : c ≠ '-') (hhash : c ≠ '#')
    (text : List Char) : rules.startsLine (c :: text) = false := by
  unfold Rules.startsLine
  split
  · rename_i heq
    cases heq
    exact absurd rfl hhash
  · rename_i heq
    cases heq
    exact absurd rfl hdash
  · rfl

theorem startsLine_other (rules : Rules) {c : Char} (hdash : c ≠ '-') (text text' : List Char) :
    rules.startsLine (c :: text) = rules.startsLine (c :: text') := by
  by_cases hhash : c = '#'
  · subst hhash
    rfl
  · rw [startsLine_none rules hdash hhash, startsLine_none rules hdash hhash]

theorem peeks_dash_render {ps : List Piece} (hsound : sound ps = true)
    (hother : ∀ qs, ps ≠ .char '-' :: qs) : peeks (· == '-') (render ps) = false := by
  cases ps with
  | nil => rfl
  | cons p ps =>
      cases p with
      | char c =>
          have hc : c ≠ '-' := by
            rintro rfl
            exact hother ps rfl
          exact beq_eq_false_iff_ne.mpr hc
      | blank text =>
          obtain ⟨w, hhead, hw⟩ := head_render_blank hsound
          rw [peeks, hhead]
          exact beq_eq_false_iff_ne.mpr (ne_of_test hw (by decide))
      | string body => rfl
      | number text =>
          obtain ⟨d, hhead, hd⟩ := head_render_number hsound
          rw [peeks, hhead]
          exact beq_eq_false_iff_ne.mpr (ne_of_test hd (by decide))

theorem peeks_dash_form {ps : List Piece} (hother : ∀ qs, ps ≠ .char '-' :: qs) :
    peeks (· == '-') (form 0 ps) = false := by
  cases ps with
  | nil => rfl
  | cons p ps =>
      cases p with
      | char c =>
          have hc : c ≠ '-' := by
            rintro rfl
            exact hother ps rfl
          rw [peeks]
          rcases head_form_char c ps with ⟨hhead, _⟩ | ⟨hhead, _⟩ | hhead
          · rw [hhead]
            rfl
          · rw [hhead]
            rfl
          · rw [hhead]
            exact beq_eq_false_iff_ne.mpr hc
      | blank | string | number => rfl

theorem not_blankAhead_of_digit {text : List Char} (h : peeks Char.isDigit text = true) :
    text.head?.all Char.isWhitespace = false := by
  cases text with
  | nil => cases h
  | cons d text =>
      have hd : d.isDigit = true := h
      have hnot := not_isWhitespace_of_isAlphanum (isAlphanum_of_isDigit hd)
      show d.isWhitespace = false
      rw [Bool.eq_false_iff]
      intro hblank
      have hwhite := isWhitespace_of_charIsWhitespace hblank
      exact Bool.false_ne_true (hnot.symm.trans hwhite)

theorem startsLine_form {engine : Engine} {c : Char} {ps : List Piece} (hsound : sound ps = true)
    (hdashes : dashes engine c ps = true) :
    engine.rules.startsLine (c :: form 0 ps) = engine.rules.startsLine (c :: render ps) := by
  by_cases hc : c = '-'
  · subst hc
    rw [startsLine_dash, startsLine_dash]
    by_cases hnext : ∃ qs, ps = .char '-' :: qs
    · obtain ⟨qs, rfl⟩ := hnext
      have hqs : sound qs = true := hsound
      have hrender : render (.char '-' :: qs) = '-' :: render qs := rfl
      have hbare : engine.rules.bareDashes = engine.bareDashes := rfl
      simp only [dashes, bne_self_eq_false, Bool.false_or] at hdashes
      rw [hrender, hbare, List.tail_cons]
      cases hdigit : startsDigit qs with
      | true =>
          -- the second dash goes into a number
          have hpeeks := peeks_isDigit_render hqs
          rw [hdigit] at hpeeks hdashes
          have hform : peeks (· == '-') (form 0 (.char '-' :: qs)) = false := by
            rw [form_step, mark, if_neg (by decide), hdigit, if_pos (by decide)]
            rfl
          have hall := not_blankAhead_of_digit hpeeks
          have hnotBare : engine.bareDashes = false := by
            cases hb : engine.bareDashes with
            | false => rfl
            | true =>
                rw [hb] at hdashes
                cases hdashes
          rw [hform, hall, hnotBare, Bool.false_and, Bool.or_self, Bool.and_false]
      | false =>
          have hform : form 0 (.char '-' :: qs) = '-' :: form 0 qs :=
            form_char (by decide) (by rw [hdigit, Bool.and_false])
          rw [hform, List.tail_cons]
          have hsame : peeks (· == '-') ('-' :: form 0 qs) = peeks (· == '-') ('-' :: render qs) :=
            rfl
          rw [hsame]
          cases hb : engine.bareDashes with
          | true => rw [Bool.true_or, Bool.true_or]
          | false =>
              rw [hb, if_neg Bool.false_ne_true, Bool.or_eq_true, Bool.not_eq_true'] at hdashes
              have hall := head_all_form hqs fun hw => by
                rcases hdashes with hnone | hknown
                · exact absurd (hnone.symm.trans hw) Bool.false_ne_true
                · exact hknown
              rw [hall]
    · have hother : ∀ qs, ps ≠ .char '-' :: qs := fun qs hps => hnext ⟨qs, hps⟩
      rw [peeks_dash_form hother, peeks_dash_render hsound hother, Bool.false_and, Bool.false_and]
  · exact startsLine_other _ hc _ _

/-! ## Modes -/

/-- A character that closes quoted texts. -/
def isClose (c : Char) : Bool := c == '\'' || c == '"' || c == '`' || c == ']'

/-- A mode that a text is read in, before this rest of it. -/
def proper (mode : Mode) (rest : List Char) : Bool :=
  match mode with
  | .quoted close => isClose close
  | .escaped close => isClose close
  | .block _ true => peeks (fun c => c == '*' || c == '/') rest
  | _ => true

/-- The text so far is that of an identifier, perhaps. -/
def keeps (engine : Engine) : Mode → Bool
  | .code => true
  | .quoted close => engine.closesName close
  | .escaped close => engine.closesName close
  | _ => false

/-- Nothing but a close or a sign of comments changes this mode, and the text is dropped. -/
def isLoose (engine : Engine) : Mode → Bool
  | .quoted close => !engine.closesName close
  | .escaped close => !engine.closesName close
  | .block _ inSign => !inSign
  | _ => false

def settle : Mode → Mode
  | .escaped close => .quoted close
  | mode => mode

def isQuiet (c : Char) : Bool := !(isClose c || c == '\\' || c == '*' || c == '/')

variable {engine : Engine} {spells : Char → Bool}

theorem isClose_of_closing {c close : Char} (h : engine.rules.closing c = some close) :
    isClose close = true := by
  simp only [Engine.rules] at h
  split_ifs at h with hquote hback hbracket
  · cases h
    rcases hquote with rfl | rfl <;> decide
  · cases h
    rw [hback.1]
    decide
  · cases h
    decide

theorem proper_next {mode : Mode} {c : Char} {rest : List Char}
    (h : proper mode (c :: rest) = true) :
    proper (engine.next mode c rest) rest = true := by
  have hpeek : ∀ {d : Char}, (d == '*' || d == '/') = true → rest.head? = some d →
      peeks (fun c => c == '*' || c == '/') rest = true := by
    intro d hd hhead
    rw [peeks, hhead]
    exact hd
  cases mode with
  | code =>
      simp only [Engine.next, Rules.next]
      split_ifs with hline hblock
      · rfl
      · exact hpeek (by decide) hblock.2
      · cases hclosing : engine.rules.closing c with
        | none => rfl
        | some close => exact isClose_of_closing hclosing
  | quoted close =>
      simp only [Engine.next, Rules.next]
      split_ifs
      · exact h
      · exact h
      · rfl
      · exact h
  | escaped close => exact h
  | line =>
      simp only [Engine.next, Rules.next]
      split_ifs <;> rfl
  | block depth inSign =>
      cases inSign with
      | true =>
          simp only [Engine.next, Rules.next]
          split_ifs <;> rfl
      | false =>
          simp only [Engine.next, Rules.next]
          split_ifs with hend hstart
          · exact hpeek (by decide) hend.2
          · exact hpeek (by decide) hstart.2.2
          · rfl

theorem next_quiet {mode : Mode} {c : Char} {text rest : List Char}
    (hloose : isLoose engine mode = true) (hproper : proper mode text = true)
    (hc : isQuiet c = true) : engine.next mode c rest = settle mode := by
  simp only [isQuiet, Bool.not_eq_true', Bool.or_eq_false_iff, beq_eq_false_iff_ne] at hc
  obtain ⟨⟨⟨hclose, hslash⟩, hstar⟩, hdiv⟩ := hc
  cases mode with
  | code => cases hloose
  | quoted close =>
      have hne : c ≠ close := Ne.symm (ne_of_test hproper hclose)
      simp only [Engine.next, Rules.next, hslash, hne, false_and, if_false, settle]
  | escaped close => rfl
  | line => cases hloose
  | block depth inSign =>
      cases inSign with
      | true => cases hloose
      | false => simp only [Engine.next, Rules.next, hstar, hdiv, false_and, and_false, if_false, settle]

theorem emits_settle {mode : Mode} (hloose : isLoose engine mode = true) (text : List Char)
    (c : Char) : engine.emits mode (settle mode) text c = ([], []) := by
  cases mode with
  | code => cases hloose
  | quoted close =>
      have hstring : engine.closesName close = false := by simpa [isLoose] using hloose
      simp only [settle, Engine.emits, hstring, Bool.false_eq_true, if_false]
  | escaped close =>
      have hstring : engine.closesName close = false := by simpa [isLoose] using hloose
      simp only [Engine.emits, hstring, Bool.false_eq_true, if_false]
  | line => cases hloose
  | block depth inSign => rfl

theorem isLoose_settle {mode : Mode} (h : isLoose engine mode = true) :
    isLoose engine (settle mode) = true := by
  cases mode with
  | escaped close => exact h
  | code | quoted | line | block => exact h

theorem carry_next {mode : Mode} {text : List Char} {c : Char} {rest : List Char}
    (h : keeps engine (engine.next mode c rest) = false) :
    (engine.emits mode (engine.next mode c rest) text c).2 = [] := by
  cases mode with
  | code =>
      simp only [Engine.next, Rules.next] at h ⊢
      split_ifs at h ⊢ with hline hblock
      · rfl
      · rfl
      · cases hclosing : engine.rules.closing c with
        | none =>
            rw [hclosing] at h
            cases h
        | some close => rfl
  | quoted close =>
      simp only [Engine.next, Rules.next] at h ⊢
      split_ifs at h ⊢
      · have hstring : engine.closesName close = false := h
        simp only [Engine.emits, hstring, Bool.false_eq_true, if_false]
      · have hstring : engine.closesName close = false := h
        simp only [Engine.emits, hstring, Bool.false_eq_true, if_false]
      · rfl
      · have hstring : engine.closesName close = false := h
        simp only [Engine.emits, hstring, Bool.false_eq_true, if_false]
  | escaped close =>
      have hstring : engine.closesName close = false := h
      simp only [Engine.emits, hstring, Bool.false_eq_true, if_false]
  | line => rfl
  | block depth inSign => rfl

/-! ## Readable pieces -/

/-- The pieces are read in this mode, with nothing that the normaliser reads otherwise. -/
structure Readable (engine : Engine) (spells : Char → Bool) (mode : Mode)
    (ps : List Piece) : Prop where
  reads : ∃ word, engine.reads mode word ps = true
  isDelimited : delimited ps = true
  isClean : clean engine spells mode ps = true
  isProper : proper mode (render ps) = true

namespace Readable

variable {mode : Mode} {ps : List Piece}

theorem sound (h : Readable engine spells mode ps) : sound ps = true := by
  obtain ⟨word, hreads⟩ := h.reads
  exact sound_of_reads hreads

theorem next {c : Char} (h : Readable engine spells mode (.char c :: ps)) (hmode : mode ≠ .line) :
    allows engine spells mode c ps = true ∧
      Readable engine spells (engine.next mode c (render ps)) ps := by
  obtain ⟨word, hreads⟩ := h.reads
  have hclean : (allows engine spells mode c ps &&
      clean engine spells (engine.next mode c (render ps)) ps) = true := by
    have hall := h.isClean
    cases mode with
    | line => exact absurd rfl hmode
    | code | quoted | escaped | block => exact hall
  rw [Bool.and_eq_true] at hclean
  have hdelimited := h.isDelimited
  simp only [delimited, Bool.and_eq_true] at hdelimited
  refine ⟨hclean.1, ?_, hdelimited.2, hclean.2, proper_next h.isProper⟩
  cases mode with
  | code =>
      simp only [Engine.reads, Bool.and_eq_true] at hreads
      exact ⟨_, hreads.2⟩
  | quoted | escaped | line | block => exact ⟨[], hreads⟩

/-- Literals and blanks are read in code. -/
theorem code {p : Piece} (h : Readable engine spells mode (p :: ps))
    (hp : p.isChar (fun _ => true) = false) :
    mode = .code ∧ Readable engine spells .code ps := by
  obtain ⟨word, hreads⟩ := h.reads
  have hmode : mode = .code := by
    cases p with
    | char c => cases hp
    | blank | string | number =>
        cases mode with
        | code => rfl
        | quoted | escaped | line | block => cases hreads
  subst hmode
  have hdelimited := h.isDelimited
  have hclean := h.isClean
  cases p with
  | char c => cases hp
  | blank text =>
      simp only [Engine.reads, Bool.and_eq_true] at hreads
      exact ⟨rfl, ⟨[], hreads.2⟩, hdelimited, hclean, rfl⟩
  | string body =>
      simp only [Engine.reads, Bool.and_eq_true] at hreads
      simp only [delimited, Bool.and_eq_true] at hdelimited
      exact ⟨rfl, ⟨[], hreads.2⟩, hdelimited.2, hclean, rfl⟩
  | number text =>
      simp only [Engine.reads, Bool.and_eq_true] at hreads
      simp only [delimited, Bool.and_eq_true] at hdelimited
      exact ⟨rfl, ⟨[], hreads.2⟩, hdelimited.2, hclean, rfl⟩

end Readable

theorem mem_standing {close : Char} (h : isClose close = true) (hquote : close ≠ '\'') :
    close ∈ standing := by
  simp only [isClose, Bool.or_eq_true, beq_iff_eq] at h
  rcases h with ((rfl | rfl) | rfl) | rfl
  · exact absurd rfl hquote
  all_goals decide

/-- The engine goes on in the normal form as it goes on in the text. -/
theorem next_form {mode : Mode} {c : Char} {ps : List Piece}
    (h : Readable engine spells mode (.char c :: ps)) :
    engine.next mode c (form 0 ps) = engine.next mode c (render ps) := by
  have hsound : Pieces.sound ps = true := h.sound
  have hstar := head_form (d := '*') (by decide) hsound
  have hslash := head_form (d := '/') (by decide) hsound
  cases mode with
  | code =>
      have hallows := (h.next (by rintro ⟨⟩)).1
      rw [allows, Bool.and_eq_true] at hallows
      have hline := startsLine_form hsound hallows.2
      simp only [Engine.next, Rules.next, hline, hstar]
  | quoted close =>
      by_cases hc : c = close
      · have hdelimited := h.isDelimited
        simp only [delimited, Bool.and_eq_true, bne_iff_ne] at hdelimited
        subst hc
        have hclose := head_form (mem_standing h.isProper hdelimited.1.1.1.1) hsound
        simp only [Engine.next, hclose]
        rfl
      · simp only [Engine.next, hc, false_and, if_false]
        rfl
  | escaped close => rfl
  | line => rfl
  | block depth inSign =>
      cases inSign with
      | true => rfl
      | false => simp only [Engine.next, Rules.next, hstar, hslash]

theorem wordsFrom_char (mode : Mode) (text : List Char) (c : Char) (ps : List Piece) :
    wordsFrom engine mode text (.char c :: ps) =
      (engine.emits mode (engine.next mode c (render ps)) text c).1.filter isIdentifier ++
        wordsFrom engine (engine.next mode c (render ps))
          (engine.emits mode (engine.next mode c (render ps)) text c).2 ps := by
  rw [wordsFrom, Engine.tokensFrom, List.filter_append]
  rfl

theorem wordsFrom_quiet {mode : Mode} {rest : List Char} (hloose : isLoose engine mode = true)
    (hproper : proper mode rest = true) {c : Char} (hc : isQuiet c = true) (text : List Char)
    (ps : List Piece) :
    wordsFrom engine mode text (.char c :: ps) = wordsFrom engine (settle mode) [] ps := by
  rw [wordsFrom_char, next_quiet hloose hproper hc, emits_settle hloose]
  rfl

namespace Readable

variable {mode : Mode} {ps : List Piece}

theorem quiet {c : Char} (h : Readable engine spells mode (.char c :: ps))
    (hloose : isLoose engine mode = true) (hc : isQuiet c = true) :
    Readable engine spells (settle mode) ps := by
  have hline : mode ≠ .line := by
    rintro rfl
    cases hloose
  have hnext := (h.next hline).2
  rw [next_quiet hloose h.isProper hc] at hnext
  exact hnext

theorem run {c : Char} {front : List Char}
    (h : Readable engine spells mode (.char c :: (front.map .char ++ ps)))
    (hloose : isLoose engine mode = true) (hc : isQuiet c = true)
    (hfront : ∀ d ∈ front, isQuiet d = true) :
    Readable engine spells (settle mode) ps ∧
      ∀ text, wordsFrom engine mode text (.char c :: (front.map .char ++ ps)) =
        wordsFrom engine (settle mode) [] ps := by
  induction front generalizing mode c with
  | nil => exact ⟨h.quiet hloose hc, fun text => wordsFrom_quiet hloose h.isProper hc text ps⟩
  | cons d front ih =>
      have hsettle : settle (settle mode) = settle mode := by cases mode <;> rfl
      have hrest := ih (h.quiet hloose hc) (isLoose_settle hloose) (hfront d List.mem_cons_self)
        fun e he => hfront e (List.mem_cons_of_mem d he)
      rw [hsettle] at hrest
      refine ⟨hrest.1, fun text => ?_⟩
      rw [wordsFrom_quiet hloose h.isProper hc]
      exact hrest.2 []

end Readable

/-- The characters that are not quiet. -/
def loud : List Char := ['\'', '"', '`', ']', '\\', '*', '/']

theorem isQuiet_of_test {p : Char → Bool} (hloud : loud.any p = false) {c : Char}
    (h : p c = true) : isQuiet c = true := by
  have hne : ∀ d ∈ loud, c ≠ d := by
    intro d hd
    apply ne_of_test h
    rw [Bool.eq_false_iff]
    exact List.any_eq_false.mp hloud d hd
  simp only [loud, List.forall_mem_cons] at hne
  obtain ⟨hquote, hdouble, hback, hbracket, hslash, hstar, hdiv, _⟩ := hne
  simp only [isQuiet, isClose, beq_eq_false_iff_ne.mpr hquote, beq_eq_false_iff_ne.mpr hdouble,
    beq_eq_false_iff_ne.mpr hback, beq_eq_false_iff_ne.mpr hbracket,
    beq_eq_false_iff_ne.mpr hslash, beq_eq_false_iff_ne.mpr hstar, beq_eq_false_iff_ne.mpr hdiv,
    Bool.or_self, Bool.not_false]

theorem isQuiet_of_inNumber {c : Char} (h : inNumber c = true) : isQuiet c = true :=
  isQuiet_of_test (by decide +kernel) h

theorem isQuiet_of_isWhitespace {c : Char} (h : isWhitespace c = true) : isQuiet c = true :=
  isQuiet_of_test (by decide +kernel) h

theorem exists_numberStride (hexPrefix : Bool) (ps : List Piece) :
    ∃ front : List Char, ps = front.map .char ++ ps.drop (numberStride hexPrefix ps) ∧
      ∀ c ∈ front, isQuiet c = true := by
  obtain ⟨front, hfront, hall⟩ := exists_consumeNumberTail hexPrefix (charsOf ps)
  have hlen := congrArg List.length hfront
  rw [List.length_append] at hlen
  have hstride : numberStride hexPrefix ps = front.length := by
    rw [numberStride]
    omega
  have hchars : ∃ qs, ps = front.map .char ++ qs := by
    have hsplit := eq_charsOf_append ps
    rw [hfront, List.map_append, List.append_assoc] at hsplit
    exact ⟨_, hsplit⟩
  obtain ⟨qs, hqs⟩ := hchars
  refine ⟨front, ?_, fun c hc => isQuiet_of_inNumber (hall c hc)⟩
  have hdrop : ps.drop (numberStride hexPrefix ps) = qs := by
    rw [hstride, hqs]
    exact List.drop_left' (List.length_map _)
  rw [hdrop]
  exact hqs

theorem Readable.exists_blanks {mode : Mode} {ps : List Piece} (h : Readable engine spells mode ps)
    (hloose : isLoose engine mode = true) :
    ∃ front : List Char, ps = front.map .char ++ ps.drop (blanks ps) ∧
      ∀ c ∈ front, isQuiet c = true := by
  have hnone : ∀ {qs : List Piece}, ∃ front : List Char, qs = front.map .char ++ qs.drop 0 ∧
      ∀ c ∈ front, isQuiet c = true :=
    fun {qs} => ⟨[], rfl, fun c hc => absurd hc List.not_mem_nil⟩
  induction ps generalizing mode with
  | nil => exact hnone
  | cons p ps ih =>
      cases p with
      | char c =>
          rw [blanks]
          split_ifs with hc
          · have hquiet := isQuiet_of_isWhitespace hc
            obtain ⟨front, hfront, hall⟩ := ih (h.quiet hloose hquiet) (isLoose_settle hloose)
            refine ⟨c :: front, congrArg (List.cons (Piece.char c)) hfront, ?_⟩
            intro d hd
            rcases List.mem_cons.mp hd with rfl | hd
            · exact hquiet
            · exact hall d hd
          · exact hnone
      | blank text =>
          obtain ⟨rfl, _⟩ := h.code rfl
          cases hloose
      | string body => exact hnone
      | number text => exact hnone

/-! ## The words of a normal form -/

/-- The normal form of these pieces has their words, in this mode. -/
def Keeps (engine : Engine) (mode : Mode) (ps : List Piece) : Prop :=
  ∀ text, (keeps engine mode = false → text = []) →
    wordsFrom engine mode text ((form 0 ps).map .char) = wordsFrom engine mode text ps

section Steps

variable {mode : Mode} {c : Char} {ps : List Piece}

theorem keeps_push (h : Readable engine spells mode (.char c :: ps))
    (hform : form 0 (.char c :: ps) = c :: form 0 ps)
    (ih : Keeps engine (engine.next mode c (render ps)) ps) :
    Keeps engine mode (.char c :: ps) := by
  intro text _
  rw [hform, List.map_cons, wordsFrom_char, render_chars, next_form h, wordsFrom_char,
    ih _ carry_next]

theorem keeps_run {front : List Char} {qs : List Piece} {x : Char}
    (h : Readable engine spells mode (.char c :: ps)) (hloose : isLoose engine mode = true)
    (hps : ps = front.map .char ++ qs) (hc : isQuiet c = true) (hx : isQuiet x = true)
    (hfront : ∀ d ∈ front, isQuiet d = true) (hform : form 0 (.char c :: ps) = x :: form 0 qs)
    (ih : Readable engine spells (settle mode) qs → Keeps engine (settle mode) qs) :
    Keeps engine mode (.char c :: ps) := by
  intro text _
  rw [hform, List.map_cons, wordsFrom_quiet hloose h.isProper hx]
  subst hps
  obtain ⟨hrest, hwords⟩ := h.run hloose hc hfront
  rw [hwords]
  exact ih hrest [] fun _ => rfl

theorem exists_digit (h : Readable engine spells mode ps) (hmode : mode ≠ .code)
    (hstarts : startsDigit ps = true) : ∃ d qs, d.isDigit = true ∧ ps = .char d :: qs := by
  cases ps with
  | nil => cases hstarts
  | cons p qs =>
      cases p with
      | char d => exact ⟨d, qs, hstarts, rfl⟩
      | blank text => cases hstarts
      | string body => cases hstarts
      | number text => exact absurd (h.code rfl).1 hmode

theorem keeps_loose (h : Readable engine spells mode (.char c :: ps))
    (hloose : isLoose engine mode = true)
    (ih : ∀ {mode' : Mode} {qs : List Piece}, qs.length < (Piece.char c :: ps).length →
      Readable engine spells mode' qs → Keeps engine mode' qs) :
    Keeps engine mode (.char c :: ps) := by
  have hmark : isQuiet '?' = true := by decide
  have hspace : isQuiet ' ' = true := by decide
  have hlt : ∀ n, (ps.drop n).length < (Piece.char c :: ps).length := by
    intro n
    rw [List.length_drop, List.length_cons]
    omega
  by_cases hdigit : c.isDigit = true
  · have hc := isQuiet_of_inNumber (inNumber_of_isDigit c hdigit)
    obtain ⟨front, hps, hfront⟩ := exists_numberStride (c == '0') ps
    refine keeps_run h hloose hps hc hmark hfront ?_ (ih (hlt _))
    rw [form_step, mark, stride, if_pos hdigit, if_pos hdigit, List.drop_succ_cons]
    rfl
  · by_cases hsign : (isSign c && startsDigit ps) = true
    · obtain ⟨hsign', hstarts⟩ := Bool.and_eq_true_iff.mp hsign
      have hc := isQuiet_of_inNumber (inNumber_of_isSign hsign')
      have hrest := h.quiet hloose hc
      have hnotCode : settle mode ≠ .code := by
        intro hcode
        have hloose' := isLoose_settle hloose
        rw [hcode] at hloose'
        cases hloose'
      obtain ⟨d, qs, hd, rfl⟩ := exists_digit hrest hnotCode hstarts
      obtain ⟨front, hqs, hfront⟩ := exists_numberStride false qs
      have hps : Piece.char d :: qs = (d :: front).map .char ++ qs.drop (numberStride false qs) :=
        congrArg (List.cons (Piece.char d)) hqs
      refine keeps_run h hloose hps hc hmark ?_ ?_ (ih (hlt (_ + 1)))
      · intro e he
        rcases List.mem_cons.mp he with rfl | he
        · exact isQuiet_of_inNumber (inNumber_of_isDigit e hd)
        · exact hfront e he
      · rw [form_step, mark, stride, if_neg hdigit, if_neg hdigit, if_pos hsign, if_pos hsign]
        rfl
    · by_cases hwhite : isWhitespace c = true
      · have hc := isQuiet_of_isWhitespace hwhite
        obtain ⟨front, hps, hfront⟩ := (h.quiet hloose hc).exists_blanks (isLoose_settle hloose)
        refine keeps_run h hloose hps hc hspace hfront ?_ (ih (hlt _))
        rw [form_step, mark, stride, if_neg hdigit, if_neg hdigit, if_neg hsign, if_neg hsign,
          if_pos hwhite, if_pos hwhite, List.drop_succ_cons]
        rfl
      · have hline : mode ≠ .line := by
          rintro rfl
          cases hloose
        have hsteady : isSteady c = true := by
          rw [isSteady, Bool.eq_false_iff.mpr hdigit, Bool.eq_false_iff.mpr hwhite]
          rfl
        apply keeps_push h (form_char hsteady (Bool.eq_false_iff.mpr hsign))
        exact ih (Nat.lt_succ_self _) (h.next hline).2

theorem not_isClose_of_isSign (h : isSign c = true) : isClose c = false ∧ c ≠ '\\' := by
  rcases eq_of_isSign h with rfl | rfl <;> decide

theorem form_space {ps : List Piece} (hsound : sound ps = true)
    (halone : peeks isWhitespace (render ps) = false) :
    form 0 (.char ' ' :: ps) = ' ' :: form 0 ps := by
  have hzero : blanks ps = 0 := by
    by_contra hne
    exact Bool.false_ne_true (halone.symm.trans ((peeks_isWhitespace_render hsound).mpr hne))
  have hstride : stride (.char ' ' :: ps) = blanks ps + 1 := rfl
  rw [form_step, hstride, hzero]
  rfl

theorem keeps_name {close : Char} (hspells : ∀ c, spells c = true → c.isDigit = false)
    (h : Readable engine spells mode (.char c :: ps))
    (hname : engine.closesName close = true)
    (hmode : mode = .quoted close ∨ mode = .escaped close)
    (ih : ∀ {mode' : Mode}, Readable engine spells mode' ps → Keeps engine mode' ps) :
    Keeps engine mode (.char c :: ps) := by
  have hnamed : ∀ {mode' : Mode} {d : Char} {qs : List Piece},
      mode' = .quoted close ∨ mode' = .escaped close →
        Readable engine spells mode' (.char d :: qs) → isNamed spells d qs = true := by
    rintro _ d qs (rfl | rfl) hread
    all_goals
      have hallows := (hread.next (by rintro ⟨⟩)).1
      simpa only [allows, hname, Bool.not_true, Bool.false_or] using hallows
  have hline : mode ≠ .line := by
    rintro rfl
    rcases hmode with h | h <;> cases h
  obtain ⟨_, hrest⟩ := h.next hline
  have hthis := hnamed hmode h
  rw [isNamed, Bool.and_eq_true] at hthis
  obtain ⟨hspelled, hblank⟩ := hthis
  rw [Bool.or_eq_true, Bool.not_eq_true'] at hblank
  rcases hblank with hwhite | hspace
  · have hsteady : isSteady c = true := by
      rw [isSteady, not_isDigit_of_spells hspells hspelled, hwhite]
      rfl
    have hsign : (isSign c && startsDigit ps) = false := by
      rw [Bool.eq_false_iff]
      intro hstarts
      rw [Bool.and_eq_true] at hstarts
      -- a sign does not end the name, and no digit follows it there
      obtain ⟨hnot, hslash⟩ := not_isClose_of_isSign hstarts.1
      have hproper : isClose close = true := by
        have hmodes := h.isProper
        rcases hmode with rfl | rfl <;> exact hmodes
      have hne : c ≠ close := Ne.symm (ne_of_test hproper hnot)
      have hstays : engine.next mode c (render ps) = .quoted close := by
        rcases hmode with rfl | rfl
        · simp only [Engine.next, Rules.next, hslash, hne, false_and, if_false]
        · rfl
      rw [hstays] at hrest
      obtain ⟨d, qs, hd, rfl⟩ := exists_digit hrest (by rintro ⟨⟩) hstarts.2
      have hnext := hnamed (.inl rfl) hrest
      rw [isNamed, Bool.and_eq_true] at hnext
      exact Bool.false_ne_true ((not_isDigit_of_spells hspells hnext.1).symm.trans hd)
    exact keeps_push h (form_char hsteady hsign) (ih hrest)
  · rw [Bool.and_eq_true, beq_iff_eq, Bool.not_eq_true'] at hspace
    obtain ⟨rfl, halone⟩ := hspace
    exact keeps_push h (form_space hrest.sound halone) (ih hrest)

theorem wordsFrom_symbol {text : List Char} (hword : isWordChar c = false)
    (hnext : engine.next .code c (render ps) = .code) :
    wordsFrom engine .code text (.char c :: ps) =
      (wordToken text).filter isIdentifier ++ wordsFrom engine .code [] ps := by
  rw [wordsFrom_char, hnext, Engine.emits, Engine.extends, hword, Bool.false_and,
    if_neg Bool.false_ne_true, List.filter_append]
  rw [List.append_assoc]
  rfl

theorem next_mark (rest : List Char) (hc : c = '?' ∨ c = ' ') :
    engine.next .code c rest = .code := by
  rcases hc with rfl | rfl <;> rfl

theorem next_sign {rest : List Char} (hc : isSign c = true)
    (hrest : peeks Char.isDigit rest = true) : engine.next .code c rest = .code := by
  rcases eq_of_isSign hc with rfl | rfl
  · rfl
  · have hline : engine.rules.startsLine ('-' :: rest) = false := by
      rw [startsLine_dash]
      cases rest with
      | nil => rfl
      | cons d rest =>
          have hd : (d == '-') = false := by
            rw [beq_eq_false_iff_ne]
            rintro rfl
            exact absurd (show '-'.isDigit = true from hrest) (by decide)
          have hpeek : peeks (· == '-') (d :: rest) = false := hd
          rw [hpeek, Bool.false_and]
    simp only [Engine.next, Rules.next, hline]
    rfl

theorem wordsFrom_literal {p : Piece} (hp : p.isChar (fun _ => true) = false) (text : List Char) :
    wordsFrom engine .code text (p :: ps) =
      (wordToken text).filter isIdentifier ++ wordsFrom engine .code [] ps := by
  cases p with
  | char c => cases hp
  | blank | string | number =>
      rw [wordsFrom, Engine.tokensFrom, List.filter_append]
      rfl

theorem blanks_eq_zero {text : List Char} (h : Readable engine spells .code (.blank text :: ps)) :
    blanks ps = 0 := by
  obtain ⟨_, hreads⟩ := h.reads
  simp only [Engine.reads, Bool.and_eq_true, Bool.not_eq_true'] at hreads
  obtain ⟨_, hrest⟩ := h.code rfl
  match ps with
  | [] => rfl
  | .string _ :: _ | .number _ :: _ => rfl
  | .blank _ :: _ =>
      have hnone : true = false := hreads.1.2
      cases hnone
  | .char c :: ps =>
      have hallows := (hrest.next (by rintro ⟨⟩)).1
      simp only [allows, isSpelled, Bool.and_eq_true, Bool.not_eq_true'] at hallows
      rw [blanks, hallows.1.2, if_neg Bool.false_ne_true]

theorem keeps_literal {p : Piece} (hp : p.isChar (fun _ => true) = false)
    (h : Readable engine spells .code (p :: ps))
    (ih : Readable engine spells .code ps → Keeps engine .code ps) :
    Keeps engine .code (p :: ps) := by
  have hform : ∃ x, (x = '?' ∨ x = ' ') ∧ form 0 (p :: ps) = x :: form 0 ps := by
    cases p with
    | char c => cases hp
    | blank text =>
        refine ⟨' ', .inr rfl, ?_⟩
        rw [form_step, mark, stride, blanks_eq_zero h]
        rfl
    | string | number => exact ⟨'?', .inl rfl, rfl⟩
  obtain ⟨x, hx, hform⟩ := hform
  have hword : isWordChar x = false := by
    rcases hx with rfl | rfl <;> decide
  intro text _
  obtain ⟨_, hrest⟩ := h.code hp
  rw [hform, List.map_cons, wordsFrom_symbol hword (next_mark _ hx), wordsFrom_literal hp,
    ih hrest [] fun _ => rfl]

theorem keeps_code (hspells : ∀ c, spells c = true → c.isDigit = false)
    (h : Readable engine spells .code (.char c :: ps))
    (ih : ∀ {mode' : Mode} {qs : List Piece}, qs.length < (Piece.char c :: ps).length →
      Readable engine spells mode' qs → Keeps engine mode' qs) :
    Keeps engine .code (.char c :: ps) := by
  have hline : Mode.code ≠ .line := by rintro ⟨⟩
  obtain ⟨hallows, hrest⟩ := h.next hline
  have hsteady : isSteady c = true :=
    isSteady_of_isSpelled hspells (Bool.and_eq_true_iff.mp hallows).1
  cases hsign : isSign c && startsDigit ps with
  | false =>
      apply keeps_push h (form_char hsteady hsign)
      exact ih (Nat.lt_succ_self _) hrest
  | true =>
      obtain ⟨hsign', hstarts⟩ := Bool.and_eq_true_iff.mp hsign
      have hpeeks := peeks_isDigit_render hrest.sound
      rw [hstarts] at hpeeks
      have hcode : engine.next .code c (render ps) = .code := next_sign hsign' hpeeks
      rw [hcode] at hrest
      match ps, hstarts with
      | .char d :: qs, hd =>
          have hd' : d.isDigit = true := hd
          have hallowed := (hrest.next hline).1
          have hsteady' := isSteady_of_isSpelled hspells (Bool.and_eq_true_iff.mp hallowed).1
          rw [isSteady, hd'] at hsteady'
          cases hsteady'
      | .number n :: qs, _ =>
          intro text _
          obtain ⟨_, hqs⟩ := hrest.code rfl
          have hform : form 0 (.char c :: .number n :: qs) = '?' :: form 0 qs := by
            rw [isSteady, Bool.and_eq_true, Bool.not_eq_true'] at hsteady
            have hdigit : ¬ c.isDigit = true := Bool.eq_false_iff.mp hsteady.1
            rw [form_step, mark, stride, if_neg hdigit, if_neg hdigit, if_pos hsign, if_pos hsign]
            rfl
          have hword : isWordChar c = false := by
            rcases eq_of_isSign hsign' with rfl | rfl <;> decide
          have hlt : qs.length < (Piece.char c :: .number n :: qs).length := by
            rw [List.length_cons, List.length_cons]
            omega
          rw [hform, List.map_cons, wordsFrom_symbol (by decide) (next_mark _ (.inl rfl)),
            wordsFrom_symbol hword hcode, wordsFrom_literal rfl, ih hlt hqs [] fun _ => rfl]
          rfl

end Steps

theorem newline_not_mem_form (n : Nat) (ps : List Piece) : '\n' ∉ form n ps := by
  induction ps generalizing n with
  | nil =>
      rw [form]
      exact List.not_mem_nil
  | cons p ps ih =>
      cases n with
      | succ n => exact ih n
      | zero =>
          rw [form, List.mem_append, not_or]
          refine ⟨?_, ih _⟩
          rcases mark_or_blank p ps with ⟨_, c, hc, hmark⟩ | ⟨_, hmark⟩
          · rw [hmark, List.mem_singleton]
            rintro rfl
            exact absurd hc (by decide)
          · rw [hmark]
            decide

theorem wordsFrom_line {text : List Char} (h : '\n' ∉ text) (word : List Char) :
    wordsFrom engine .line word (text.map .char) = [] := by
  induction text generalizing word with
  | nil => rfl
  | cons c text ih =>
      rw [List.mem_cons, not_or] at h
      have hnext : engine.next .line c (render (text.map .char)) = .line := by
        simp only [Engine.next, Rules.next, Ne.symm h.1, if_false]
      rw [List.map_cons, wordsFrom_char, hnext]
      exact ih h.2 _

/-- A character, by the mode that it is read in. -/
theorem keeps_char (hspells : ∀ c, spells c = true → c.isDigit = false) {mode : Mode} {c : Char}
    {ps : List Piece} (h : Readable engine spells mode (.char c :: ps))
    (ih : ∀ {mode' : Mode} {qs : List Piece}, qs.length < (Piece.char c :: ps).length →
      Readable engine spells mode' qs → Keeps engine mode' qs) :
    Keeps engine mode (.char c :: ps) := by
  have hshort : ps.length < (Piece.char c :: ps).length := Nat.lt_succ_self _
  cases mode with
  | code => exact keeps_code hspells h ih
  | line =>
      intro text htext
      rw [htext rfl, wordsFrom_line (newline_not_mem_form 0 _)]
      have hclean : (wordsFrom engine .line [] (.char c :: ps)).isEmpty = true := h.isClean
      exact (List.isEmpty_iff.mp hclean).symm
  | quoted close =>
      cases hname : engine.closesName close with
      | true => exact keeps_name hspells h hname (.inl rfl) (ih hshort)
      | false => exact keeps_loose h (by rw [isLoose, hname]; rfl) ih
  | escaped close =>
      cases hname : engine.closesName close with
      | true => exact keeps_name hspells h hname (.inr rfl) (ih hshort)
      | false => exact keeps_loose h (by rw [isLoose, hname]; rfl) ih
  | block depth inSign =>
      cases inSign with
      | false => exact keeps_loose h rfl ih
      | true =>
          -- the second character of a sign
          have hsign : (c == '*' || c == '/') = true := h.isProper
          have hline : Mode.block depth true ≠ .line := by rintro ⟨⟩
          rw [Bool.or_eq_true, beq_iff_eq, beq_iff_eq] at hsign
          have hform : form 0 (.char c :: ps) = c :: form 0 ps := by
            rcases hsign with rfl | rfl
            · exact form_char (by decide) rfl
            · exact form_char (by decide) rfl
          exact keeps_push h hform (ih hshort (h.next hline).2)

theorem keeps_form (hspells : ∀ c, spells c = true → c.isDigit = false) {mode : Mode}
    {ps : List Piece} (h : Readable engine spells mode ps) :
    Keeps engine mode ps := by
  induction hn : ps.length using Nat.strong_induction_on generalizing mode ps with
  | _ n ih =>
      cases ps with
      | nil => exact fun text _ => rfl
      | cons p ps =>
          have ih' : ∀ {mode' : Mode} {qs : List Piece}, qs.length < (p :: ps).length →
              Readable engine spells mode' qs → Keeps engine mode' qs := by
            intro mode' qs hlt hqs
            exact ih qs.length (hn ▸ hlt) hqs rfl
          cases p with
          | char c => exact keeps_char hspells h ih'
          | blank | string | number =>
              obtain ⟨rfl, _⟩ := h.code rfl
              exact keeps_literal rfl h (ih' (Nat.lt_succ_self _))

/-! ## The words of a statement -/

theorem Spelled.readable {ps : List Piece} (h : Spelled engine spells ps) :
    Readable engine spells .code ps :=
  ⟨⟨[], h.reads⟩, h.isDelimited, h.isClean, rfl⟩

theorem Readable.drop_blanks {ps : List Piece} (h : Readable engine spells .code ps) :
    Readable engine spells .code (ps.drop (blanks ps)) ∧
      wordsFrom engine .code [] (ps.drop (blanks ps)) = wordsFrom engine .code [] ps := by
  match ps with
  | [] => exact ⟨h, rfl⟩
  | .string _ :: _ | .number _ :: _ => exact ⟨h, rfl⟩
  | .char c :: ps =>
      have hallows := (h.next (by rintro ⟨⟩)).1
      simp only [allows, isSpelled, Bool.and_eq_true, Bool.not_eq_true'] at hallows
      rw [blanks, hallows.1.2, if_neg Bool.false_ne_true]
      exact ⟨h, rfl⟩
  | .blank text :: ps =>
      rw [blanks, blanks_eq_zero h, wordsFrom_literal rfl]
      exact ⟨(h.code rfl).2, rfl⟩

/-- The words of a statement can be read off its normal form. -/
theorem wordsFrom_normalizeSql (hspells : ∀ c, spells c = true → c.isDigit = false)
    {ps : List Piece} (h : Spelled engine spells ps) :
    wordsFrom engine .code [] ((normalizeSql (render ps)).map .char) =
      wordsFrom engine .code [] ps := by
  obtain ⟨hrest, hwords⟩ := h.readable.drop_blanks
  rw [normalizeSql_render h.readable.sound h.isDelimited, keeps_form hspells hrest [] fun _ => rfl,
    hwords]

end Dbmaster.QueryStats.Words
