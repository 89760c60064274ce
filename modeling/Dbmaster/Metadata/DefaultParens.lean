import Dbmaster.Lib.Balanced
import Dbmaster.Lib.Json
/-!
# Default expressions of SQL Server

The engine stores a default in pairs of parentheses of its own.  They are taken off by a loop
that counts parentheses and does not read string literals or quoted identifiers.
-/

namespace Dbmaster.Metadata.DefaultParens

open Dbmaster.Lib Dbmaster.Lib.Text Dbmaster.Lib.Balanced

/-! ## The loop -/

/-- Whether the parenthesis that brings the depth back to zero is the last character. -/
def wrapsFrom : Int → List Char → Bool
  | _, [] => false
  | depth, c :: rest =>
      if c = '(' then wrapsFrom (depth + 1) rest
      else if c = ')' then
        if depth - 1 = 0 then rest.isEmpty else wrapsFrom (depth - 1) rest
      else wrapsFrom depth rest

def wraps (s : List Char) : Bool := wrapsFrom 0 s

def stripLayers (s : List Char) : List Char :=
  if s.head? = some '(' ∧ s.getLast? = some ')' ∧ wraps s = true then
    stripLayers (trim s.tail.dropLast)
  else s
termination_by s.length
decreasing_by
  rename_i h
  have hle := length_trim_le s.tail.dropLast
  have hpos : 0 < s.length := by
    cases s with
    | nil => cases h.1
    | cons c rest => exact Nat.succ_pos _
  rw [List.length_dropLast, List.length_tail] at hle
  omega

def stripDefaultParensOpt (v : Json) : Option String :=
  match v.asStr with
  | none => none
  | some text =>
      let s := trim text.toList
      if s.isEmpty then none
      else
        let s := stripLayers s
        if s.isEmpty then none else some (String.ofList s)

/-! ## What an expression means -/

/-- String literals, quoted identifiers and identifiers in brackets. -/
def tsql : Quotes where
  closing c := if c = '\'' ∨ c = '"' then some c else if c = '[' then some ']' else none
  code_open := rfl
  code_close := rfl
  code_blank := by
    intro c hc
    have hne : ¬ (c = '\'' ∨ c = '"') ∧ c ≠ '[' := by
      refine ⟨?_, ?_⟩
      · rintro (rfl | rfl) <;> cases hc
      · rintro rfl
        cases hc
    rw [if_neg hne.1, if_neg hne.2]
  ne_close := by
    intro o
    split
    · rename_i h
      rintro ⟨⟩
      revert h
      decide
    · split <;> decide
  ne_blank := by
    intro o c hc
    split
    · rename_i h
      rintro ⟨⟩
      rcases h with rfl | rfl <;> cases hc
    · split
      · rintro ⟨⟩
        cases hc
      · rintro ⟨⟩

/-- `text` in so many pairs of parentheses. -/
def wrap (n : Nat) (text : List Char) : List Char :=
  List.replicate n '(' ++ text ++ List.replicate n ')'

/-- All pairs around the expression are off, and nothing else. -/
structure Unwrapped (expression text : List Char) : Prop where
  wellFormed : tsql.WellFormed text
  wrapped : ∃ n, trim expression = wrap n text
  exposed : ¬ tsql.Enclosed text

/-- A text that is left when pairs around the whole of it are taken off. -/
inductive Layer : List Char → List Char → Prop
  | whole (text : List Char) : Layer text text
  | inner {inner text : List Char} (hinner : tsql.WellFormed inner)
      (h : Layer (trim inner) text) : Layer ('(' :: (inner ++ [')'])) text

/-! ## What the loop counts -/

theorem wrapsFrom_close (depth : Nat) : wrapsFrom (depth + 1) [')'] = decide (depth = 0) := by
  cases depth with
  | zero => rfl
  | succ depth =>
      rw [wrapsFrom, if_neg (by decide), if_pos rfl, if_neg (by omega), wrapsFrom]
      rfl

theorem wrapsFrom_iff (inner : List Char) (depth : Nat) :
    wrapsFrom (depth + 1) (inner ++ [')']) = true ↔
      ∃ mode : Mode, mode.outside = true ∧ bare.scan (.code, depth) inner = some (mode, 0) := by
  induction inner generalizing depth with
  | nil =>
      rw [List.nil_append, wrapsFrom_close, decide_eq_true_iff]
      constructor
      · rintro rfl
        exact ⟨.code, rfl, rfl⟩
      · rintro ⟨mode, _, hscan⟩
        cases hscan
        rfl
  | cons c inner ih =>
      rw [@Quotes.scan_cons_of_none bare c rfl, List.cons_append, wrapsFrom]
      unfold count
      by_cases hopen : c = '('
      · rw [if_pos hopen, if_pos hopen]
        exact ih (depth + 1)
      · rw [if_neg hopen, if_neg hopen]
        by_cases hclose : c = ')'
        · rw [if_pos hclose, if_pos hclose]
          cases depth with
          | zero =>
              rw [if_pos (by omega)]
              simp
          | succ depth =>
              rw [if_neg (by omega), show ((depth + 1 : Nat) : Int) + 1 - 1 = depth + 1 by omega]
              exact ih depth
        · rw [if_neg hclose, if_neg hclose]
          exact ih depth

theorem wraps_iff (inner : List Char) :
    wraps ('(' :: (inner ++ [')'])) = true ↔ bare.WellFormed inner :=
  wrapsFrom_iff inner 0

theorem stripLayers_pair {inner : List Char} (h : bare.WellFormed inner) :
    stripLayers ('(' :: (inner ++ [')'])) = stripLayers (trim inner) := by
  have hlast : ('(' :: (inner ++ [')'])).getLast? = some ')' := by
    rw [← List.cons_append, List.getLast?_concat]
  rw [stripLayers, if_pos ⟨rfl, hlast, (wraps_iff inner).mpr h⟩, List.tail_cons,
    List.dropLast_concat]

theorem stripLayers_eq_self {s : List Char} (h : ¬ bare.Enclosed s) : stripLayers s = s := by
  rw [stripLayers, if_neg]
  rintro ⟨hhead, hlast, hwraps⟩
  obtain ⟨before, rfl⟩ := List.getLast?_eq_some_iff.mp hlast
  cases before with
  | nil => cases hhead
  | cons c inner =>
      cases hhead
      exact h ⟨inner, rfl, (wraps_iff inner).mp hwraps⟩

theorem layers_induction {P : List Char → Prop}
    (hpair : ∀ inner, bare.WellFormed inner → P (trim inner) → P ('(' :: (inner ++ [')'])))
    (hstop : ∀ s, ¬ bare.Enclosed s → P s) (s : List Char) : P s := by
  by_cases h : bare.Enclosed s
  · obtain ⟨inner, rfl, hinner⟩ := h
    have hshorter : (trim inner).length < ('(' :: (inner ++ [')'])).length := by
      have hle := length_trim_le inner
      rw [List.length_cons, List.length_append]
      omega
    exact hpair inner hinner (layers_induction hpair hstop (trim inner))
  · exact hstop s h
termination_by s.length

/-! ## What is taken off -/

theorem wellFormed_of_stripLayers {s : List Char} (h : tsql.WellFormed (stripLayers s)) :
    tsql.WellFormed s := by
  induction s using layers_induction with
  | hpair inner hinner ih =>
      rw [stripLayers_pair hinner] at h
      exact Quotes.wellFormed_pair (Quotes.wellFormed_trim.mp (ih h))
  | hstop s hs =>
      rwa [stripLayers_eq_self hs] at h

theorem enclosed_pair {q : Quotes} {inner : List Char} :
    q.Enclosed ('(' :: (inner ++ [')'])) ↔ q.WellFormed inner := by
  constructor
  · rintro ⟨inner', heq, h⟩
    have hinner : inner = inner' := List.append_cancel_right (List.cons.inj heq).2
    exact hinner ▸ h
  · exact fun h => ⟨inner, rfl, h⟩

/-- At each layer the pair that the loop sees is the pair that encloses the layer. -/
def CountsAlike (s : List Char) : Prop :=
  ∀ text, Layer s text → (bare.Enclosed text ↔ tsql.Enclosed text)

theorem countsAlike_pair {inner : List Char} (hbare : bare.WellFormed inner)
    (htsql : tsql.WellFormed inner) :
    CountsAlike ('(' :: (inner ++ [')'])) ↔ CountsAlike (trim inner) := by
  constructor
  · intro h text htext
    exact h text (.inner htsql htext)
  · intro h text htext
    generalize hs : '(' :: (inner ++ [')']) = s at htext
    cases htext with
    | whole =>
        rw [← hs]
        exact iff_of_true (enclosed_pair.mpr hbare) (enclosed_pair.mpr htsql)
    | inner hinner hrest =>
        have heq := List.append_cancel_right (List.cons.inj hs).2
        exact h text (heq ▸ hrest)

/-- The loop leaves what it should if and only if literals do not mislead its count. -/
theorem strips_iff {s : List Char} (hs : tsql.WellFormed s) :
    tsql.WellFormed (stripLayers s) ∧ ¬ tsql.Enclosed (stripLayers s) ↔ CountsAlike s := by
  induction s using layers_induction with
  | hpair inner hinner ih =>
      rw [stripLayers_pair hinner]
      by_cases htsql : tsql.WellFormed inner
      · rw [countsAlike_pair hinner htsql]
        exact ih (Quotes.wellFormed_trim.mpr htsql)
      · refine iff_of_false (fun h => htsql ?_) fun h => htsql ?_
        · exact Quotes.wellFormed_trim.mp (wellFormed_of_stripLayers h.1)
        · exact enclosed_pair.mp ((h _ (.whole _)).mp (enclosed_pair.mpr hinner))
  | hstop s h =>
      rw [stripLayers_eq_self h, and_iff_right hs]
      constructor
      · intro hexposed text htext
        cases htext with
        | whole => exact iff_of_false h hexposed
        | inner hinner _ => exact absurd (enclosed_pair.mpr hinner) hexposed
      · intro halike henclosed
        exact h ((halike s (.whole s)).mpr henclosed)

/-! ## What the pairs give back -/

/-- No pair around the whole has a blank directly inside it. -/
def Tight (s : List Char) : Prop :=
  ∀ inner, Layer s ('(' :: (inner ++ [')'])) → tsql.WellFormed inner → trim inner = inner

theorem wrap_succ (n : Nat) (text : List Char) :
    wrap (n + 1) text = '(' :: (wrap n text ++ [')']) := by
  unfold wrap
  rw [List.replicate_succ, List.replicate_succ']
  simp

theorem trim_pair (inner : List Char) :
    trim ('(' :: (inner ++ [')'])) = '(' :: (inner ++ [')']) := by
  have hstart : trimStart ('(' :: (inner ++ [')'])) = '(' :: (inner ++ [')']) :=
    List.dropWhile_cons_of_neg (by decide)
  have hend := trimEnd_append (by decide : isWhitespace ')' = false) ('(' :: inner) []
  rw [List.append_nil, List.cons_append] at hend
  rw [trim, hstart, hend]
  exact List.append_nil _

theorem trim_wrap {text : List Char} (h : trim text = text) (n : Nat) :
    trim (wrap n text) = wrap n text := by
  cases n with
  | zero => simpa [wrap] using h
  | succ n => rw [wrap_succ, trim_pair]

theorem trim_stripLayers {s : List Char} (h : trim s = s) :
    trim (stripLayers s) = stripLayers s := by
  induction s using layers_induction with
  | hpair inner hinner ih =>
      rw [stripLayers_pair hinner]
      exact ih (trim_trim inner)
  | hstop s hs => rwa [stripLayers_eq_self hs]

theorem length_stripLayers_le (s : List Char) : (stripLayers s).length ≤ s.length := by
  induction s using layers_induction with
  | hpair inner hinner ih =>
      have hle := length_trim_le inner
      rw [stripLayers_pair hinner, List.length_cons, List.length_append]
      omega
  | hstop s hs => rw [stripLayers_eq_self hs]

theorem tight_pair {inner : List Char} (h : tsql.WellFormed inner) :
    Tight ('(' :: (inner ++ [')'])) ↔ trim inner = inner ∧ Tight (trim inner) := by
  constructor
  · exact fun htight => ⟨htight inner (.whole _) h,
      fun text htext => htight text (.inner h htext)⟩
  · rintro ⟨htrim, htight⟩ text htext hformed
    generalize hs : '(' :: (inner ++ [')']) = s at htext
    generalize ht : '(' :: (text ++ [')']) = t at htext
    cases htext with
    | whole =>
        have heq := List.append_cancel_right (List.cons.inj (ht.trans hs.symm)).2
        rwa [heq]
    | inner hinner hrest =>
        have heq := List.append_cancel_right (List.cons.inj hs).2
        exact htight text (by rw [heq, ht]; exact hrest) hformed

/-- Where the loop takes the right pairs off, they give the text back if and only if none of
them has a blank directly inside it. -/
theorem wrapped_iff {s : List Char} (halike : CountsAlike s) :
    (∃ n, s = wrap n (stripLayers s)) ↔ Tight s := by
  induction s using layers_induction with
  | hpair inner hbare ih =>
      have hinner : tsql.WellFormed inner :=
        enclosed_pair.mp ((halike _ (.whole _)).mp (enclosed_pair.mpr hbare))
      rw [stripLayers_pair hbare, tight_pair hinner,
        ← ih ((countsAlike_pair hbare hinner).mp halike)]
      constructor
      · rintro ⟨n, hn⟩
        cases n with
        | zero =>
            have hstrip := length_stripLayers_le (trim inner)
            have htrim := length_trim_le inner
            have hlength := congrArg List.length hn
            simp [wrap] at hlength
            omega
        | succ n =>
            rw [wrap_succ] at hn
            have heq := List.append_cancel_right (List.cons.inj hn).2
            have htrim := trim_wrap (trim_stripLayers (trim_trim inner)) n
            rw [← heq] at htrim
            exact ⟨htrim, n, htrim.trans heq⟩
      · rintro ⟨htrim, n, hn⟩
        exact ⟨n + 1, by rw [wrap_succ, ← hn, htrim]⟩
  | hstop s hstop =>
      refine iff_of_true ⟨0, by simp [wrap, stripLayers_eq_self hstop]⟩ fun inner htext hinner => ?_
      exfalso
      generalize ht : '(' :: (inner ++ [')']) = t at htext
      cases htext with
      | whole => exact hstop ((halike s (.whole s)).mpr (ht ▸ enclosed_pair.mpr hinner))
      | inner hformed _ =>
          exact hstop ((halike _ (.whole _)).mpr (enclosed_pair.mpr hformed))

/-! ## Without quotes and blanks -/

theorem countsAlike_of_unquoted {s : List Char} (h : ∀ c ∈ s, tsql.closing c = none) :
    CountsAlike s := by
  intro text htext
  induction htext with
  | whole text =>
      have hinner : ∀ inner, text = '(' :: (inner ++ [')']) →
          (bare.WellFormed inner ↔ tsql.WellFormed inner) := by
        rintro inner rfl
        refine (Quotes.wellFormed_iff_bare fun c hc => h c ?_).symm
        exact List.mem_cons_of_mem _ (List.mem_append_left _ hc)
      constructor
      · rintro ⟨inner, heq, hbare⟩
        exact ⟨inner, heq, (hinner inner heq).mp hbare⟩
      · rintro ⟨inner, heq, htsql⟩
        exact ⟨inner, heq, (hinner inner heq).mpr htsql⟩
  | @inner inner text _ _ ih =>
      apply ih
      intro c hc
      apply h c
      exact List.mem_cons_of_mem _ (List.mem_append_left _ (mem_of_mem_trim hc))

theorem mem_of_layer {c : Char} {s text : List Char} (h : Layer s text) (hc : c ∈ text) : c ∈ s := by
  induction h with
  | whole text => exact hc
  | inner _ _ ih =>
      exact List.mem_cons_of_mem _ (List.mem_append_left _ (mem_of_mem_trim (ih hc)))

theorem tight_of_unspaced {s : List Char} (h : ∀ c ∈ s, isWhitespace c = false) : Tight s := by
  intro inner htext _
  apply trim_eq_self
  exact fun c hc => h c (mem_of_layer htext (List.mem_cons_of_mem _ (List.mem_append_left _ hc)))

/-! ## What is returned -/

/-- The text that is returned; none stands for the empty one. -/
def returned (e : String) : List Char := ((stripDefaultParensOpt (.str e)).getD "").toList

theorem returned_eq (e : String) : returned e = stripLayers (trim e.toList) := by
  have hnil : stripLayers [] = [] := by
    apply stripLayers_eq_self
    rintro ⟨inner, heq, _⟩
    cases heq
  unfold returned stripDefaultParensOpt
  simp only [Json.asStr]
  by_cases hempty : (trim e.toList).isEmpty = true
  · rw [if_pos hempty, List.isEmpty_iff.mp hempty, hnil]
    rfl
  · rw [if_neg hempty]
    by_cases hstripped : (stripLayers (trim e.toList)).isEmpty = true
    · rw [if_pos hstripped, List.isEmpty_iff.mp hstripped]
      rfl
    · rw [if_neg hstripped, Option.getD_some, String.toList_ofList]

/-- All pairs around a default expression are taken off, and nothing else, if and only if at each
layer parentheses in literals leave the count as it is and no blank is next to the pair. -/
theorem unwrapped_iff (e : String) (he : tsql.WellFormed e.toList) :
    Unwrapped e.toList (returned e) ↔ CountsAlike (trim e.toList) ∧ Tight (trim e.toList) := by
  have hstrips := strips_iff (Quotes.wellFormed_trim.mpr he)
  rw [returned_eq]
  constructor
  · rintro ⟨hformed, hwrapped, hexposed⟩
    have halike := hstrips.mp ⟨hformed, hexposed⟩
    exact ⟨halike, (wrapped_iff halike).mp hwrapped⟩
  · rintro ⟨halike, htight⟩
    obtain ⟨hformed, hexposed⟩ := hstrips.mpr halike
    exact ⟨hformed, (wrapped_iff halike).mpr htight, hexposed⟩

theorem two_pairs_unwrapped : Unwrapped "((0))".toList (returned "((0))") := by
  have htrim : trim "((0))".toList = ['(', '(', '0', ')', ')'] := by decide
  refine (unwrapped_iff "((0))" ⟨.code, rfl, by decide⟩).mpr ?_
  rw [htrim]
  constructor
  · apply countsAlike_of_unquoted
    simp only [List.forall_mem_cons, List.not_mem_nil, false_imp_iff, implies_true, and_true]
    decide
  · apply tight_of_unspaced
    simp only [List.forall_mem_cons, List.not_mem_nil, false_imp_iff, implies_true, and_true]
    decide

/-- A closing parenthesis in a literal keeps a pair, and two literals join two pairs. -/
theorem parentheses_in_literals :
    (tsql.WellFormed "(')')".toList ∧ ¬ Unwrapped "(')')".toList (returned "(')')")) ∧
    (tsql.WellFormed "('(')+(')')".toList ∧
      ¬ Unwrapped "('(')+(')')".toList (returned "('(')+(')')")) := by
  have hkept : returned "(')')" = "(')')".toList := by
    have htrim : trim "(')')".toList = "(')')".toList := by decide
    rw [returned_eq, htrim, stripLayers, if_neg (by decide)]
  have hjoined : returned "('(')+(')')" = "'(')+(')'".toList := by
    have htrim : trim "('(')+(')')".toList = "('(')+(')')".toList := by decide
    have hinner : trim "('(')+(')')".toList.tail.dropLast = "'(')+(')'".toList := by decide
    rw [returned_eq, htrim, stripLayers, if_pos (by decide), hinner, stripLayers,
      if_neg (by decide)]
  refine ⟨⟨⟨.code, rfl, by decide⟩, fun h => ?_⟩, ⟨⟨.code, rfl, by decide⟩, fun h => ?_⟩⟩
  · have hexposed := h.exposed
    rw [hkept] at hexposed
    exact hexposed ⟨"')'".toList, by decide, .ended '\'', rfl, by decide⟩
  · have hformed := h.wellFormed
    rw [hjoined] at hformed
    obtain ⟨mode, _, hscan⟩ := hformed
    have hnone : tsql.scan (.code, 0) "'(')+(')'".toList = none := by decide
    rw [hnone] at hscan
    cases hscan

end Dbmaster.Metadata.DefaultParens
