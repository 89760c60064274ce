import Mathlib.Data.List.Basic
import Mathlib.Data.List.TakeWhile
/-!
# Texts as lists of characters

The string operations of the standard library that the program uses, on the
characters of the text.
-/

namespace Dbmaster.Lib.Text

/-- `char::is_whitespace`, the Unicode property `White_Space`. -/
def isWhitespace (c : Char) : Bool :=
  let n := c.toNat
  (9 ≤ n && n ≤ 13) || n == 32 || n == 133 || n == 160 || n == 5760 ||
    (8192 ≤ n && n ≤ 8202) || n == 8232 || n == 8233 || n == 8239 || n == 8287 || n == 12288

theorem not_isWhitespace_of_isAlphanum {c : Char} (h : c.isAlphanum = true) :
    isWhitespace c = false := by
  have hrange : (48 ≤ c.toNat ∧ c.toNat ≤ 57) ∨ (65 ≤ c.toNat ∧ c.toNat ≤ 90) ∨
      (97 ≤ c.toNat ∧ c.toNat ≤ 122) := by
    have hcases : (c.isUpper || c.isLower || c.isDigit) = true := h
    rw [Bool.or_eq_true, Bool.or_eq_true] at hcases
    rcases hcases with (hupper | hlower) | hdigit
    · exact .inr (.inl (of_decide_eq_true hupper))
    · obtain ⟨hlow, hhigh⟩ := Bool.and_eq_true_iff.mp hlower
      exact .inr (.inr ⟨of_decide_eq_true hlow, of_decide_eq_true hhigh⟩)
    · obtain ⟨hlow, hhigh⟩ := Bool.and_eq_true_iff.mp hdigit
      exact .inl ⟨of_decide_eq_true hlow, of_decide_eq_true hhigh⟩
  simp only [isWhitespace, Bool.or_eq_false_iff, Bool.and_eq_false_iff,
    decide_eq_false_iff_not, beq_eq_false_iff_ne]
  omega

def trimStart (text : List Char) : List Char := text.dropWhile isWhitespace

def trimEnd (text : List Char) : List Char := (text.reverse.dropWhile isWhitespace).reverse

def trim (text : List Char) : List Char := trimEnd (trimStart text)

def asciiUpper (text : List Char) : List Char := text.map Char.toUpper

def asciiLower (text : List Char) : List Char := text.map Char.toLower

theorem toLower_eq_self_iff {c : Char} : c.toLower = c ↔ c.isUpper = false := by
  have hupper : (c.val ≥ 'A'.val ∧ c.val ≤ 'Z'.val) ↔ c.isUpper = true := by
    show _ ↔ decide (c.val ≥ 'A'.val ∧ c.val ≤ 'Z'.val) = true
    rw [decide_eq_true_eq]
  unfold Char.toLower
  split
  case isTrue h =>
    rw [hupper.mp h]
    refine iff_of_false (fun hsame => ?_) (by decide)
    have hval : c.val + ('a'.val - 'A'.val) = c.val := congrArg Char.val hsame
    simp at hval
  case isFalse h => exact iff_of_true rfl (Bool.eq_false_iff.mpr fun hc => h (hupper.mpr hc))

theorem asciiLower_eq_self_iff {text : List Char} :
    asciiLower text = text ↔ ∀ c ∈ text, c.isUpper = false := by
  induction text with
  | nil => simp [asciiLower]
  | cons c text ih =>
      unfold asciiLower at ih ⊢
      rw [List.map_cons, List.cons.injEq, ih, toLower_eq_self_iff, List.forall_mem_cons]

theorem toNat_toLower (c : Char) :
    c.toLower = c ∨ c.isUpper = true ∧ c.toLower.toNat = c.toNat + 32 := by
  unfold Char.toLower
  split
  case isTrue h =>
    have hlow : 65 ≤ c.val.toNat := h.1
    have hhigh : c.val.toNat ≤ 90 := h.2
    have hshift : ('a'.val - 'A'.val).toNat = 32 := by decide
    refine .inr ⟨decide_eq_true h, ?_⟩
    show (c.val + ('a'.val - 'A'.val)).toNat = c.val.toNat + 32
    rw [UInt32.toNat_add, hshift]
    omega
  case isFalse => exact .inl rfl

theorem isUpper_or_mem_asciiLower {text : List Char} {c : Char} (h : c ∈ text) :
    c.isUpper = true ∨ c ∈ asciiLower text := by
  rcases toNat_toLower c with hsame | ⟨hupper, _⟩
  · exact .inr (List.mem_map.mpr ⟨c, h, hsame⟩)
  · exact .inl hupper

/-- A text without letters has one spelling. -/
theorem eq_of_asciiLower {text word : List Char} (hword : ∀ c ∈ word, c.toNat < 97)
    (h : asciiLower text = word) : text = word := by
  rw [← h]
  refine (asciiLower_eq_self_iff.mpr fun c hc => ?_).symm
  have hlow := hword c.toLower (h ▸ List.mem_map_of_mem hc)
  rcases toNat_toLower c with hsame | ⟨hupper, hcode⟩
  · exact toLower_eq_self_iff.mp hsame
  · have hcapital : 65 ≤ c.toNat := (of_decide_eq_true hupper).1
    omega

/-- `char::to_uppercase`, for the characters whose upper case has an ASCII
letter; the others are left alone, which no comparison with an ASCII word sees. -/
def toUppercase (c : Char) : List Char :=
  match c.toNat with
  | 0xDF => ['S', 'S']
  | 0x131 => ['I']
  | 0x149 => ['\u02BC', 'N']
  | 0x17F => ['S']
  | 0x1F0 => ['J', '\u030C']
  | 0x1E96 => ['H', '\u0331']
  | 0x1E97 => ['T', '\u0308']
  | 0x1E98 => ['W', '\u030A']
  | 0x1E99 => ['Y', '\u030A']
  | 0x1E9A => ['A', '\u02BE']
  | 0xFB00 => ['F', 'F']
  | 0xFB01 => ['F', 'I']
  | 0xFB02 => ['F', 'L']
  | 0xFB03 => ['F', 'F', 'I']
  | 0xFB04 => ['F', 'F', 'L']
  | 0xFB05 => ['S', 'T']
  | 0xFB06 => ['S', 'T']
  | _ => [c.toUpper]

/-- `char::to_lowercase`, for the characters whose lower case has an ASCII
letter; the others are left alone. -/
def toLowercase (c : Char) : List Char :=
  match c.toNat with
  | 0x130 => ['i', '\u0307']
  | 0x212A => ['k']
  | _ => [c.toLower]

def lower (text : List Char) : List Char := text.flatMap toLowercase

def upper (text : List Char) : List Char := text.flatMap toUppercase

def startsWith (text : List Char) (word : String) : Bool := word.toList.isPrefixOf text

/-- What follows the word, when the text starts with it. -/
def stripPrefix (word : String) (text : List Char) : Option (List Char) :=
  if startsWith text word then some (text.drop word.length) else none

theorem stripPrefix_eq_some_iff {word : String} {text rest : List Char} :
    stripPrefix word text = some rest ↔ text = word.toList ++ rest := by
  unfold stripPrefix startsWith
  rw [Option.ite_none_right_eq_some, List.isPrefixOf_iff_prefix]
  constructor
  · rintro ⟨⟨tail, rfl⟩, heq⟩
    rw [← Option.some.inj heq, ← String.length_toList, List.drop_left]
  · rintro rfl
    exact ⟨List.prefix_append _ _, by rw [← String.length_toList, List.drop_left]⟩

/-- What follows the first occurrence of the word. -/
def afterFirst (word : String) : List Char → Option (List Char)
  | [] => none
  | c :: text =>
      if startsWith (c :: text) word then some ((c :: text).drop word.length)
      else afterFirst word text

theorem length_afterFirst_le (word : String) (text : List Char) :
    ((afterFirst word text).getD []).length ≤ text.length := by
  induction text with
  | nil => exact Nat.le_refl _
  | cons c text ih =>
      rw [afterFirst]
      split
      · rw [Option.getD_some, List.length_drop]
        exact Nat.sub_le _ _
      · exact Nat.le_succ_of_le ih

/-- What stands before and behind the first occurrence of the word. -/
def splitFirst (word : List Char) : List Char → Option (List Char × List Char)
  | [] => none
  | c :: text =>
      if word.isPrefixOf (c :: text) then some ([], (c :: text).drop word.length)
      else (splitFirst word text).map fun pair => (c :: pair.1, pair.2)

def contains (text : List Char) (word : String) : Bool := (splitFirst word.toList text).isSome

theorem eq_append_of_splitFirst {word text before rest : List Char}
    (h : splitFirst word text = some (before, rest)) : text = before ++ (word ++ rest) := by
  induction text generalizing before with
  | nil => cases h
  | cons c text ih =>
      rw [splitFirst] at h
      split at h
      case isTrue hword =>
        obtain ⟨tail, htail⟩ := List.isPrefixOf_iff_prefix.mp hword
        cases h
        rw [← htail, List.drop_left, List.nil_append]
      case isFalse =>
        obtain ⟨⟨b, r⟩, hsplit, hpair⟩ := Option.map_eq_some_iff.mp h
        cases hpair
        rw [ih hsplit, List.cons_append]

/-- The word is found in the same place, whatever stands behind it. -/
theorem splitFirst_append {word text before rest : List Char} (hne : word ≠ [])
    (h : splitFirst word text = some (before, rest)) (tail : List Char) :
    splitFirst word (before ++ (word ++ tail)) = some (before, tail) := by
  induction text generalizing before with
  | nil => cases h
  | cons c text ih =>
      have htext := eq_append_of_splitFirst h
      rw [splitFirst] at h
      split at h
      case isTrue hword =>
        cases h
        cases word with
        | nil => exact absurd rfl hne
        | cons k word =>
            rw [List.nil_append, List.cons_append, splitFirst, if_pos]
            · rw [← List.cons_append, List.drop_left]
            · exact List.isPrefixOf_iff_prefix.mpr (List.prefix_append _ _)
      case isFalse hword =>
        obtain ⟨⟨b, r⟩, hsplit, hpair⟩ := Option.map_eq_some_iff.mp h
        cases hpair
        have hno : ¬ word <+: c :: (b ++ (word ++ tail)) := by
          intro hin
          apply hword
          have hhead : word <+: c :: (b ++ word) := by
            apply List.prefix_of_prefix_length_le hin
            · exact ⟨tail, by simp⟩
            · simp
              omega
          rw [htext]
          exact List.isPrefixOf_iff_prefix.mpr (hhead.trans ⟨r, by simp⟩)
        rw [List.cons_append, splitFirst, if_neg (mt List.isPrefixOf_iff_prefix.mp hno), ih hsplit]
        rfl

/-- `str::split_once` at a character. -/
def splitOnce (sep : Char) : List Char → Option (List Char × List Char)
  | [] => none
  | c :: text =>
      if c = sep then some ([], text)
      else (splitOnce sep text).map fun pair => (c :: pair.1, pair.2)

theorem splitOnce_append {sep : Char} {left : List Char} (h : sep ∉ left) (right : List Char) :
    splitOnce sep (left ++ sep :: right) = some (left, right) := by
  induction left with
  | nil => rw [List.nil_append, splitOnce, if_pos rfl]
  | cons c left ih =>
      rw [List.mem_cons, not_or] at h
      rw [List.cons_append, splitOnce, if_neg (Ne.symm h.1), ih h.2]
      rfl

theorem eq_append_of_splitOnce {sep : Char} {text left right : List Char}
    (h : splitOnce sep text = some (left, right)) : sep ∉ left ∧ text = left ++ sep :: right := by
  induction text generalizing left with
  | nil => cases h
  | cons c text ih =>
      rw [splitOnce] at h
      split at h
      case isTrue hc =>
        cases h
        exact ⟨List.not_mem_nil, by rw [hc]; rfl⟩
      case isFalse hc =>
        obtain ⟨⟨l, r⟩, hsplit, hpair⟩ := Option.map_eq_some_iff.mp h
        cases hpair
        obtain ⟨hnot, htext⟩ := ih hsplit
        refine ⟨?_, by rw [htext]; rfl⟩
        rw [List.mem_cons, not_or]
        exact ⟨Ne.symm hc, hnot⟩

theorem notMem_of_splitOnce {sep : Char} {text : List Char} (h : splitOnce sep text = none) :
    sep ∉ text := by
  induction text with
  | nil => exact List.not_mem_nil
  | cons c text ih =>
      rw [splitOnce] at h
      split at h
      case isTrue => cases h
      case isFalse hc =>
        rw [List.mem_cons, not_or]
        exact ⟨Ne.symm hc, ih (Option.map_eq_none_iff.mp h)⟩

/-- `str::replace`; `skip` characters of an occurrence are still to be passed. -/
def replaceFrom (pattern replacement : List Char) : Nat → List Char → List Char
  | _, [] => []
  | skip + 1, _ :: text => replaceFrom pattern replacement skip text
  | 0, c :: text =>
      if pattern.isPrefixOf (c :: text) then
        replacement ++ replaceFrom pattern replacement (pattern.length - 1) text
      else c :: replaceFrom pattern replacement 0 text

def replace (pattern replacement : String) (text : List Char) : List Char :=
  replaceFrom pattern.toList replacement.toList 0 text

/-- A single character is replaced where it stands. -/
theorem replaceFrom_singleton (q : Char) (replacement text : List Char) :
    replaceFrom [q] replacement 0 text =
      text.flatMap fun c => if c = q then replacement else [c] := by
  induction text with
  | nil => rfl
  | cons c text ih =>
      have hhead : [q].isPrefixOf (c :: text) = true ↔ c = q := by
        rw [List.isPrefixOf_iff_prefix, List.cons_prefix_cons, and_iff_left List.nil_prefix]
        exact eq_comm
      rw [replaceFrom, List.flatMap_cons]
      by_cases hc : c = q
      · rw [if_pos (hhead.mpr hc), if_pos hc, ← ih]
        rfl
      · rw [if_neg (fun h => hc (hhead.mp h)), if_neg hc, ih]
        rfl

example : replace "__P0__" "?" "a >= __P0__".toList = "a >= ?".toList := by decide

/-! ## Words under upper case -/

/-- The upper cases of the characters that are no ASCII letters. -/
def expansions : List (List Char) :=
  [['S', 'S'], ['I'], ['\u02BC', 'N'], ['S'], ['J', '\u030C'], ['H', '\u0331'], ['T', '\u0308'],
    ['W', '\u030A'], ['Y', '\u030A'], ['A', '\u02BE'], ['F', 'F'], ['F', 'I'], ['F', 'L'],
    ['F', 'F', 'I'], ['F', 'F', 'L'], ['S', 'T']]

theorem toUppercase_cases (c : Char) :
    toUppercase c = [c.toUpper] ∨ toUppercase c ∈ expansions := by
  unfold toUppercase
  split <;> simp [expansions]

theorem toNat_toUpper (c : Char) : c.toUpper = c ∨ c.toUpper.toNat + 32 = c.toNat := by
  unfold Char.toUpper
  split
  case isTrue h =>
    right
    have hlow : 97 ≤ c.val.toNat := h.1
    have hhigh : c.val.toNat ≤ 122 := h.2
    have hshift : ('A'.val - 'a'.val).toNat = 4294967264 := by decide
    show (c.val + ('A'.val - 'a'.val)).toNat + 32 = c.val.toNat
    rw [UInt32.toNat_add, hshift]
    omega
  case isFalse => exact .inl rfl

theorem toUppercase_of_ascii {c : Char} (h : c.toNat < 128) : toUppercase c = [c.toUpper] := by
  unfold toUppercase
  split
  case h_18 => rfl
  all_goals
    rename_i hcode
    omega

/-- A word in ASCII capitals that stands at the start of the text is at that of its upper case. -/
theorem upper_of_asciiUpper {word text : List Char} (hword : ∀ c ∈ word, c.toNat < 96)
    (h : asciiUpper (text.take word.length) = word) : word <+: upper text := by
  induction word generalizing text with
  | nil => exact List.nil_prefix
  | cons k word ih =>
      cases text with
      | nil => cases h
      | cons c text =>
          rw [List.length_cons, List.take_succ_cons, asciiUpper, List.map_cons] at h
          obtain ⟨hk, hrest⟩ := List.cons.inj h
          have hascii : c.toNat < 128 := by
            have hlow := hword k List.mem_cons_self
            rcases toNat_toUpper c with hsame | hlower
            · rw [← hsame, hk]
              omega
            · rw [hk] at hlower
              omega
          rw [upper, List.flatMap_cons, toUppercase_of_ascii hascii, hk]
          exact List.cons_prefix_cons.mpr
            ⟨rfl, ih (fun d hd => hword d (List.mem_cons_of_mem _ hd)) hrest⟩

/-- Blanks have no case. -/
theorem toUppercase_of_isWhitespace {c : Char} (h : isWhitespace c = true) :
    toUppercase c = [c] := by
  have hlower : c.toUpper = c := by
    unfold Char.toUpper
    rw [dif_neg]
    rintro ⟨hge, hle⟩
    have hge' : 97 ≤ c.toNat := UInt32.le_iff_toNat_le.mp hge
    have hle' : c.toNat ≤ 122 := UInt32.le_iff_toNat_le.mp hle
    simp only [isWhitespace, Bool.or_eq_true, Bool.and_eq_true, decide_eq_true_eq,
      beq_iff_eq] at h
    omega
  unfold toUppercase
  split
  case h_18 => rw [hlower]
  all_goals
    rename_i hcode
    simp [isWhitespace, hcode] at h

/-- A word without blanks at the start of the upper case is there in that of the first word. -/
theorem prefix_upper_takeWhile {word text : List Char} (hword : ∀ c ∈ word, isWhitespace c = false) :
    word <+: upper text ↔ word <+: upper (text.takeWhile fun c => !isWhitespace c) := by
  have hsplit : upper text = upper (text.takeWhile fun c => !isWhitespace c) ++
      upper (text.dropWhile fun c => !isWhitespace c) := by
    conv_lhs => rw [← List.takeWhile_append_dropWhile (p := fun c => !isWhitespace c) (l := text)]
    exact List.flatMap_append
  constructor
  · intro h
    rw [hsplit] at h
    rcases List.prefix_or_prefix_of_prefix h (List.prefix_append _ _) with hin | ⟨tail, htail⟩
    · exact hin
    · cases tail with
      | nil =>
          rw [List.append_nil] at htail
          exact ⟨[], (List.append_nil _).trans htail.symm⟩
      | cons t tail =>
          -- the blank that ends the first word would belong to the word
          rw [← htail, List.prefix_append_right_inj] at h
          cases hrest : text.dropWhile fun c => !isWhitespace c with
          | nil =>
              rw [hrest] at h
              cases List.prefix_nil.mp h
          | cons c rest =>
              have hblank : isWhitespace c = true := by
                have hhead := List.head?_dropWhile_not (fun c => !isWhitespace c) text
                rw [hrest] at hhead
                simpa using hhead
              rw [hrest, upper, List.flatMap_cons, toUppercase_of_isWhitespace hblank] at h
              obtain ⟨rfl, -⟩ := List.cons_prefix_cons.mp h
              have hno := hword t (by rw [← htail]; simp)
              rw [hblank] at hno
              cases hno
  · intro h
    rw [hsplit]
    exact h.trans (List.prefix_append _ _)

/-- No part of the word can come from such a character. -/
def steady : List Char → Bool
  | [] => true
  | k :: word =>
      (expansions.all fun e => !e.isPrefixOf (k :: word) && !(k :: word).isPrefixOf e) &&
        steady word

/-- A steady word at the start of the upper case stands in ASCII letters in the text. -/
theorem asciiUpper_of_upper {word text : List Char} (hsteady : steady word = true)
    (h : word <+: upper text) : asciiUpper (text.take word.length) = word := by
  induction word generalizing text with
  | nil => rfl
  | cons k word ih =>
      simp only [steady, Bool.and_eq_true, List.all_eq_true, Bool.not_eq_true'] at hsteady
      cases text with
      | nil => simp [upper] at h
      | cons c text =>
          have hupper : upper (c :: text) = toUppercase c ++ upper text := rfl
          rw [hupper] at h
          rcases toUppercase_cases c with hone | hmore
          · rw [hone] at h
            obtain ⟨hk, hword⟩ := List.cons_prefix_cons.mp h
            rw [List.length_cons, List.take_succ_cons, asciiUpper, List.map_cons, ← hk]
            exact congrArg (k :: ·) (ih hsteady.2 hword)
          · have hno := hsteady.1 _ hmore
            rcases List.prefix_or_prefix_of_prefix h (List.prefix_append _ _) with hword | hexp
            · rw [List.isPrefixOf_iff_prefix.mpr hword] at hno
              cases hno.2
            · rw [List.isPrefixOf_iff_prefix.mpr hexp] at hno
              cases hno.1

/-! ## Trimmed texts -/

theorem trimStart_append_of_blank {blank text : List Char}
    (h : ∀ c ∈ blank, isWhitespace c = true) : trimStart (blank ++ text) = trimStart text :=
  List.dropWhile_append_of_pos h

theorem exists_blank_append (text : List Char) :
    ∃ blank, (∀ c ∈ blank, isWhitespace c = true) ∧ text = blank ++ trimStart text := by
  refine ⟨text.takeWhile isWhitespace, fun c hc => List.mem_takeWhile_imp hc, ?_⟩
  exact (List.takeWhile_append_dropWhile).symm

theorem exists_append_blank (text : List Char) :
    ∃ blank, (∀ c ∈ blank, isWhitespace c = true) ∧ text = trimEnd text ++ blank := by
  obtain ⟨blank, hblank, htext⟩ := exists_blank_append text.reverse
  refine ⟨blank.reverse, fun c hc => hblank c (List.mem_reverse.mp hc), ?_⟩
  calc text = (blank ++ trimStart text.reverse).reverse := by rw [← htext, List.reverse_reverse]
    _ = trimEnd text ++ blank.reverse := List.reverse_append

theorem exists_trim (text : List Char) :
    ∃ p q, (∀ c ∈ p, isWhitespace c = true) ∧ (∀ c ∈ q, isWhitespace c = true) ∧
      text = p ++ (trim text ++ q) := by
  obtain ⟨p, hp, hstart⟩ := exists_blank_append text
  obtain ⟨q, hq, hend⟩ := exists_append_blank (trimStart text)
  exact ⟨p, q, hp, hq, by rw [trim, ← hend, ← hstart]⟩

theorem length_trim_le (text : List Char) : (trim text).length ≤ text.length := by
  obtain ⟨p, q, _, _, htext⟩ := exists_trim text
  have hlength := congrArg List.length htext
  rw [List.length_append, List.length_append] at hlength
  omega

theorem mem_of_mem_trim {c : Char} {text : List Char} (h : c ∈ trim text) : c ∈ text := by
  obtain ⟨p, q, _, _, htext⟩ := exists_trim text
  rw [htext]
  exact List.mem_append_right p (List.mem_append_left q h)

theorem trim_eq_self {text : List Char} (h : ∀ c ∈ text, isWhitespace c = false) :
    trim text = text := by
  have hstart : ∀ part : List Char, (∀ c ∈ part, isWhitespace c = false) →
      part.dropWhile isWhitespace = part := by
    intro part hpart
    cases part with
    | nil => rfl
    | cons c part =>
        rw [List.dropWhile_cons_of_neg]
        rw [hpart c List.mem_cons_self]
        exact Bool.false_ne_true
  rw [trim, trimStart, hstart text h, trimEnd, hstart text.reverse, List.reverse_reverse]
  exact fun c hc => h c (List.mem_reverse.mp hc)

theorem trim_isPart (text : List Char) : trim text <+: trimStart text := by
  unfold trim trimEnd
  rw [← List.reverse_suffix, List.reverse_reverse]
  exact List.dropWhile_suffix _

/-- A part of a text without blanks before it has none before it. -/
theorem trimStart_of_part {part text : List Char} (h : part <+: trimStart text) :
    trimStart part = part := by
  cases part with
  | nil => rfl
  | cons c part =>
      obtain ⟨tail, htail⟩ := h
      have hhead := List.head?_dropWhile_not isWhitespace text
      rw [trimStart] at htail
      rw [← htail] at hhead
      have hc : isWhitespace c = false := by simpa using hhead
      rw [trimStart, List.dropWhile_cons_of_neg (by simp [hc])]

/-- What ends in no blank keeps its end. -/
theorem trimStart_concat {c : Char} (hc : isWhitespace c = false) (part : List Char) :
    trimStart (part ++ [c]) = trimStart part ++ [c] := by
  induction part with
  | nil => rw [List.nil_append, trimStart, List.dropWhile_cons_of_neg (by simp [hc])]; rfl
  | cons d part ih =>
      by_cases hd : isWhitespace d = true
      · rw [List.cons_append, trimStart, List.dropWhile_cons_of_pos hd, trimStart,
          List.dropWhile_cons_of_pos hd]
        exact ih
      · rw [List.cons_append, trimStart, List.dropWhile_cons_of_neg hd, trimStart,
          List.dropWhile_cons_of_neg hd]
        rfl

/-- The trimming at the end stops at what is no blank. -/
theorem trimEnd_append {c : Char} (hc : isWhitespace c = false) (part tail : List Char) :
    trimEnd (part ++ [c] ++ tail) = part ++ [c] ++ trimEnd tail := by
  have hrev : (part ++ [c]).reverse.dropWhile isWhitespace = (part ++ [c]).reverse := by
    rw [List.reverse_append, List.reverse_singleton, List.singleton_append,
      List.dropWhile_cons_of_neg (by simp [hc])]
  simp only [trimEnd]
  rw [List.reverse_append, List.dropWhile_append]
  split
  case isTrue hempty =>
    have hnil : tail.reverse.dropWhile isWhitespace = [] := List.isEmpty_iff.mp hempty
    rw [hrev, hnil, List.reverse_reverse, List.reverse_nil, List.append_nil]
  case isFalse => rw [List.reverse_append, List.reverse_reverse]

theorem concat_isPart_trim {c : Char} (hc : isWhitespace c = false) {part text : List Char}
    (h : part ++ [c] <+: text) : trimStart part ++ [c] <+: trim text := by
  obtain ⟨tail, rfl⟩ := h
  have hstart : trimStart (part ++ [c] ++ tail) = trimStart part ++ [c] ++ tail := by
    rw [← trimStart_concat hc]
    unfold trimStart
    rw [List.dropWhile_append]
    split
    case isTrue hempty =>
      have hnil : trimStart (part ++ [c]) = [] := List.isEmpty_iff.mp hempty
      rw [trimStart_concat hc] at hnil
      simp at hnil
    case isFalse => rfl
  rw [trim, hstart, trimEnd_append hc]
  exact List.prefix_append _ _

theorem trim_trim (text : List Char) : trim (trim text) = trim text := by
  have hstart : trimStart (trim text) = trim text := trimStart_of_part (trim_isPart text)
  have hend : ∀ part, trimEnd (trimEnd part) = trimEnd part := by
    intro part
    have htwice : trimStart (trimStart part.reverse) = trimStart part.reverse :=
      trimStart_of_part (List.prefix_refl _)
    rw [trimEnd, trimEnd, List.reverse_reverse]
    exact congrArg List.reverse htwice
  rw [trim, hstart, trim, hend]

/-! ## The pieces of a split -/

theorem notMem_of_mem_splitOn {sep : Char} {text piece : List Char}
    (h : piece ∈ text.splitOn sep) : sep ∉ piece := by
  induction text generalizing piece with
  | nil =>
      rw [List.splitOn_nil, List.mem_singleton] at h
      rw [h]
      exact List.not_mem_nil
  | cons c text ih =>
      obtain ⟨first, more, hsplit⟩ := List.exists_cons_of_ne_nil (List.splitOn_ne_nil sep text)
      rw [List.splitOn_cons_eq_if_modifyHead] at h
      split at h
      case isTrue =>
        rcases List.mem_cons.mp h with rfl | h
        · exact List.not_mem_nil
        · exact ih h
      case isFalse hc =>
        rw [hsplit, List.modifyHead_cons] at h
        rcases List.mem_cons.mp h with rfl | h
        · rw [List.mem_cons, not_or]
          refine ⟨?_, ih (hsplit ▸ List.mem_cons_self)⟩
          rintro rfl
          exact hc (beq_self_eq_true sep)
        · exact ih (hsplit ▸ List.mem_cons_of_mem first h)

theorem exists_mem_splitOn {sep c : Char} (hc : c ≠ sep) {text : List Char} (h : c ∈ text) :
    ∃ piece ∈ text.splitOn sep, c ∈ piece := by
  induction text with
  | nil => cases h
  | cons d text ih =>
      obtain ⟨first, more, hsplit⟩ := List.exists_cons_of_ne_nil (List.splitOn_ne_nil sep text)
      rw [List.splitOn_cons_eq_if_modifyHead]
      split
      case isTrue hd =>
        rcases List.mem_cons.mp h with rfl | h
        · exact absurd (beq_iff_eq.mp hd) hc
        · obtain ⟨piece, hpiece, hin⟩ := ih h
          exact ⟨piece, List.mem_cons_of_mem _ hpiece, hin⟩
      case isFalse =>
        rw [hsplit, List.modifyHead_cons]
        rcases List.mem_cons.mp h with rfl | h
        · exact ⟨_, List.mem_cons_self, List.mem_cons_self⟩
        · obtain ⟨piece, hpiece, hin⟩ := ih h
          rw [hsplit] at hpiece
          rcases List.mem_cons.mp hpiece with rfl | hpiece
          · exact ⟨_, List.mem_cons_self, List.mem_cons_of_mem _ hin⟩
          · exact ⟨piece, List.mem_cons_of_mem _ hpiece, hin⟩

end Dbmaster.Lib.Text
