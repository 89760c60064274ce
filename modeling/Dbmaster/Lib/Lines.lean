import Dbmaster.Lib.Text
import Mathlib.Data.List.Infix
import Mathlib.Data.List.DropRight
/-!
# Lines of a text and the place of a word

`str::lines` and `str::find` on the characters of the text, and what they give on
texts put together from lines.
-/

namespace Dbmaster.Lib.Text

/-- Without the carriage return that it may end in. -/
def stripReturn (line : List Char) : List Char :=
  if line.getLast? = some '\r' then line.dropLast else line

/-- `str::lines`: what line feeds end, each without a carriage return before the feed,
and what stands after the last feed, if anything does. -/
def lines (text : List Char) : List (List Char) :=
  let pieces := text.splitOn '\n'
  pieces.dropLast.map stripReturn ++ pieces.getLast?.toList.filter (· ≠ [])

/-- `str::find`: where the word stands first. -/
def find (word : List Char) : List Char → Option Nat
  | [] => if word = [] then some 0 else none
  | c :: text =>
      if word.isPrefixOf (c :: text) then some 0 else (find word text).map (· + 1)

/-- The lines, each ended by a line feed. -/
def unlines (ls : List (List Char)) : List Char := ls.flatMap (· ++ ['\n'])

/-! ## Lines -/

theorem stripReturn_isPart (line : List Char) : stripReturn line <+: line := by
  unfold stripReturn
  split
  · exact List.dropLast_prefix line
  · exact List.prefix_refl line

theorem newline_not_mem_of_mem_splitOn {text piece : List Char}
    (h : piece ∈ text.splitOn '\n') : '\n' ∉ piece := by
  induction text generalizing piece with
  | nil =>
      rw [List.splitOn_nil, List.mem_singleton] at h
      rw [h]
      exact List.not_mem_nil
  | cons c text ih =>
      rw [List.splitOn_cons_eq_if_modifyHead] at h
      by_cases hc : (c == '\n') = true
      · rw [if_pos hc] at h
        rcases List.mem_cons.mp h with hnil | htext
        · rw [hnil]
          exact List.not_mem_nil
        · exact ih htext
      · rw [if_neg hc] at h
        have hne : '\n' ≠ c := fun heq => hc (by rw [heq]; exact beq_self_eq_true c)
        generalize hpieces : text.splitOn '\n' = pieces at h ih
        cases pieces with
        | nil => cases h
        | cons first rest =>
            rcases List.mem_cons.mp h with hfirst | hrest
            · rw [hfirst, List.mem_cons, not_or]
              exact ⟨hne, ih List.mem_cons_self⟩
            · exact ih (List.mem_cons_of_mem _ hrest)

theorem newline_not_mem_of_mem_lines {text line : List Char} (h : line ∈ lines text) :
    '\n' ∉ line := by
  unfold lines at h
  rcases List.mem_append.mp h with hended | hlast
  · obtain ⟨piece, hpiece, rfl⟩ := List.mem_map.mp hended
    intro hmem
    exact newline_not_mem_of_mem_splitOn (List.mem_of_mem_dropLast hpiece)
      ((stripReturn_isPart piece).subset hmem)
  · apply newline_not_mem_of_mem_splitOn
    have hpiece := (List.mem_filter.mp hlast).1
    exact List.mem_of_getLast? (by simpa using hpiece)

theorem splitOn_unlines {ls : List (List Char)} (h : ∀ l ∈ ls, '\n' ∉ l) :
    (unlines ls).splitOn '\n' = ls ++ [[]] := by
  induction ls with
  | nil => rfl
  | cons l ls ih =>
      have htail := ih fun k hk => h k (List.mem_cons_of_mem l hk)
      have hl := h l List.mem_cons_self
      unfold unlines at htail ⊢
      rw [List.flatMap_cons, List.append_assoc, List.singleton_append,
        List.splitOn_append_cons_self_of_not_mem hl, htail]
      rfl

theorem lines_unlines {ls : List (List Char)} (h : ∀ l ∈ ls, '\n' ∉ l) :
    lines (unlines ls) = ls.map stripReturn := by
  unfold lines
  rw [splitOn_unlines h]
  simp

/-! ## Words -/

theorem find_of_part {word text : List Char} (h : word <+: text) : find word text = some 0 := by
  cases text with
  | nil =>
      rw [List.prefix_nil] at h
      rw [find, if_pos h]
  | cons c text => rw [find, if_pos (List.isPrefixOf_iff_prefix.mpr h)]

/-- The word stands first where no earlier end of the text begins with it. -/
theorem find_append {word before text : List Char} (h : word <+: text)
    (hfirst : ∀ later, later ≠ [] → later <:+ before → ¬ word <+: later ++ text) :
    find word (before ++ text) = some before.length := by
  induction before with
  | nil => exact find_of_part h
  | cons c before ih =>
      have hno := hfirst (c :: before) (List.cons_ne_nil c before) (List.suffix_refl _)
      have hrest := ih fun later hne hlater =>
        hfirst later hne (hlater.trans (List.suffix_cons c before))
      rw [List.cons_append] at hno ⊢
      rw [find, if_neg fun hpart => hno (List.isPrefixOf_iff_prefix.mp hpart), hrest]
      rfl

theorem infix_or_infix_of_not_mem {sep : Char} {word left right : List Char} (hsep : sep ∉ word)
    (h : word <:+: left ++ sep :: right) : word <:+: left ∨ word <:+: right := by
  obtain ⟨before, later, heq⟩ := h
  rw [List.append_assoc] at heq
  rcases List.append_eq_append_iff.mp heq with ⟨between, hleft, hword⟩ | ⟨between, hbefore, hright⟩
  · -- the word begins in the left part
    rcases List.append_eq_append_iff.mp hword with ⟨more, hmore, -⟩ | ⟨more, hmore, htail⟩
    · left
      exact ⟨before, more, by rw [hleft, hmore, List.append_assoc]⟩
    · cases more with
      | nil =>
          left
          exact ⟨before, [], by rw [hleft, hmore]; simp⟩
      | cons c more =>
          rw [List.cons_append, List.cons.injEq] at htail
          rw [hmore, htail.1] at hsep
          exact absurd (List.mem_append_right _ List.mem_cons_self) hsep
  · cases between with
    | nil =>
        cases word with
        | nil => exact Or.inl (List.nil_infix)
        | cons c word =>
            rw [List.nil_append, List.cons_append, List.cons.injEq] at hright
            rw [hright.1] at hsep
            exact absurd List.mem_cons_self hsep
    | cons c between =>
        right
        rw [List.cons_append, List.cons.injEq] at hright
        exact ⟨between, later, by rw [hright.2, List.append_assoc]⟩

theorem infix_of_append {c : Char} {word before text : List Char} (hc : c ∉ before)
    (h : c :: word <:+: before ++ text) : c :: word <:+: text := by
  induction before with
  | nil => exact h
  | cons d before ih =>
      rw [List.mem_cons, not_or] at hc
      rw [List.cons_append, List.infix_cons_iff] at h
      rcases h with hpart | hrest
      · exact absurd (List.cons_prefix_cons.mp hpart).1 hc.1
      · exact ih hc.2 hrest

theorem infix_of_unlines {word : List Char} (hword : '\n' ∉ word) (hne : word ≠ [])
    {ls : List (List Char)} (h : word <:+: unlines ls) : ∃ l ∈ ls, word <:+: l := by
  induction ls with
  | nil => exact absurd (List.infix_nil.mp h) hne
  | cons l ls ih =>
      unfold unlines at h ih
      rw [List.flatMap_cons, List.append_assoc, List.singleton_append] at h
      rcases infix_or_infix_of_not_mem hword h with hl | hls
      · exact ⟨l, List.mem_cons_self, hl⟩
      · obtain ⟨k, hk, hin⟩ := ih hls
        exact ⟨k, List.mem_cons_of_mem l hk, hin⟩

/-- A word after lines that do not hold it stands there first. -/
theorem find_unlines {word : List Char} (hword : '\n' ∉ word) (hne : word ≠ [])
    {ls : List (List Char)} (h : ∀ l ∈ ls, ¬ word <:+: l) :
    find word (unlines ls ++ word) = some (unlines ls).length := by
  apply find_append (List.prefix_refl word)
  intro later hlater hsuffix hpart
  -- what is left of the lines ends in a line feed
  have hfeed : '\n' ∈ later := by
    rcases List.eq_nil_or_concat ls with hnil | ⟨init, last, hconcat⟩
    · rw [hnil] at hsuffix
      exact absurd (List.suffix_nil.mp hsuffix) hlater
    · have hends : (unlines ls).getLast? = some '\n' := by
        rw [hconcat]
        simp [unlines]
      obtain ⟨before, hbefore⟩ := hsuffix
      rw [← hbefore, List.getLast?_append_of_ne_nil _ hlater] at hends
      exact List.mem_of_getLast? hends
  rcases List.prefix_or_prefix_of_prefix hpart (List.prefix_append later word) with hin | hout
  · have hinfix : word <:+: unlines ls := hin.isInfix.trans hsuffix.isInfix
    obtain ⟨l, hl, hwordl⟩ := infix_of_unlines hword hne hinfix
    exact h l hl hwordl
  · exact hword (hout.subset hfeed)

/-! ## Trimmed pieces -/

theorem trim_append_blank {blank : List Char} (h : ∀ c ∈ blank, isWhitespace c = true)
    (text : List Char) : trim (text ++ blank) = trim text := by
  have hend : ∀ part, trimEnd (part ++ blank) = trimEnd part := by
    intro part
    unfold trimEnd
    rw [List.reverse_append, List.dropWhile_append_of_pos]
    intro c hc
    exact h c (List.mem_reverse.mp hc)
  unfold trim
  rw [trimStart, List.dropWhile_append]
  split
  case isTrue hempty =>
    have hnil : trimStart text = [] := List.isEmpty_iff.mp hempty
    have hblank : blank.dropWhile isWhitespace = [] := List.dropWhile_eq_nil_iff.mpr h
    rw [hnil, hblank]
  case isFalse => exact hend _

theorem trim_trimEnd (text : List Char) : trim (trimEnd text) = trim text := by
  obtain ⟨blank, hblank, htext⟩ := exists_blank_append text.reverse
  have hsplit : text = trimEnd text ++ blank.reverse := by
    calc
      text = text.reverse.reverse := (List.reverse_reverse text).symm
      _ = (blank ++ trimStart text.reverse).reverse := congrArg List.reverse htext
      _ = trimEnd text ++ blank.reverse := List.reverse_append
  have hstrip := trim_append_blank (fun c hc => hblank c (List.mem_reverse.mp hc)) (trimEnd text)
  rw [← hsplit] at hstrip
  exact hstrip.symm

theorem trim_cons_of_blank {c : Char} (hc : isWhitespace c = true) (text : List Char) :
    trim (c :: text) = trim text := by
  unfold trim trimStart
  rw [List.dropWhile_cons_of_pos hc]

theorem trim_stripReturn (line : List Char) : trim (stripReturn line) = trim line := by
  unfold stripReturn
  split
  case isTrue hlast =>
    have hline : line = line.dropLast ++ ['\r'] := (List.dropLast_append_getLast? _ hlast).symm
    have hreturn : ∀ c ∈ ['\r'], isWhitespace c = true := by
      intro c hc
      rw [List.mem_singleton.mp hc]
      rfl
    have hblank := trim_append_blank hreturn line.dropLast
    rw [← hline] at hblank
    exact hblank.symm
  case isFalse => rfl

theorem trim_subset (text : List Char) : trim text ⊆ text := by
  intro c hc
  exact (List.dropWhile_suffix _).subset ((trim_isPart text).subset hc)

end Dbmaster.Lib.Text
