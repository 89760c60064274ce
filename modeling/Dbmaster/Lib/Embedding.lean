import Dbmaster.Lib.Dialect
/-!
# Texts embedded as string literals

A text is put between delimiters with a character in front of each delimiter of its own: the
delimiter itself, or a backslash.  What is read back depends on the backslashes of the text.
-/

namespace Dbmaster.Lib.Embedding

open Dbmaster.Lib.Dialect

/-- The text with `e` in front of every `q`. -/
def guarded (e q : Char) (text : List Char) : List Char :=
  text.flatMap fun c => if c = q then [e, q] else [c]

/-- No backslash of the text acts on what follows it, and none ends the text. -/
def keeps (d : Rules) (q : Char) : List Char → Bool
  | [] => true
  | c :: text => (c ≠ '\\' || text.head?.any fun x => !d.escapes q x) && keeps d q text

variable {d : Rules} {e q : Char}

theorem keeps_iff {text : List Char} : keeps d q text = true ↔ ∀ before after,
    text = before ++ '\\' :: after → ∃ x, after.head? = some x ∧ d.escapes q x = false := by
  induction text with
  | nil => exact iff_of_true rfl (by simp)
  | cons c text ih =>
      rw [keeps, Bool.and_eq_true, ih]
      constructor
      · rintro ⟨hhere, hlater⟩ before after heq
        cases before with
        | nil =>
            obtain ⟨rfl, rfl⟩ := List.cons.inj heq
            cases text with
            | nil => simp at hhere
            | cons x text => exact ⟨x, rfl, by simpa using hhere⟩
        | cons b before => exact hlater before after (List.cons.inj heq).2
      · intro h
        refine ⟨?_, fun before after heq => h (c :: before) after (by rw [heq]; rfl)⟩
        by_cases hc : c = '\\'
        · subst hc
          obtain ⟨x, hx, hnot⟩ := h [] text rfl
          simp [hx, hnot]
        · simp [hc]

theorem guarded_cons (c : Char) (text : List Char) :
    guarded e q (c :: text) = (if c = q then [e, q] else [c]) ++ guarded e q text := rfl

theorem guarded_quote (text : List Char) :
    guarded e q (q :: text) = e :: q :: guarded e q text := by
  rw [guarded_cons, if_pos rfl]
  rfl

theorem guarded_other {c : Char} (hc : c ≠ q) (text : List Char) :
    guarded e q (c :: text) = c :: guarded e q text := by
  rw [guarded_cons, if_neg hc]
  rfl

theorem replace_eq_guarded (text : List Char) :
    Text.replaceFrom [q] [e, q] 0 text = guarded e q text :=
  Text.replaceFrom_singleton q [e, q] text

/-! ## Reading back -/

theorem ne_backslash (hq : d.delimiter q = some .literal) : q ≠ '\\' := by
  rintro rfl
  rw [d.backslash] at hq
  cases hq

theorem readBody_guard (hq : d.delimiter q = some .literal) (he : e = q ∨ e = '\\')
    (text : List Char) :
    d.readBody q 0 (e :: q :: text) =
      (d.readBody q 0 text).map fun read => (q :: read.1, read.2) := by
  rcases he with rfl | rfl
  · exact Rules.readBody_doubled text (ne_backslash hq)
  · rw [Rules.readBody_escaped (d.escapesSelf q hq).1, d.self q text (Or.inr hq)]
    rfl

/-- A text whose backslashes are kept is read back, up to its closing delimiter. -/
theorem readBody_guarded (hq : d.delimiter q = some .literal) (he : e = q ∨ e = '\\')
    {text rest : List Char} (hkeeps : keeps d q text = true) (hrest : rest.head? ≠ some q) :
    d.readBody q 0 (guarded e q text ++ q :: rest) = some (text, rest) := by
  have hne := ne_backslash hq
  induction text with
  | nil => exact Rules.readBody_closed hne hrest
  | cons c text ih =>
      rw [keeps, Bool.and_eq_true] at hkeeps
      by_cases hc : c = q
      · subst hc
        rw [guarded_quote, List.cons_append, List.cons_append, readBody_guard hq he, ih hkeeps.2]
        rfl
      · rw [guarded_other hc, List.cons_append]
        by_cases hback : c = '\\'
        · subst hback
          cases text with
          | nil => exact absurd hkeeps.1 (by simp)
          | cons x text =>
              have hx : d.escapes q x = false := by simpa using hkeeps.1
              have hxq : x ≠ q := by
                rintro rfl
                rw [(d.escapesSelf x hq).1] at hx
                cases hx
              rw [Rules.readBody_kept hc, ih hkeeps.2]
              · rfl
              · rw [guarded_other hxq]
                exact hx
        · rw [Rules.readBody_plain _ hback hc, ih hkeeps.2]
          rfl

/-! ## What is not read back

Where a backslash acts, the value gets shorter than the text, and the end of a value that is
no shorter is the end of the embedded text. -/

/-- Off by one delimiter, nothing is added to what is read. -/
theorem length_readBody_shifted (hq : d.delimiter q = some .literal) (he : e = q ∨ e = '\\')
    {text value rest : List Char}
    (h : d.readBody q 0 (q :: (guarded e q text ++ [q])) = some (value, rest)) :
    value.length ≤ text.length := by
  have hne := ne_backslash hq
  induction text generalizing value with
  | nil =>
      rw [show guarded e q [] ++ [q] = [q] from rfl, Rules.readBody_doubled _ hne] at h
      cases h
  | cons c text ih =>
      by_cases hc : c = q
      · subst hc
        rw [guarded_quote, List.cons_append, List.cons_append] at h
        rcases he with rfl | rfl
        · rw [Rules.readBody_doubled _ hne] at h
          obtain ⟨read, hread, heq⟩ := Option.map_eq_some_iff.mp h
          cases heq
          exact Nat.succ_le_succ (ih hread)
        · have hhead : '\\' ≠ c := Ne.symm hne
          rw [Rules.readBody_closed hne (by simpa using hhead)] at h
          cases h
          exact Nat.zero_le _
      · rw [guarded_other hc, List.cons_append,
          Rules.readBody_closed hne (by simpa using hc)] at h
        cases h
        exact Nat.zero_le _

/-- A backslash in front of a delimiter of the text leads there. -/
theorem length_readBody_backslash (hq : d.delimiter q = some .literal) (he : e = q ∨ e = '\\')
    {text value rest : List Char}
    (h : d.readBody q 0 ('\\' :: (guarded e q (q :: text) ++ [q])) = some (value, rest)) :
    value.length ≤ text.length + 1 := by
  have hread : ∃ read, d.readBody q 0 (q :: (guarded e q text ++ [q])) = some read ∧
      value.length = read.1.length + 1 := by
    rw [guarded_quote, List.cons_append, List.cons_append] at h
    rcases he with rfl | rfl
    · rw [Rules.readBody_escaped (d.escapesSelf e hq).1, d.self e _ (Or.inr hq)] at h
      obtain ⟨read, hread, heq⟩ := Option.map_eq_some_iff.mp h
      cases heq
      exact ⟨read, hread, rfl⟩
    · rw [Rules.readBody_escaped (d.escapesSelf q hq).2, d.self '\\' _ (Or.inl rfl)] at h
      obtain ⟨read, hread, heq⟩ := Option.map_eq_some_iff.mp h
      cases heq
      exact ⟨read, hread, rfl⟩
  obtain ⟨read, hread, hlength⟩ := hread
  rw [hlength]
  exact Nat.succ_le_succ (length_readBody_shifted hq he hread)

/-- Characters that are neither a delimiter nor a backslash are those of the text itself. -/
theorem take_of_guarded (hq : d.delimiter q = some .literal) (he : e = q ∨ e = '\\')
    {text : List Char} {k : Nat}
    (h : ∀ x ∈ (guarded e q text ++ [q]).take k, x ≠ '\\' ∧ d.delimiter x = none) :
    k ≤ text.length ∧ ∀ x ∈ text.take k, x ≠ q := by
  induction text generalizing k with
  | nil =>
      cases k with
      | zero => exact ⟨Nat.le_refl _, nofun⟩
      | succ k =>
          have hnone := (h q List.mem_cons_self).2
          rw [hq] at hnone
          cases hnone
  | cons c text ih =>
      cases k with
      | zero => exact ⟨Nat.zero_le _, nofun⟩
      | succ k =>
          by_cases hc : c = q
          · subst hc
            rw [guarded_quote] at h
            obtain ⟨hback, hnone⟩ := h e List.mem_cons_self
            rcases he with rfl | rfl
            · rw [hq] at hnone
              cases hnone
            · exact absurd rfl hback
          · rw [guarded_other hc] at h
            obtain ⟨hle, hall⟩ := ih fun x hx => h x (List.mem_cons_of_mem c hx)
            exact ⟨Nat.succ_le_succ hle, List.forall_mem_cons.mpr ⟨hc, hall⟩⟩

/-- What is read of the embedded text is no longer than the text, and as long only where its
backslashes are kept. -/
def ReadsWithin (d : Rules) (e q : Char) (text : List Char) : Prop :=
  ∀ skip value rest, skip ≤ text.length → (∀ x ∈ text.take skip, x ≠ q) →
    d.readBody q skip (guarded e q text ++ [q]) = some (value, rest) →
    value.length + skip ≤ text.length ∧ (value.length = text.length → keeps d q text = true)

/-- Behind a backslash. -/
theorem ReadsWithin.backslash (hq : d.delimiter q = some .literal) (he : e = q ∨ e = '\\')
    {text value rest : List Char} (ih : ReadsWithin d e q text)
    (h : d.readBody q 0 ('\\' :: (guarded e q text ++ [q])) = some (value, rest)) :
    value.length ≤ text.length + 1 ∧
      (value.length = text.length + 1 → keeps d q ('\\' :: text) = true) := by
  have hne := ne_backslash hq
  cases text with
  | nil =>
      have hclosed : guarded e q [] ++ [q] = [q] := rfl
      rw [hclosed, Rules.readBody_escaped (d.escapesSelf q hq).1, d.self q [] (Or.inr hq)] at h
      cases h
  | cons x text =>
      by_cases hx : x = q
      · subst hx
        have hle := length_readBody_backslash hq he h
        rw [List.length_cons]
        exact ⟨by omega, fun heq => absurd heq (by omega)⟩
      · have hguarded := guarded_other (e := e) hx text
        rw [hguarded, List.cons_append] at h
        cases hescapes : d.escapes q x with
        | true =>
            rw [Rules.readBody_escaped hescapes] at h
            obtain ⟨read, hread, heq⟩ := Option.map_eq_some_iff.mp h
            cases heq
            obtain ⟨hmore, hnone⟩ := take_of_guarded hq he (d.extra x _)
            have hshort := d.short x (guarded e q text ++ [q])
            obtain ⟨hle, -⟩ := ih _ read.1 read.2 (Nat.succ_le_succ hmore)
              (List.forall_mem_cons.mpr ⟨hx, hnone⟩) (by rw [hguarded]; exact hread)
            rw [List.length_append]
            exact ⟨by omega, fun heq => absurd heq (by omega)⟩
        | false =>
            have hhead : (x :: (guarded e q text ++ [q])).head?.any (d.escapes q) = false :=
              hescapes
            rw [Rules.readBody_kept (Ne.symm hne) hhead] at h
            obtain ⟨read, hread, heq⟩ := Option.map_eq_some_iff.mp h
            cases heq
            obtain ⟨hle, hkeeps⟩ := ih 0 read.1 read.2 (Nat.zero_le _) (by simp)
              (by rw [hguarded]; exact hread)
            refine ⟨Nat.succ_le_succ hle, fun heq => ?_⟩
            rw [keeps, hkeeps (Nat.succ.inj heq)]
            simp [hescapes]

theorem readsWithin (hq : d.delimiter q = some .literal) (he : e = q ∨ e = '\\')
    (text : List Char) : ReadsWithin d e q text := by
  have hne := ne_backslash hq
  induction text with
  | nil =>
      intro skip value rest hskip _ h
      obtain rfl : skip = 0 := Nat.le_zero.mp hskip
      have hclosed : guarded e q [] ++ [q] = [q] := rfl
      rw [hclosed, Rules.readBody_closed hne (by simp)] at h
      cases h
      exact ⟨Nat.le_refl _, fun _ => rfl⟩
  | cons c text ih =>
      intro skip value rest hskip hnot h
      rw [List.length_cons] at hskip ⊢
      cases skip with
      | succ skip =>
          obtain ⟨hc, hlater⟩ := List.forall_mem_cons.mp hnot
          rw [guarded_other hc] at h
          obtain ⟨hle, -⟩ := ih skip value rest (Nat.le_of_succ_le_succ hskip) hlater h
          exact ⟨by omega, fun heq => absurd heq (by omega)⟩
      | zero =>
          by_cases hc : c = q
          · subst hc
            rw [guarded_quote, List.cons_append, List.cons_append, readBody_guard hq he] at h
            obtain ⟨read, hread, heq⟩ := Option.map_eq_some_iff.mp h
            cases heq
            obtain ⟨hle, hkeeps⟩ := ih 0 read.1 read.2 (Nat.zero_le _) (by simp) hread
            refine ⟨Nat.succ_le_succ hle, fun heq => ?_⟩
            simp [keeps, hne, hkeeps (Nat.succ.inj heq)]
          · rw [guarded_other hc, List.cons_append] at h
            by_cases hback : c = '\\'
            · subst hback
              exact ih.backslash hq he h
            · rw [Rules.readBody_plain _ hback hc] at h
              obtain ⟨read, hread, heq⟩ := Option.map_eq_some_iff.mp h
              cases heq
              obtain ⟨hle, hkeeps⟩ := ih 0 read.1 read.2 (Nat.zero_le _) (by simp) hread
              refine ⟨Nat.succ_le_succ hle, fun heq => ?_⟩
              simp [keeps, hback, hkeeps (Nat.succ.inj heq)]

/-! ## As the only literal -/

def quoted (e q : Char) (text : List Char) : List Char := q :: (guarded e q text ++ [q])

theorem tokens_nil : d.tokens [] = some [] := by
  have hskip : d.lead.skip [] = List.dropWhile d.lead.blank [] :=
    d.lead.skip_of_token d.lead.comment_nil
  rw [Rules.tokens_eq, hskip]
  rfl

theorem literals_nil : d.literals [] = some [] := by
  rw [Rules.literals, tokens_nil]
  rfl

/-- An embedded text is read as one literal with this value if and only if its backslashes
are kept. -/
theorem literals_quoted_iff (hq : d.delimiter q = some .literal) (he : e = q ∨ e = '\\')
    (text : List Char) :
    d.literals (quoted e q text) = some [text] ↔ keeps d q text = true := by
  rw [quoted, Rules.literals_delimited hq]
  constructor
  · intro h
    obtain ⟨⟨value, rest⟩, hread, hlater⟩ := Option.bind_eq_some_iff.mp h
    obtain ⟨later, -, heq⟩ := Option.map_eq_some_iff.mp hlater
    obtain rfl : value = text := (List.cons.inj heq).1
    exact (readsWithin hq he value 0 value rest (Nat.zero_le _) (by simp) hread).2 rfl
  · intro hkeeps
    rw [readBody_guarded hq he hkeeps (by simp), Option.bind_some, literals_nil]
    rfl

theorem tokens_quoted_iff (hq : d.delimiter q = some .literal) (he : e = q ∨ e = '\\')
    (text : List Char) :
    d.tokens (quoted e q text) = some [.literal text] ↔ keeps d q text = true := by
  constructor
  · intro h
    rw [← literals_quoted_iff hq he, Rules.literals, h]
    rfl
  · intro hkeeps
    rw [quoted, Rules.tokens_delimited hq, readBody_guarded hq he hkeeps (by simp),
      Option.bind_some, tokens_nil]
    rfl

/-- The embedded text, then what follows it. -/
theorem literals_quoted_append (hq : d.delimiter q = some .literal) (he : e = q ∨ e = '\\')
    {text rest : List Char} (hkeeps : keeps d q text = true) (hrest : rest.head? ≠ some q) :
    d.literals (quoted e q text ++ rest) = (d.literals rest).map (text :: ·) := by
  have hsplit : quoted e q text ++ rest = q :: (guarded e q text ++ q :: rest) := by
    simp [quoted]
  rw [hsplit, Rules.literals_delimited hq, readBody_guarded hq he hkeeps hrest, Option.bind_some]

/-! ## Backslashes doubled as well -/

theorem readBody_doubled (hq : d.delimiter q = some .literal) {text rest : List Char}
    (hrest : rest.head? ≠ some q) :
    d.readBody q 0 (guarded q q (guarded '\\' '\\' text) ++ q :: rest) = some (text, rest) := by
  have hne := ne_backslash hq
  induction text with
  | nil => exact Rules.readBody_closed hne hrest
  | cons c text ih =>
      by_cases hback : c = '\\'
      · subst hback
        rw [guarded_quote, guarded_other (Ne.symm hne), guarded_other (Ne.symm hne),
          List.cons_append, List.cons_append, Rules.readBody_escaped (d.escapesSelf q hq).2,
          d.self '\\' _ (Or.inl rfl), ih]
        rfl
      · rw [guarded_other hback]
        by_cases hc : c = q
        · subst hc
          rw [guarded_quote, List.cons_append, List.cons_append,
            readBody_guard hq (Or.inl rfl), ih]
          rfl
        · rw [guarded_other hc, List.cons_append, Rules.readBody_plain _ hback hc, ih]
          rfl

theorem literals_doubled (hq : d.delimiter q = some .literal) (text : List Char) :
    d.literals (quoted q q (guarded '\\' '\\' text)) = some [text] := by
  rw [quoted, Rules.literals_delimited hq, readBody_doubled hq (by simp), Option.bind_some,
    literals_nil]
  rfl

end Dbmaster.Lib.Embedding
