import Dbmaster.Lib.Text
/-!
# JSON texts of lists of strings

How a list of strings is written in JSON, and what stands between two quotes of such a text.
-/

namespace Dbmaster.Lib.JsonText

/-- The characters with an escape of two characters, and its second one. -/
def shortEscapes : List (Char × Char) :=
  [('"', '"'), ('\\', '\\'), ('\x08', 'b'), ('\t', 't'), ('\n', 'n'), ('\x0c', 'f'), ('\r', 'r')]

def escapeChar (c : Char) : List Char :=
  match shortEscapes.find? fun e => e.1 == c with
  | some e => ['\\', e.2]
  | none =>
      if c.toNat < 32 then
        ['\\', 'u', '0', '0', Nat.digitChar (c.toNat / 16), Nat.digitChar (c.toNat % 16)]
      else [c]

def escaped (text : List Char) : List Char := text.flatMap escapeChar

def literal (text : List Char) : List Char := '"' :: (escaped text ++ ['"'])

def array (items : List (List Char)) : List Char :=
  '[' :: ([','].intercalate (items.map literal) ++ [']'])

/-- No character of it is escaped. -/
def Plain (text : List Char) : Prop := ∀ c ∈ text, c ≠ '"' ∧ c ≠ '\\' ∧ 32 ≤ c.toNat

variable {m text tail : List Char}

/-! ## Escapes -/

theorem escapeChar_cases (c : Char) :
    c = '"' ∨ ('\\' ∈ escapeChar c ∧ '"' ∉ escapeChar c ∧ (c = '\\' ∨ c.toNat < 32)) ∨
      (escapeChar c = [c] ∧ c ≠ '"' ∧ c ≠ '\\' ∧ 32 ≤ c.toNat) := by
  unfold escapeChar
  split
  case h_1 e he =>
    have hkey := List.find?_some he
    rw [beq_iff_eq] at hkey
    have hshort : ∀ e ∈ shortEscapes, e.1 = '"' ∨
        ('"' ∉ ['\\', e.2] ∧ (e.1 = '\\' ∨ e.1.toNat < 32)) := by
      simp [shortEscapes]
    rcases hshort e (List.mem_of_find?_eq_some he) with hquote | ⟨hnone, hwhich⟩
    · exact .inl (hkey ▸ hquote)
    · exact .inr (.inl ⟨List.mem_cons_self, hnone, hkey ▸ hwhich⟩)
  case h_2 hnone =>
    have hother : c ≠ '"' ∧ c ≠ '\\' := by
      constructor <;> rintro rfl <;> cases hnone
    split
    case isTrue hlow =>
      have hdigit : ∀ n < 16, Nat.digitChar n ≠ '"' := by decide
      refine .inr (.inl ⟨List.mem_cons_self, ?_, .inr hlow⟩)
      have hhigh := hdigit (c.toNat / 16) (by omega)
      have hrest := hdigit (c.toNat % 16) (by omega)
      simp [hhigh.symm, hrest.symm]
    case isFalse hhigh => exact .inr (.inr ⟨rfl, hother.1, hother.2, by omega⟩)

theorem escaped_append (a b : List Char) : escaped (a ++ b) = escaped a ++ escaped b :=
  List.flatMap_append

theorem escaped_of_plain (h : Plain text) : escaped text = text := by
  induction text with
  | nil => rfl
  | cons c text ih =>
      have hc := h c List.mem_cons_self
      have hone : escapeChar c = [c] := by
        rcases escapeChar_cases c with hquote | ⟨_, _, hback | hlow⟩ | hsame
        · exact absurd hquote hc.1
        · exact absurd hback hc.2.1
        · omega
        · exact hsame.1
      unfold escaped at ih ⊢
      rw [List.flatMap_cons, ih fun d hd => h d (List.mem_cons_of_mem c hd), hone]
      rfl

theorem quote_notMem_escaped (h : '"' ∉ text) : '"' ∉ escaped text := by
  intro hin
  obtain ⟨c, hc, hin⟩ := List.mem_flatMap.mp hin
  rcases escapeChar_cases c with rfl | hother | hsame
  · exact h hc
  · exact hother.2.1 hin
  · rw [hsame.1, List.mem_singleton] at hin
    exact hsame.2.1 hin.symm

/-- What is escaped to a plain text is that text. -/
theorem escaped_eq_plain_iff (hm : Plain m) : escaped text = m ↔ text = m := by
  constructor
  · intro h
    rw [← h]
    refine (escaped_of_plain fun c hc => ?_).symm
    have hin : ∀ d ∈ escapeChar c, d ∈ m := by
      intro d hd
      rw [← h]
      exact List.mem_flatMap.mpr ⟨c, hc, hd⟩
    rcases escapeChar_cases c with rfl | hother | hsame
    · exact absurd rfl (hm '"' (hin '"' (by decide))).1
    · exact absurd rfl (hm '\\' (hin '\\' hother.1)).2.1
    · exact hsame.2
  · rintro rfl
    exact escaped_of_plain hm

theorem le_toNat_of_mem_escapeChar {c d : Char} (hd : d ∈ escapeChar c) : 32 ≤ d.toNat := by
  unfold escapeChar at hd
  split at hd
  case h_1 e he =>
    have hshort : ∀ e ∈ shortEscapes, 32 ≤ e.2.toNat := by decide
    simp only [List.mem_cons, List.not_mem_nil, or_false] at hd
    rcases hd with rfl | rfl
    · decide
    · exact hshort e (List.mem_of_find?_eq_some he)
  case h_2 =>
    split at hd
    case isTrue hlow =>
      have hdigit : ∀ n < 16, 32 ≤ (Nat.digitChar n).toNat := by decide
      simp only [List.mem_cons, List.not_mem_nil, or_false] at hd
      rcases hd with rfl | rfl | rfl | rfl | rfl | rfl
      · decide
      · decide
      · decide
      · decide
      · exact hdigit _ (by omega)
      · exact hdigit _ (by omega)
    case isFalse hhigh =>
      rw [List.mem_singleton.mp hd]
      omega

theorem le_toNat_of_mem_literal {item : List Char} {d : Char} (hd : d ∈ literal item) :
    32 ≤ d.toNat := by
  rw [literal, List.mem_cons, List.mem_append, List.mem_singleton] at hd
  rcases hd with rfl | hd | rfl
  · decide
  · obtain ⟨c, _, hd⟩ := List.mem_flatMap.mp hd
    exact le_toNat_of_mem_escapeChar hd
  · decide

/-- The text of a list has no control characters. -/
theorem le_toNat_of_mem_array {items : List (List Char)} {d : Char} (h : d ∈ array items) :
    32 ≤ d.toNat := by
  rw [array, List.mem_cons, List.mem_append, List.mem_singleton] at h
  rcases h with rfl | h | rfl
  · decide
  · induction items with
    | nil => cases h
    | cons item items ih =>
        cases items with
        | nil => exact le_toNat_of_mem_literal (by simpa [List.intercalate] using h)
        | cons second items =>
            rw [List.map_cons, List.map_cons, List.intercalate_cons_cons, List.mem_append,
              List.mem_append, List.mem_singleton] at h
            rcases h with (h | rfl) | h
            · exact le_toNat_of_mem_literal h
            · decide
            · exact ih h
  · decide

/-! ## Between quotes -/

/-- The text stands between two quotes. -/
def Between (m text : List Char) : Prop := ∃ before rest, text = before ++ '"' :: (m ++ '"' :: rest)

/-- The text stands before the first quote. -/
def Starts (m text : List Char) : Prop := ∃ rest, text = m ++ '"' :: rest

theorem between_cons_quote : Between m ('"' :: text) ↔ Starts m text ∨ Between m text := by
  constructor
  · rintro ⟨before, rest, h⟩
    cases before with
    | nil => exact .inl ⟨rest, (List.cons.inj h).2⟩
    | cons c before => exact .inr ⟨before, rest, (List.cons.inj h).2⟩
  · rintro (⟨rest, rfl⟩ | ⟨before, rest, rfl⟩)
    · exact ⟨[], rest, rfl⟩
    · exact ⟨'"' :: before, rest, rfl⟩

theorem between_append {a : List Char} (ha : '"' ∉ a) : Between m (a ++ text) ↔ Between m text := by
  induction a with
  | nil => rfl
  | cons c a ih =>
      rw [List.mem_cons, not_or] at ha
      rw [← ih ha.2]
      constructor
      · rintro ⟨before, rest, h⟩
        cases before with
        | nil => exact absurd (List.cons.inj h).1.symm ha.1
        | cons d before => exact ⟨before, rest, (List.cons.inj h).2⟩
      · rintro ⟨before, rest, h⟩
        exact ⟨c :: before, rest, by rw [List.cons_append, h]; rfl⟩

theorem not_between_of_notMem (h : '"' ∉ text) : ¬ Between m text := by
  rintro ⟨before, rest, rfl⟩
  simp at h

theorem starts_append_iff {a : List Char} (ha : '"' ∉ a) (hm : '"' ∉ m) :
    Starts m (a ++ '"' :: tail) ↔ a = m := by
  constructor
  · rintro ⟨rest, h⟩
    have hleft := Text.splitOnce_append ha tail
    rw [h, Text.splitOnce_append hm rest] at hleft
    exact (congrArg Prod.fst (Option.some.inj hleft)).symm
  · rintro rfl
    exact ⟨tail, rfl⟩

/-- The text is all of the string, or what follows a quote in it. -/
def EndsWith (m item : List Char) : Prop := item = m ∨ ∃ front, item = front ++ '"' :: m

theorem endsWith_append {a b : List Char} (hm : '"' ∉ m) :
    EndsWith m (a ++ '"' :: b) ↔ EndsWith m b := by
  constructor
  · rintro (h | ⟨front, h⟩)
    · exact absurd (h ▸ List.mem_append_right a List.mem_cons_self) hm
    · rcases List.append_eq_append_iff.mp h with ⟨mid, hfront, hmid⟩ | ⟨mid, hfront, hmid⟩
      · cases mid with
        | nil => exact .inl (List.cons.inj hmid).2
        | cons c mid => exact .inr ⟨mid, (List.cons.inj hmid).2⟩
      · cases mid with
        | nil => exact .inl (List.cons.inj hmid).2.symm
        | cons c mid =>
            rw [(List.cons.inj hmid).2] at hm
            exact absurd (List.mem_append_right mid List.mem_cons_self) hm
  · rintro (rfl | ⟨front, rfl⟩)
    · exact .inr ⟨a, rfl⟩
    · exact .inr ⟨a ++ '"' :: front, by simp⟩

theorem plain_quote (hm : Plain m) : '"' ∉ m := fun h => (hm '"' h).1 rfl

/-- In the text of a string, up to its closing quote. -/
theorem between_escaped (hm : Plain m) (item tail : List Char) :
    Starts m (escaped item ++ '"' :: tail) ∨ Between m (escaped item ++ '"' :: tail) ↔
      EndsWith m item ∨ Between m ('"' :: tail) := by
  induction hlength : item.length using Nat.strong_induction_on generalizing item with
  | _ n ih =>
      cases hsplit : Text.splitOnce '"' item with
      | none =>
          have hnone := Text.notMem_of_splitOnce hsplit
          have hescaped := quote_notMem_escaped hnone
          rw [starts_append_iff hescaped (plain_quote hm), between_append hescaped,
            escaped_eq_plain_iff hm, EndsWith]
          refine or_congr (or_iff_left ?_).symm Iff.rfl
          rintro ⟨front, rfl⟩
          simp at hnone
      | some pair =>
          obtain ⟨a, b⟩ := pair
          obtain ⟨ha, rfl⟩ := Text.eq_append_of_splitOnce hsplit
          have hb := ih b.length (by rw [← hlength]; simp; omega) b rfl
          have htext : escaped (a ++ '"' :: b) ++ '"' :: tail =
              (escaped a ++ ['\\']) ++ '"' :: (escaped b ++ '"' :: tail) := by
            have hcons : escaped ('"' :: b) = '\\' :: '"' :: escaped b := rfl
            rw [escaped_append, hcons]
            simp
          have hlead : '"' ∉ escaped a ++ ['\\'] := by
            simpa using quote_notMem_escaped ha
          have hno : ¬ escaped a ++ ['\\'] = m := by
            rintro rfl
            exact (hm '\\' (by simp)).2.1 rfl
          rw [htext, starts_append_iff hlead (plain_quote hm), or_iff_right hno,
            between_append hlead, between_cons_quote, hb, endsWith_append (plain_quote hm)]

theorem between_escaped_cons (hm : Plain m) (item tail : List Char) :
    Between m ('"' :: (escaped item ++ '"' :: tail)) ↔
      EndsWith m item ∨ Between m ('"' :: tail) :=
  between_cons_quote.trans (between_escaped hm item tail)

theorem not_between_close : ¬ Between m [']'] ∧ ¬ Between m ('"' :: [']']) := by
  have hclose : ¬ Between m [']'] := not_between_of_notMem (by decide)
  refine ⟨hclose, ?_⟩
  rw [between_cons_quote, or_iff_left hclose]
  rintro ⟨rest, h⟩
  have hin : '"' ∈ [']'] := h ▸ List.mem_append_right m List.mem_cons_self
  exact absurd hin (by decide)

theorem between_comma (hm : Plain m) (rest : List Char) :
    Between m ('"' :: ([','] ++ '"' :: rest)) ↔ m = [','] ∨ Between m ('"' :: rest) := by
  rw [between_cons_quote, starts_append_iff (by decide) (plain_quote hm),
    between_append (by decide), @eq_comm _ [',']]

/-- The strings of a list with commas between them, up to its end. -/
def inner (items : List (List Char)) : List Char := [','].intercalate (items.map literal) ++ [']']

theorem inner_single (item : List Char) :
    inner [item] = '"' :: (escaped item ++ '"' :: [']']) := by
  simp [inner, List.intercalate, literal]

theorem inner_cons (item second : List Char) (items : List (List Char)) :
    inner (item :: second :: items) = literal item ++ ([','] ++ inner (second :: items)) := by
  rw [inner, List.map_cons, List.map_cons, List.intercalate_cons_cons, inner, List.map_cons]
  simp

theorem exists_inner_eq_cons (item : List Char) (items : List (List Char)) :
    ∃ rest, inner (item :: items) = '"' :: rest := by
  cases items with
  | nil => exact ⟨_, inner_single item⟩
  | cons second items => exact ⟨_, inner_cons item second items⟩

/-- Between two quotes of a list there are its strings, what follows a quote in one of them, and
the commas. -/
theorem between_array (hm : Plain m) (items : List (List Char)) : Between m (array items) ↔
    (∃ item ∈ items, EndsWith m item) ∨ (m = [','] ∧ 2 ≤ items.length) := by
  have hinner : Between m (array items) ↔ Between m (inner items) :=
    between_append (a := ['[']) (by decide)
  rw [hinner]
  clear hinner
  induction items with
  | nil =>
      have hnil : inner [] = [']'] := rfl
      rw [hnil]
      simpa using not_between_close.1
  | cons item items ih =>
      cases items with
      | nil =>
          rw [inner_single, between_escaped_cons hm, or_iff_left not_between_close.2]
          simp
      | cons second items =>
          obtain ⟨rest, hrest⟩ := exists_inner_eq_cons second items
          have htext : inner (item :: second :: items) =
              '"' :: (escaped item ++ '"' :: ([','] ++ '"' :: rest)) := by
            rw [inner_cons, hrest, literal]
            simp
          have htwo : 2 ≤ (item :: second :: items).length := by simp
          rw [htext, between_escaped_cons hm, between_comma hm, ← hrest, List.exists_mem_cons_iff,
            and_iff_left htwo]
          refine (or_congr Iff.rfl (or_congr Iff.rfl ih)).trans ?_
          constructor
          · rintro (h | h | h | h)
            · exact .inl (.inl h)
            · exact .inr h
            · exact .inl (.inr h)
            · exact .inr h.1
          · rintro ((h | h) | h)
            · exact .inl h
            · exact .inr (.inr (.inl h))
            · exact .inr (.inl h)

/-! ## Between neighbouring quotes -/

/-- What stands between neighbouring quotes of the text of a string; a quote in the string has a
backslash before it. -/
def stringParts : List Char → List (List Char)
  | [] => [[]]
  | c :: item =>
      if c = '"' then ['\\'] :: stringParts item
      else (escapeChar c ++ (stringParts item).headD []) :: (stringParts item).tail

def arrayParts (items : List (List Char)) : List (List Char) :=
  [[',']].intercalate (items.map stringParts)

theorem stringParts_ne_nil (item : List Char) : stringParts item ≠ [] := by
  cases item with
  | nil => exact List.cons_ne_nil _ _
  | cons c item =>
      rw [stringParts]
      split_ifs <;> exact List.cons_ne_nil _ _

theorem exists_stringParts (item : List Char) : ∃ p ps, stringParts item = p :: ps :=
  List.exists_cons_of_ne_nil (stringParts_ne_nil item)

theorem quote_notMem_stringParts {item p : List Char} (h : p ∈ stringParts item) : '"' ∉ p := by
  induction item generalizing p with
  | nil =>
      rw [List.mem_singleton.mp h]
      exact List.not_mem_nil
  | cons c item ih =>
      obtain ⟨q, qs, hparts⟩ := exists_stringParts item
      rw [stringParts, hparts] at h
      rw [hparts] at ih
      split_ifs at h with hc
      · rcases List.mem_cons.mp h with rfl | h
        · decide
        · exact ih h
      · rcases List.mem_cons.mp h with rfl | h
        · rw [List.mem_append, not_or]
          refine ⟨?_, ih List.mem_cons_self⟩
          rcases escapeChar_cases c with hquote | hother | hsame
          · exact absurd hquote hc
          · exact hother.2.1
          · rw [hsame.1, List.mem_singleton]
            exact hc ∘ Eq.symm
        · exact ih (List.mem_cons_of_mem q h)

theorem intercalate_stringParts (item : List Char) :
    ['"'].intercalate (stringParts item) = escaped item := by
  induction item with
  | nil => rfl
  | cons c item ih =>
      obtain ⟨q, qs, hparts⟩ := exists_stringParts item
      have hcons : escaped (c :: item) = escapeChar c ++ escaped item := rfl
      rw [stringParts, hcons, ← ih, hparts]
      split_ifs with hc
      · subst hc
        rfl
      · cases qs with
        | nil => simp
        | cons r qs => simp [List.intercalate_cons_cons]

theorem intercalate_append_parts {ps qs : List (List Char)} (hps : ps ≠ []) (hqs : qs ≠ []) :
    ['"'].intercalate (ps ++ qs) = ['"'].intercalate ps ++ '"' :: ['"'].intercalate qs := by
  induction ps with
  | nil => exact absurd rfl hps
  | cons p ps ih =>
      cases ps with
      | nil =>
          rw [List.singleton_append, List.intercalate_cons_of_ne_nil hqs, List.intercalate_singleton,
            List.append_assoc]
          rfl
      | cons r ps =>
          rw [List.cons_append, List.cons_append, List.intercalate_cons_cons,
            List.intercalate_cons_cons, ← List.cons_append, ih (List.cons_ne_nil r ps)]
          simp

theorem arrayParts_cons (item second : List Char) (items : List (List Char)) :
    arrayParts (item :: second :: items) =
      stringParts item ++ ([','] :: arrayParts (second :: items)) := by
  rw [arrayParts, List.map_cons, List.map_cons, List.intercalate_cons_cons, arrayParts,
    List.map_cons]
  simp

theorem arrayParts_ne_nil (item : List Char) (items : List (List Char)) :
    arrayParts (item :: items) ≠ [] := by
  cases items with
  | nil => simpa [arrayParts] using stringParts_ne_nil item
  | cons second items =>
      rw [arrayParts_cons]
      exact List.append_ne_nil_of_left_ne_nil (stringParts_ne_nil item) _

theorem quote_notMem_arrayParts {items : List (List Char)} {p : List Char}
    (h : p ∈ arrayParts items) : '"' ∉ p := by
  induction items with
  | nil => cases h
  | cons item items ih =>
      cases items with
      | nil => exact quote_notMem_stringParts (by simpa [arrayParts] using h)
      | cons second items =>
          rw [arrayParts_cons, List.mem_append, List.mem_cons] at h
          rcases h with h | rfl | h
          · exact quote_notMem_stringParts h
          · decide
          · exact ih h

/-- The text of a list is its parts with quotes between and around them. -/
theorem inner_eq_parts (item : List Char) (items : List (List Char)) :
    inner (item :: items) =
      '"' :: (['"'].intercalate (arrayParts (item :: items)) ++ '"' :: [']']) := by
  induction items generalizing item with
  | nil =>
      rw [inner_single, ← intercalate_stringParts]
      simp [arrayParts]
  | cons second items ih =>
      have hrest := arrayParts_ne_nil second items
      rw [inner_cons, ih, literal, arrayParts_cons,
        intercalate_append_parts (stringParts_ne_nil item) (List.cons_ne_nil _ _),
        intercalate_stringParts, List.intercalate_cons_of_ne_nil hrest]
      simp

theorem starts_part {p x : List Char} (hp : '"' ∉ p) :
    Starts m (p ++ '"' :: x) ↔ m = p ∨ ∃ m', m = p ++ '"' :: m' ∧ Starts m' x := by
  constructor
  · rintro ⟨rest, h⟩
    rcases List.append_eq_append_iff.mp h with ⟨mid, rfl, hmid⟩ | ⟨mid, rfl, hmid⟩
    · cases mid with
      | nil => exact .inl (List.append_nil p)
      | cons c mid =>
          obtain ⟨rfl, rfl⟩ := List.cons.inj hmid
          exact .inr ⟨mid, rfl, rest, rfl⟩
    · cases mid with
      | nil => exact .inl (List.append_nil m).symm
      | cons c mid =>
          obtain ⟨rfl, -⟩ := List.cons.inj hmid
          exact absurd (List.mem_append_right m List.mem_cons_self) hp
  · rintro (rfl | ⟨m', rfl, rest, rfl⟩)
    · exact ⟨x, rfl⟩
    · exact ⟨rest, by simp⟩

theorem starts_parts {ps : List (List Char)} (hps : ps ≠ []) (hfree : ∀ p ∈ ps, '"' ∉ p) :
    Starts m (['"'].intercalate ps ++ '"' :: [']']) ↔
      ∃ run, run ≠ [] ∧ run <+: ps ∧ m = ['"'].intercalate run := by
  have hclose : ∀ m', ¬ Starts m' [']'] := by
    rintro m' ⟨rest, h⟩
    have hin : '"' ∈ [']'] := h ▸ List.mem_append_right m' List.mem_cons_self
    exact absurd hin (by decide)
  induction ps generalizing m with
  | nil => exact absurd rfl hps
  | cons p ps ih =>
      have hp := hfree p List.mem_cons_self
      have hsplit : (∃ run, run ≠ [] ∧ run <+: p :: ps ∧ m = ['"'].intercalate run) ↔
          m = p ∨ ∃ run, run ≠ [] ∧ run <+: ps ∧ m = p ++ '"' :: ['"'].intercalate run := by
        constructor
        · rintro ⟨run, hne, hprefix, rfl⟩
          obtain ⟨run, rfl, hrun⟩ := (List.prefix_cons_iff.mp hprefix).resolve_left hne
          cases run with
          | nil => exact .inl List.intercalate_singleton
          | cons r run =>
              refine .inr ⟨r :: run, List.cons_ne_nil r run, hrun, ?_⟩
              rw [List.intercalate_cons_cons, List.append_assoc]
              rfl
        · rintro (rfl | ⟨run, hne, hrun, rfl⟩)
          · exact ⟨[m], List.cons_ne_nil m [], by simp, List.intercalate_singleton.symm⟩
          · refine ⟨p :: run, List.cons_ne_nil p run, List.prefix_cons_inj p |>.mpr hrun, ?_⟩
            rw [List.intercalate_cons_of_ne_nil hne, List.append_assoc]
            rfl
      rw [hsplit]
      cases ps with
      | nil =>
          rw [List.intercalate_singleton, starts_part hp]
          simp [hclose]
      | cons r ps =>
          have htext : ['"'].intercalate (p :: r :: ps) ++ '"' :: [']'] =
              p ++ '"' :: (['"'].intercalate (r :: ps) ++ '"' :: [']']) := by
            rw [List.intercalate_cons_cons]
            simp
          have hrest := fun {m'} => ih (m := m') (List.cons_ne_nil r ps)
            fun q hq => hfree q (List.mem_cons_of_mem p hq)
          rw [htext, starts_part hp]
          refine or_congr Iff.rfl ?_
          constructor
          · rintro ⟨m', rfl, hm⟩
            obtain ⟨run, hne, hrun, rfl⟩ := hrest.mp hm
            exact ⟨run, hne, hrun, rfl⟩
          · rintro ⟨run, hne, hrun, rfl⟩
            exact ⟨_, rfl, hrest.mpr ⟨run, hne, hrun, rfl⟩⟩

theorem between_parts {ps : List (List Char)} (hfree : ∀ p ∈ ps, '"' ∉ p) (hps : ps ≠ []) :
    Between m ('"' :: (['"'].intercalate ps ++ '"' :: [']'])) ↔
      ∃ run, run ≠ [] ∧ run <:+: ps ∧ m = ['"'].intercalate run := by
  induction ps with
  | nil => exact absurd rfl hps
  | cons p ps ih =>
      have hrest : Between m (['"'].intercalate (p :: ps) ++ '"' :: [']']) ↔
          ∃ run, run ≠ [] ∧ run <:+: ps ∧ m = ['"'].intercalate run := by
        have hp := hfree p List.mem_cons_self
        cases ps with
        | nil =>
            rw [List.intercalate_singleton, between_append hp, iff_false_left not_between_close.2]
            rintro ⟨run, hne, hrun, _⟩
            exact hne (List.infix_nil.mp hrun)
        | cons r ps =>
            have htext : ['"'].intercalate (p :: r :: ps) ++ '"' :: [']'] =
                p ++ '"' :: (['"'].intercalate (r :: ps) ++ '"' :: [']']) := by
              rw [List.intercalate_cons_cons]
              simp
            rw [htext, between_append hp]
            exact ih (fun q hq => hfree q (List.mem_cons_of_mem p hq)) (List.cons_ne_nil r ps)
      rw [between_cons_quote, starts_parts hps hfree, hrest]
      constructor
      · rintro (⟨run, hne, hrun, hm⟩ | ⟨run, hne, hrun, hm⟩)
        · exact ⟨run, hne, List.infix_cons_iff.mpr (.inl hrun), hm⟩
        · exact ⟨run, hne, List.infix_cons_iff.mpr (.inr hrun), hm⟩
      · rintro ⟨run, hne, hrun, hm⟩
        rcases List.infix_cons_iff.mp hrun with hrun | hrun
        · exact .inl ⟨run, hne, hrun, hm⟩
        · exact .inr ⟨run, hne, hrun, hm⟩

/-- What stands between two quotes of a list is a run of what stands between neighbouring ones. -/
theorem between_array_iff (items : List (List Char)) : Between m (array items) ↔
    ∃ run, run ≠ [] ∧ run <:+: arrayParts items ∧ m = ['"'].intercalate run := by
  have hinner : Between m (array items) ↔ Between m (inner items) :=
    between_append (a := ['[']) (by decide)
  rw [hinner]
  cases items with
  | nil =>
      rw [iff_false_left (show ¬ Between m (inner []) from not_between_close.1)]
      rintro ⟨run, hne, hrun, _⟩
      exact hne (List.infix_nil.mp hrun)
  | cons item items =>
      rw [inner_eq_parts]
      exact between_parts (fun p hp => quote_notMem_arrayParts hp) (arrayParts_ne_nil item items)

end Dbmaster.Lib.JsonText
