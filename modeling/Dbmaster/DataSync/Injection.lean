import Dbmaster.DataSync.Template
/-!
# What the source makes of the batch SELECT

The text of `build_select_sql` against its template, before the sentinels are
rewritten and after: which names of a validated configuration stay names.
-/

namespace Dbmaster.DataSync.Injection

open Dbmaster.Lib Dbmaster.Lib.Tokens
open Dbmaster.DataSync.Cursor Dbmaster.DataSync.Config Dbmaster.DataSync.Etl
open Dbmaster.DataSync.Tokenizer Dbmaster.DataSync.Template

/-- The source reads the template, with the sentinels and with the two placeholders. -/
structure InjectionFree (K : Keywords) (src : SourceKind) (cfg : DataSyncTaskConfig)
    (default : Option String) : Prop where
  built : Fits K (template src cfg default (.fixed (sentinel false)) (.fixed (sentinel true)))
    (tokens src (buildSelectSql cfg default (sourceDialect src)).toList)
  bound : Fits K
    (template src cfg default (.placeholder (mark src false)) (.placeholder (mark src true)))
    (tokens src (sourceSelect src (buildSelectSql cfg default (sourceDialect src))).toList)

/-! ## The condition -/

/-- The rewriting makes no placeholder of the word. -/
def SentinelFree : SourceKind → List Char → Prop
  | .mySql, word => ¬ "__P0__".toList <:+: word ∧ ¬ "__P1__".toList <:+: word
  | .postgres, word =>
      -- within a word `$1` is part of the name; what overlaps is only rewritten once
      ¬ "__P0__".toList <+: word ∧
        ("__P1__".toList <+: word →
          "__P1__P0__".toList <+: word ∨ "__P1___P0__".toList <+: word)

/-- A name without delimiters that stays one. -/
structure PlainName (K : Keywords) (src : SourceKind) (afterDot : Bool) (text : List Char) :
    Prop where
  oneWord : ∀ c ∈ core text, isBlank c = false
  notReserved : afterDot = false → K.reserved (core text) = false
  noSentinel : SentinelFree src (core text)

def PlainReference (K : Keywords) (src : SourceKind) (text : List Char) : Prop :=
  ∃ qualifier column, Text.splitOnce '.' text = some (qualifier, column) ∧
    PlainName K src false qualifier ∧ PlainName K src true column

structure Plain (K : Keywords) (src : SourceKind) (cfg : DataSyncTaskConfig)
    (default : Option String) : Prop where
  columns : ∀ c ∈ cfg.columnMapping.columns, PlainReference K src c.source.toList
  aliases : ∀ jt ∈ cfg.joinTables, PlainName K src false jt.effectiveAlias.toList
  on : ∀ jt ∈ cfg.joinTables, ∃ l r, Text.splitOnce '=' jt.onClause.toList = some (l, r) ∧
    PlainReference K src l ∧ PlainReference K src r
  timeField : PlainName K src true cfg.batching.timeField.toList
  /-- the default database, where a table has none of its own -/
  database : ∀ d, default = some d →
    cfg.source.database = none ∨ (∃ jt ∈ cfg.joinTables, jt.database = none) →
      '\x00' ∉ d.toList

/-! ## Names under the rewriting -/

/-- The character that every placeholder of the driver has. -/
def markChar : SourceKind → Char
  | .mySql => '?'
  | .postgres => '$'

section Names

variable {src : SourceKind} {K : Keywords} {text : List Char}

theorem mark_mem (h : "__P0__".toList <:+: text ∨ "__P1__".toList <:+: text) :
    markChar src ∈ rewritten src text := by
  unfold rewritten Text.replace
  have hmark : ∀ high, markChar src ∈ (mark src high).toList := by cases src <;> decide
  have hchar : markChar src ∉ "__P1__".toList := by cases src <;> decide
  by_cases hlow : "__P0__".toList <:+: text
  · have hin := Replace.mem_replaceFrom_of_infix (by decide) (hmark false) hlow
    exact Replace.mem_replaceFrom_of_mem (by decide) hchar hin
  · rw [Replace.replaceFrom_of_notInfix hlow]
    exact Replace.mem_replaceFrom_of_infix (by decide) (hmark true) (h.resolve_left hlow)

theorem rewritten_eq_self (hlow : ¬ "__P0__".toList <:+: text) (hhigh : ¬ "__P1__".toList <:+: text) :
    rewritten src text = text := by
  unfold rewritten Text.replace
  rw [Replace.replaceFrom_of_notInfix hlow, Replace.replaceFrom_of_notInfix hhigh]

theorem rewritten_cases (src : SourceKind) (text : List Char) :
    rewritten src text = text ∨ markChar src ∈ rewritten src text := by
  by_cases h : "__P0__".toList <:+: text ∨ "__P1__".toList <:+: text
  · exact .inr (mark_mem h)
  · rw [not_or] at h
    exact .inl (rewritten_eq_self h.1 h.2)

theorem mem_of_mem_rewritten {c : Char} (h : c ∈ rewritten src text) :
    c ∈ text ∨ c ∈ (mark src false).toList ∨ c ∈ (mark src true).toList := by
  unfold rewritten Text.replace at h
  rcases Replace.mem_of_mem_replaceFrom h with hold | hhigh
  · exact (Replace.mem_of_mem_replaceFrom hold).imp_right .inl
  · exact .inr (.inr hhigh)

theorem notMem_sentinel {c : Char} (hc : c ∉ sentinelChars) (high : Bool) :
    c ∉ (sentinel high).toList := fun hin => by
  have hall : ∀ d ∈ (sentinel high).toList, d ∈ sentinelChars := by cases high <;> decide
  exact hc (hall c hin)

theorem mem_rewritten_of_mem {c : Char} (hc : c ∉ sentinelChars) (h : c ∈ text) :
    c ∈ rewritten src text :=
  Replace.mem_replaceFrom_of_mem (by decide) (notMem_sentinel hc true)
    (Replace.mem_replaceFrom_of_mem (by decide) (notMem_sentinel hc false) h)

/-- No sentinel reaches over a character of another kind. -/
theorem rewritten_append_cons {c : Char} (hc : c ∉ sentinelChars) (a b : List Char) :
    rewritten src (a ++ c :: b) = rewritten src a ++ c :: rewritten src b := by
  have hlow : c ∉ "__P0__".toList := notMem_sentinel hc false
  have hhigh : c ∉ "__P1__".toList := notMem_sentinel hc true
  unfold rewritten Text.replace
  rw [Replace.replaceFrom_append_cons hlow (Nat.zero_le _),
    Replace.replaceFrom_cons_of_notMem (by decide) hlow,
    Replace.replaceFrom_append_cons hhigh (Nat.zero_le _),
    Replace.replaceFrom_cons_of_notMem (by decide) hhigh]

theorem rewritten_nil : rewritten src [] = [] := rfl

theorem rewritten_append_of_forall {f : List Char} (hf : ∀ c ∈ f, c ∉ sentinelChars)
    (b : List Char) : rewritten src (f ++ b) = f ++ rewritten src b := by
  induction f with
  | nil => rfl
  | cons c f ih =>
      have hc : rewritten src ([] ++ c :: (f ++ b)) = [] ++ c :: rewritten src (f ++ b) :=
        rewritten_append_cons (hf c List.mem_cons_self) [] (f ++ b)
      rw [List.nil_append, List.nil_append] at hc
      rw [List.cons_append, hc, ih fun d hd => hf d (List.mem_cons_of_mem c hd), List.cons_append]

/-- The texts between the names stay as they are. -/
theorem rewritten_append_fixed {f : List Char} (hf : ∀ c ∈ f, c ∉ sentinelChars) (hne : f ≠ [])
    (a b : List Char) : rewritten src (a ++ (f ++ b)) = rewritten src a ++ (f ++ rewritten src b) := by
  obtain ⟨c, f, rfl⟩ := List.exists_cons_of_ne_nil hne
  rw [List.cons_append, rewritten_append_cons (hf c List.mem_cons_self),
    rewritten_append_of_forall fun d hd => hf d (List.mem_cons_of_mem c hd), List.cons_append]

theorem rewritten_ne_nil (h : text ≠ []) : rewritten src text ≠ [] := by
  rcases rewritten_cases src text with hsame | hmark
  · rw [hsame]
    exact h
  · exact List.ne_nil_of_mem hmark

theorem nul_mem_rewritten : '\x00' ∈ rewritten src text ↔ '\x00' ∈ text := by
  refine ⟨fun h => ?_, mem_rewritten_of_mem (by decide)⟩
  rcases mem_of_mem_rewritten h with hold | hlow | hhigh
  · exact hold
  · exact absurd hlow (by cases src <;> decide)
  · exact absurd hhigh (by cases src <;> decide)

theorem isPlain_mark : ∀ high, ∀ c ∈ (mark src high).toList, IsPlain src c := by
  unfold IsPlain
  cases src <;> decide

theorem isPlain_rewritten (h : ∀ c ∈ text, IsPlain src c) : ∀ c ∈ rewritten src text, IsPlain src c := by
  intro c hc
  rcases mem_of_mem_rewritten hc with hold | hlow | hhigh
  · exact h c hold
  · exact isPlain_mark false c hlow
  · exact isPlain_mark true c hhigh

theorem exists_mem_rewritten (h : ∃ c ∈ text, isBlank c = false) :
    ∃ c ∈ rewritten src text, isBlank c = false := by
  rcases rewritten_cases src text with hsame | hmark
  · rw [hsame]
    exact h
  · refine ⟨markChar src, hmark, ?_⟩
    cases src <;> decide

theorem notMem_sentinelChars_of_isBlank {c : Char} (h : isBlank c = true) : c ∉ sentinelChars :=
  fun hin => by
    rw [(by decide : ∀ d ∈ sentinelChars, isBlank d = false) c hin] at h
    cases h

/-- The blanks around a text stay where they are. -/
theorem rewritten_append_blanks {a b : List Char} (ha : ∀ c ∈ a, isBlank c = true)
    (hb : ∀ c ∈ b, isBlank c = true) :
    rewritten src (a ++ (text ++ b)) = a ++ (rewritten src text ++ b) := by
  rw [rewritten_append_of_forall fun c hc => notMem_sentinelChars_of_isBlank (ha c hc)]
  cases b with
  | nil => rw [List.append_nil, List.append_nil]
  | cons c b =>
      have hfixed : rewritten src (text ++ (c :: b ++ [])) =
          rewritten src text ++ (c :: b ++ rewritten src []) :=
        rewritten_append_fixed (fun d hd => notMem_sentinelChars_of_isBlank (hb d hd))
          (List.cons_ne_nil c b) text []
      rw [rewritten_nil, List.append_nil] at hfixed
      rw [hfixed]

theorem tokens_rewritten_core (h : ∀ c ∈ text, IsPlain src c) :
    tokens src (rewritten src text) = tokens src (rewritten src (core text)) := by
  obtain ⟨a, b, ha, hb, htext⟩ := exists_core text
  conv_lhs => rw [htext]
  rw [rewritten_append_blanks ha hb, tokens_blank_append ha, tokens_append_blanks hb]
  exact isPlain_rewritten fun c hc => h c (mem_of_mem_core hc)

/-! ### PostgreSQL -/

/-- The second sentinel stays at the start when the first one does not overlap it. -/
theorem high_isPrefix_iff :
    "__P1__".toList <+: Text.replace "__P0__" "$1" text ↔
      "__P1__".toList <+: text ∧
        ¬ ("__P1__P0__".toList <+: text ∨ "__P1___P0__".toList <+: text) := by
  have hlow : "__P0__".toList = ['_', '_', 'P', '0', '_', '_'] := by decide
  have hhigh : "__P1__".toList = ['_', '_', 'P', '1', '_', '_'] := by decide
  have htouch : "__P1__P0__".toList =
      ['_', '_', 'P', '1', '_', '_', 'P', '0', '_', '_'] := by decide
  have hnear : "__P1___P0__".toList =
      ['_', '_', 'P', '1', '_', '_', '_', 'P', '0', '_', '_'] := by decide
  have hstep : ∀ (d : Char) (word t : List Char), d ≠ '$' →
      (d :: word <+: Text.replace "__P0__" "$1" t ↔ ∃ rest, t = d :: rest ∧
        ¬ "__P0__".toList <+: t ∧ word <+: Text.replace "__P0__" "$1" rest) := fun d word t hd =>
    Replace.cons_isPrefix_replaceFrom ⟨'$', ['1'], by decide, hd.symm⟩
  rw [hhigh, htouch, hnear]
  constructor
  · intro h
    obtain ⟨t, rfl, -, h⟩ := (hstep _ _ _ (by decide)).mp h
    obtain ⟨t, rfl, -, h⟩ := (hstep _ _ _ (by decide)).mp h
    obtain ⟨t, rfl, -, h⟩ := (hstep _ _ _ (by decide)).mp h
    obtain ⟨t, rfl, -, h⟩ := (hstep _ _ _ (by decide)).mp h
    obtain ⟨t, rfl, htwo, h⟩ := (hstep _ _ _ (by decide)).mp h
    obtain ⟨t, rfl, hone, -⟩ := (hstep _ _ _ (by decide)).mp h
    rw [hlow] at htwo hone
    simp only [List.cons_prefix_cons, true_and] at htwo hone ⊢
    exact ⟨List.nil_prefix, fun hor => hor.elim htwo hone⟩
  · rintro ⟨⟨t, rfl⟩, hno⟩
    simp only [List.cons_append, List.nil_append, List.cons_prefix_cons, true_and, not_or] at hno
    -- of the first sentinel only the last two places are left to begin at
    refine (hstep _ _ _ (by decide)).mpr ⟨_, rfl, by simp [hlow], ?_⟩
    refine (hstep _ _ _ (by decide)).mpr ⟨_, rfl, by simp [hlow], ?_⟩
    refine (hstep _ _ _ (by decide)).mpr ⟨_, rfl, by simp [hlow], ?_⟩
    refine (hstep _ _ _ (by decide)).mpr ⟨_, rfl, by simp [hlow], ?_⟩
    refine (hstep _ _ _ (by decide)).mpr ⟨_, rfl, by simpa [hlow] using hno.1, ?_⟩
    exact (hstep _ _ _ (by decide)).mpr ⟨_, rfl, by simpa [hlow] using hno.2, List.nil_prefix⟩

theorem isWord_rewritten (h : ∀ c ∈ text, isWord c = true) :
    ∀ c ∈ rewritten .postgres text, isWord c = true := by
  have hmark : ∀ high, ∀ c ∈ (mark .postgres high).toList, isWord c = true := by decide
  intro c hc
  rcases mem_of_mem_rewritten hc with hold | hlow | hhigh
  · exact h c hold
  · exact hmark false c hlow
  · exact hmark true c hhigh

theorem rewritten_dollar_iff (hne : text ≠ []) (hdollar : '$' ∉ text) :
    (∃ v, rewritten .postgres text = '$' :: v) ↔ ¬ SentinelFree .postgres text := by
  have hhead : ∀ t : List Char, Text.replace "__P1__" "$2" ('$' :: t) =
      '$' :: Text.replace "__P1__" "$2" t := fun t =>
    Replace.replaceFrom_cons_of_notMem (by decide) (by decide) t
  by_cases hlow : "__P0__".toList <+: text
  · obtain ⟨c, t, rfl⟩ := List.exists_cons_of_ne_nil hne
    have hfirst : ∃ v, Text.replace "__P0__" "$1" (c :: t) = '$' :: v := by
      unfold Text.replace
      rw [Text.replaceFrom, if_pos (List.isPrefixOf_iff_prefix.mpr hlow)]
      exact ⟨_, rfl⟩
    obtain ⟨v, hv⟩ := hfirst
    refine iff_of_true ⟨Text.replace "__P1__" "$2" v, ?_⟩ fun hfree => hfree.1 hlow
    show Text.replace "__P1__" "$2" (Text.replace "__P0__" "$1" (c :: t)) = _
    rw [hv, hhead]
  · have hfree : ¬ SentinelFree .postgres text ↔
        "__P1__".toList <+: Text.replace "__P0__" "$1" text := by
      rw [high_isPrefix_iff, SentinelFree, and_iff_right hlow, Classical.not_imp]
    rw [hfree]
    obtain ⟨c, t, rfl⟩ := List.exists_cons_of_ne_nil hne
    have hkept : Text.replace "__P0__" "$1" (c :: t) = c :: Text.replace "__P0__" "$1" t := by
      unfold Text.replace
      rw [Text.replaceFrom, if_neg fun h => hlow (List.isPrefixOf_iff_prefix.mp h)]
    show (∃ v, Text.replace "__P1__" "$2" (Text.replace "__P0__" "$1" (c :: t)) = _) ↔ _
    rw [hkept]
    by_cases hhigh : "__P1__".toList <+: c :: Text.replace "__P0__" "$1" t
    · refine iff_of_true ?_ hhigh
      unfold Text.replace at hhigh ⊢
      rw [Text.replaceFrom, if_pos (List.isPrefixOf_iff_prefix.mpr hhigh)]
      exact ⟨_, rfl⟩
    · refine iff_of_false ?_ hhigh
      unfold Text.replace at hhigh ⊢
      rw [Text.replaceFrom, if_neg fun h => hhigh (List.isPrefixOf_iff_prefix.mp h)]
      rintro ⟨v, hv⟩
      obtain ⟨rfl, -⟩ := List.cons.inj hv
      exact hdollar List.mem_cons_self

/-! ### One name -/

theorem fits_singleton {slot : Slot} {t : Token} : Fits K [slot] [t] ↔ Slot.admits K slot t := by
  unfold Fits
  rw [List.forall₂_cons, and_iff_left List.Forall₂.nil]

theorem isName_of_admits {afterDot : Bool} {t : Token}
    (h : Slot.admits K (.identifier afterDot) t) : t.isName = true := by
  cases t <;> first | rfl | cases h

theorem isName_of_fits {afterDot : Bool} {found : List Token}
    (h : Fits K [.identifier afterDot] found) : ∀ t ∈ found, t.isName = true := by
  obtain ⟨t, rest, ht, hrest, rfl⟩ := List.forall₂_cons_left_iff.mp h
  rw [List.forall₂_nil_left_iff.mp hrest]
  intro u hu
  rw [List.mem_singleton.mp hu]
  exact isName_of_admits ht

theorem fits_word {afterDot : Bool} {word : List Char} (hword : ∀ c ∈ word, isWord c = true)
    (hletter : ∃ c ∈ word, c.isDigit = false)
    (hmark : ¬ (src = .postgres ∧ word.head? = some '$')) :
    Fits K [.identifier afterDot] (tokens src word) ↔ (afterDot = false → K.reserved word = false) := by
  rw [tokens_word_of_letter hword hletter hmark, fits_singleton]
  exact Iff.rfl

/-- A rewritten word is a name just when it is free of sentinels. -/
theorem fits_rewritten_word {afterDot : Bool} {word : List Char}
    (hword : ∀ c ∈ word, isWord c = true) (hdollar : '$' ∉ word)
    (hletter : ∃ c ∈ word, c.isDigit = false) (hfree : afterDot = false → K.reserved word = false) :
    Fits K [.identifier afterDot] (tokens src (rewritten src word)) ↔ SentinelFree src word := by
  have hplain : ∀ c ∈ rewritten src word, IsPlain src c :=
    isPlain_rewritten fun c hc => .inr (.inl (hword c hc))
  cases src with
  | mySql =>
      constructor
      · intro hfits
        by_contra hno
        have hmark : '?' ∈ rewritten .mySql word := by
          apply mark_mem
          by_contra hnone
          exact hno (not_or.mp hnone)
        cases isName_of_fits hfits _ (placeholder_mem_tokens hplain hmark)
      · intro h
        rw [rewritten_eq_self h.1 h.2, fits_word hword hletter (by simp)]
        exact hfree
  | postgres =>
      have hne : word ≠ [] := by
        obtain ⟨c, hc, -⟩ := hletter
        exact List.ne_nil_of_mem hc
      constructor
      · intro hfits
        by_contra hno
        obtain ⟨v, hv⟩ := (rewritten_dollar_iff hne hdollar).mpr hno
        obtain ⟨t, rest, htokens, hname⟩ := tokens_dollar v
        rw [hv, htokens] at hfits
        rw [isName_of_fits hfits t List.mem_cons_self] at hname
        cases hname
      · intro h
        have hhead : ¬ (SourceKind.postgres = .postgres ∧
            (rewritten .postgres word).head? = some '$') := by
          rintro ⟨-, hhead⟩
          obtain ⟨v, hv⟩ := List.head?_eq_some_iff.mp hhead
          exact (rewritten_dollar_iff hne hdollar).mp ⟨v, hv⟩ h
        have hwords : ∀ c ∈ rewritten .postgres word, isWord c = true := isWord_rewritten hword
        rcases rewritten_cases .postgres word with hsame | hmark
        · rw [hsame] at hhead ⊢
          exact (fits_word hword hletter hhead).mpr hfree
        · -- with a dollar in it the word is none of the keywords
          refine (fits_word hwords ⟨'$', hmark, by decide⟩ hhead).mpr fun _ => ?_
          rw [Bool.eq_false_iff]
          exact fun hres => K.noDollar _ hres hmark

theorem isWord_of_isSafeIdentifier (h : isSafeIdentifier text = true) :
    ∀ c ∈ text, isWord c = true := by
  intro c hc
  rcases isSafeIdentifier_mem h hc with halnum | rfl
  · simp [isWord, halnum]
  · decide

theorem padded_mem (h : Padded text) {c : Char} (hc : c ∈ text) :
    (isBlank c = true ∨ isWord c = true) ∧ c ≠ '$' := by
  obtain ⟨p, w, q, rfl, hw, hp, hq⟩ := h
  have hspace : Text.isWhitespace c = true → (isBlank c = true ∨ isWord c = true) ∧ c ≠ '$' := by
    intro hc
    refine ⟨?_, fun hd => absurd (hd ▸ hc) (by decide)⟩
    rw [isBlank_iff, isWord_iff]
    simp only [Text.isWhitespace, Bool.or_eq_true, Bool.and_eq_true, decide_eq_true_eq,
      beq_iff_eq] at hc
    omega
  rw [List.mem_append, List.mem_append] at hc
  rcases hc with hc | hc | hc
  · exact hspace (hp c hc)
  · refine ⟨.inr (isWord_of_isSafeIdentifier hw c hc), ?_⟩
    rintro rfl
    exact notMem_of_isSafeIdentifier hw (by decide) hc
  · exact hspace (hq c hc)

theorem padded_plain (h : Padded text) : ∀ c ∈ text, IsPlain src c :=
  fun _ hc => (padded_mem h hc).1.imp_right .inl

theorem padded_letter (h : Padded text) :
    ∃ c ∈ text, isBlank c = false ∧ c.isDigit = false := by
  obtain ⟨p, w, q, rfl, hw, -, -⟩ := h
  obtain ⟨c, rest, rfl, hc⟩ := isSafeIdentifier_head hw
  refine ⟨c, by simp, ?_⟩
  rw [Bool.eq_false_iff, Bool.eq_false_iff, Ne, Ne, isBlank_iff, isDigit_iff]
  rcases hc with hc | rfl
  · rw [isAlpha_iff] at hc
    omega
  · decide

/-- What the source reads, before the rewriting and after, is a name just when it is plain. -/
theorem fits_name_iff {afterDot : Bool} (h : Padded text) :
    (Fits K [.identifier afterDot] (tokens src text) ∧
        Fits K [.identifier afterDot] (tokens src (rewritten src text))) ↔
      PlainName K src afterDot text := by
  have hplain : ∀ c ∈ text, IsPlain src c := padded_plain h
  by_cases hone : ∀ c ∈ core text, isBlank c = false
  · have hword : ∀ c ∈ core text, isWord c = true := by
      intro c hc
      apply (padded_mem h (mem_of_mem_core hc)).1.resolve_left
      rw [hone c hc]
      exact Bool.false_ne_true
    have hdollar : '$' ∉ core text := fun hc => (padded_mem h (mem_of_mem_core hc)).2 rfl
    have hletter : ∃ c ∈ core text, c.isDigit = false := by
      obtain ⟨c, hc, hblank, hdigit⟩ := padded_letter h
      exact ⟨c, mem_core hc hblank, hdigit⟩
    have hhead : ¬ (src = .postgres ∧ (core text).head? = some '$') := fun hc =>
      hdollar (List.mem_of_mem_head? hc.2)
    rw [tokens_core hplain, tokens_rewritten_core hplain, fits_word hword hletter hhead]
    constructor
    · rintro ⟨hfree, hfits⟩
      exact ⟨hone, hfree, (fits_rewritten_word hword hdollar hletter hfree).mp hfits⟩
    · intro hname
      exact ⟨hname.notReserved,
        (fits_rewritten_word hword hdollar hletter hname.notReserved).mpr hname.noSentinel⟩
  · refine iff_of_false ?_ fun hname => hone hname.oneWord
    rintro ⟨hfits, -⟩
    rw [not_forall] at hone
    obtain ⟨c, hone⟩ := hone
    rw [Classical.not_imp, Bool.not_eq_false] at hone
    have htwo := two_le_length_tokens hplain hone.1 hone.2
    have hlength : 1 = (tokens src text).length := hfits.length_eq
    omega

end Names

/-! ## The parts of the layout -/

def ValidPart : Part → Prop
  | .quoted _ _ | .window _ => True
  | .name raw _ => Padded raw
  | .fixed raw => raw.toList ≠ [] ∧
      ∀ c ∈ raw.toList, isWord c = true ∧ c ∉ ['_', '$']

/-- The source takes the part for what it is meant to be. -/
def OkPart (K : Keywords) (src : SourceKind) : Part → Prop
  | .quoted raw _ => raw.toList ≠ [] ∧ '\x00' ∉ raw.toList
  | .name raw afterDot => PlainName K src afterDot raw
  | .fixed _ | .window _ => True

section Parts

variable {src : SourceKind} {K : Keywords} {part : Part} {text : List Char}

theorem sits_plain (h : ∀ c ∈ text, IsPlain src c) (hne : text ≠ []) : Sits src text where
  ne_nil := hne
  opens c hc := .inl (h c (List.mem_of_mem_head? hc))
  settles c hc := by
    have hword : isWord c = false := by
      revert c
      decide
    exact extend_of_light hword (light_pending h trivial)

theorem sits_quoted (name : List Char) : Sits src (Quoted.quoted (nameDelimiter src) name) where
  ne_nil := by simp [Quoted.quoted]
  opens c hc := by
    cases hc
    exact .inr rfl
  settles c hc := by
    have hne : c ≠ nameDelimiter src := by
      revert c
      cases src <;> decide
    rw [pending_quoted, extend, if_neg hne]

theorem rewritten_quoted (name : List Char) :
    rewritten src (Quoted.quoted (nameDelimiter src) name) =
      Quoted.quoted (nameDelimiter src) (rewritten src name) := by
  have hlow : nameDelimiter src ∉ "__P0__".toList := by cases src <;> decide
  have hhigh : nameDelimiter src ∉ "__P1__".toList := by cases src <;> decide
  have hmark : ∀ high, nameDelimiter src ∉ (mark src high).toList := by cases src <;> decide
  unfold rewritten Text.replace
  rw [Replace.replaceFrom_quoted (by decide) hlow (hmark false),
    Replace.replaceFrom_quoted (by decide) hhigh (hmark true)]

theorem rewritten_fixed (h : '_' ∉ text) : rewritten src text = text :=
  rewritten_eq_self (Replace.notInfix_of_notMem (by decide) h)
    (Replace.notInfix_of_notMem (by decide) h)

theorem rewritten_sentinel (high : Bool) :
    rewritten src (sentinel high).toList = (mark src high).toList := by
  cases src <;> cases high <;> decide

/-- Only a quoted name has other characters than the names without delimiters. -/
theorem plain_or_quoted (h : ValidPart part) :
    (∃ raw afterDot, part = .quoted raw afterDot) ∨
      ((∀ c ∈ part.text src, IsPlain src c) ∧ ∃ c ∈ part.text src, isBlank c = false) := by
  cases part with
  | quoted raw afterDot => exact .inl ⟨raw, afterDot, rfl⟩
  | name raw afterDot =>
      obtain ⟨c, hc, hblank, -⟩ := padded_letter h
      exact .inr ⟨padded_plain h, c, hc, hblank⟩
  | fixed raw =>
      obtain ⟨c, rest, hraw⟩ := List.exists_cons_of_ne_nil h.1
      have hc : c ∈ raw.toList := by rw [hraw]; exact List.mem_cons_self
      refine .inr ⟨fun d hd => .inr (.inl (h.2 d hd).1), c, hc, ?_⟩
      rw [Bool.eq_false_iff]
      intro hblank
      have hword := (h.2 c hc).1
      rw [isWord_eq_false_of_isBlank hblank] at hword
      cases hword
  | window high =>
      refine .inr ⟨?_, ?_⟩
      · unfold IsPlain
        cases high <;> cases src <;> decide
      · show ∃ c ∈ (sentinel high).toList, isBlank c = false
        cases high <;> decide

/-- Each part is read on its own and as a token at least, before the rewriting and after. -/
theorem part_sits (h : ValidPart part) :
    (Sits src (part.text src) ∧ tokens src (part.text src) ≠ []) ∧
      Sits src (rewritten src (part.text src)) ∧ tokens src (rewritten src (part.text src)) ≠ [] := by
  rcases plain_or_quoted h with ⟨raw, afterDot, rfl⟩ | ⟨hplain, hblank⟩
  · have hread : ∀ name : List Char,
        Sits src (Quoted.quoted (nameDelimiter src) name) ∧
          tokens src (Quoted.quoted (nameDelimiter src) name) ≠ [] := by
      intro name
      refine ⟨sits_quoted name, ?_⟩
      rw [tokens_quoted]
      exact List.cons_ne_nil _ _
    have hbound := hread (rewritten src raw.toList)
    rw [← rewritten_quoted] at hbound
    exact ⟨hread raw.toList, hbound⟩
  · have hread : ∀ t : List Char, (∀ c ∈ t, IsPlain src c) → (∃ c ∈ t, isBlank c = false) →
        Sits src t ∧ tokens src t ≠ [] := by
      rintro t ht ⟨c, hc, hb⟩
      exact ⟨sits_plain ht (List.ne_nil_of_mem hc), tokens_ne_nil ht hc hb⟩
    exact ⟨hread _ hplain hblank, hread _ (isPlain_rewritten hplain) (exists_mem_rewritten hblank)⟩

theorem fits_quoted {afterDot : Bool} (name : List Char) :
    Fits K [.identifier afterDot] (tokens src (Quoted.quoted (nameDelimiter src) name)) ↔
      name ≠ [] ∧ '\x00' ∉ name := by
  rw [tokens_quoted, fits_singleton, ← not_or]
  by_cases h : name = [] ∨ '\x00' ∈ name
  · rw [if_pos h]
    exact iff_of_false (fun hno => hno) fun hno => hno h
  · rw [if_neg h]
    exact iff_of_true trivial h

theorem fits_fixed {raw : String} (h : ValidPart (.fixed raw)) :
    Fits K [.fixed raw] (tokens src raw.toList) := by
  have hhead : ¬ (src = .postgres ∧ raw.toList.head? = some '$') := by
    rintro ⟨-, hc⟩
    exact (h.2 _ (List.mem_of_mem_head? hc)).2 (by decide)
  rw [tokens_word h.1 (fun c hc => (h.2 c hc).1) hhead, fits_singleton]
  split <;> exact rfl

/-- A part stands the rewriting just when it is what it is meant to be. -/
theorem fits_part_iff (h : ValidPart part) :
    (Fits K [part.slot (.fixed (sentinel false)) (.fixed (sentinel true))]
        (tokens src (part.text src)) ∧
      Fits K [part.slot (.placeholder (mark src false)) (.placeholder (mark src true))]
        (tokens src (rewritten src (part.text src)))) ↔ OkPart K src part := by
  cases part with
  | quoted raw afterDot =>
      show (Fits K [.identifier afterDot] (tokens src (Quoted.quoted _ raw.toList)) ∧
        Fits K [.identifier afterDot] (tokens src (rewritten src (Quoted.quoted _ raw.toList)))) ↔ _
      rw [rewritten_quoted, fits_quoted, fits_quoted]
      exact and_iff_left_of_imp fun hname =>
        ⟨rewritten_ne_nil hname.1, fun hin => hname.2 (nul_mem_rewritten.mp hin)⟩
  | name raw afterDot => exact fits_name_iff h
  | fixed raw =>
      have hunder : '_' ∉ raw.toList := fun hc => (h.2 _ hc).2 (by decide)
      refine iff_of_true ⟨fits_fixed h, ?_⟩ trivial
      show Fits K [.fixed raw] (tokens src (rewritten src raw.toList))
      rw [rewritten_fixed hunder]
      exact fits_fixed h
  | window high =>
      have hraw : tokens src (sentinel high).toList = [.word (sentinel high).toList] := by
        cases src <;> cases high <;> decide
      have hbound : tokens src (mark src high).toList = [.placeholder (mark src high).toList] := by
        cases src <;> cases high <;> decide
      refine iff_of_true ⟨?_, ?_⟩ trivial
      · show Fits K [_] (tokens src (sentinel high).toList)
        rw [hraw, fits_singleton]
        cases high <;> exact rfl
      · show Fits K [_] (tokens src (rewritten src (sentinel high).toList))
        rw [rewritten_sentinel, hbound, fits_singleton]
        cases high <;> exact rfl

end Parts

/-! ## The whole text -/

/-- Segments with this lead first and later ones after it. -/
def Led (lead : Lead) (xs : List Segment) : Prop :=
  ∃ part rest, xs = ⟨lead, part⟩ :: rest ∧ ∀ s ∈ rest, s.lead.later = true

section Whole

variable {T : Type} {chrono : Chrono T} {src : SourceKind} {K : Keywords}
  {cfg : DataSyncTaskConfig} {default : Option String} {lead : Lead} {xs ys : List Segment}

theorem Led.append (h : Led lead xs) (hys : ∀ s ∈ ys, s.lead.later = true) : Led lead (xs ++ ys) := by
  obtain ⟨part, rest, rfl, hrest⟩ := h
  refine ⟨part, rest ++ ys, rfl, fun s hs => ?_⟩
  exact (List.mem_append.mp hs).elim (hrest s) (hys s)

theorem Led.later (h : Led lead xs) (hlead : lead.later = true) : ∀ s ∈ xs, s.lead.later = true := by
  obtain ⟨part, rest, rfl, hrest⟩ := h
  rw [List.forall_mem_cons]
  exact ⟨hlead, hrest⟩

theorem led_tableSegments (lead : Lead) (database default : Option String) (table : String) :
    Led lead (tableSegments lead database default table) := by
  unfold tableSegments
  generalize (database <|> default) = qualifier
  cases qualifier with
  | none => exact ⟨_, [], rfl, by simp⟩
  | some d =>
      by_cases hd : d.isEmpty = true
      · simp only [if_pos hd]
        exact ⟨_, [], rfl, by simp⟩
      · simp only [if_neg hd]
        exact ⟨_, _, rfl, by simp [Lead.later]⟩

theorem led_referenceSegments {text : List Char} (h : PaddedReference text) :
    Led lead (referenceSegments lead text) := by
  obtain ⟨qualifier, column, hsplit, -, -⟩ := h
  rw [referenceSegments, hsplit]
  exact ⟨_, _, rfl, by simp [Lead.later]⟩

theorem led_columnSegments {c : ColumnSelect} (h : PaddedReference c.source.toList) :
    Led lead (columnSegments lead c) := by
  apply (led_referenceSegments h).append
  rw [List.forall_mem_singleton]
  exact rfl

theorem later_joinSegments {jt : JoinTable}
    (h : ∃ l r, Text.splitOnce '=' jt.onClause.toList = some (l, r) ∧
      PaddedReference l ∧ PaddedReference r) :
    ∀ s ∈ joinSegments default jt, s.lead.later = true := by
  obtain ⟨l, r, hsplit, hl, hr⟩ := h
  unfold joinSegments onSegments
  rw [hsplit, List.forall_mem_append, List.forall_mem_cons, List.forall_mem_append]
  exact ⟨(led_tableSegments _ _ _ _).later rfl, rfl,
    (led_referenceSegments hl).later rfl,
    (led_referenceSegments hr).later rfl⟩

theorem exists_led_layout (h : Shaped cfg) : ∃ lead, Led lead (layout cfg default) := by
  have hrest : ∀ s ∈ (⟨.alias, .fixed "main"⟩ : Segment) ::
      (cfg.joinTables.flatMap (joinSegments default) ++ windowSegments cfg), s.lead.later = true := by
    rw [List.forall_mem_cons, List.forall_mem_append]
    refine ⟨rfl, fun s hs => ?_, ?_⟩
    · obtain ⟨jt, hjt, hin⟩ := List.mem_flatMap.mp hs
      exact later_joinSegments (h.on jt hjt) s hin
    · unfold windowSegments
      simp [Lead.later]
  have hcolumns := h.columns
  unfold layout selectSegments
  generalize cfg.columnMapping.columns = columns at hcolumns ⊢
  cases columns with
  | nil => exact ⟨_, (led_tableSegments _ _ _ _).append hrest⟩
  | cons c cols =>
      refine ⟨.firstColumn, Led.append ?_ hrest⟩
      refine ((led_columnSegments (hcolumns c List.mem_cons_self)).append fun s hs => ?_).append
        ((led_tableSegments _ _ _ _).later rfl)
      obtain ⟨d, hd, hin⟩ := List.mem_flatMap.mp hs
      exact (led_columnSegments (hcolumns d (List.mem_cons_of_mem c hd))).later
        rfl s hin

/-! ### What validation gives the layout -/

theorem shaped_of_validated (h : Validated chrono cfg) : Shaped cfg where
  columns c hc := by
    obtain ⟨i, hi⟩ := checkEach_ok h.columns hc
    unfold validateColumn at hi
    have href := paddedReference_of_isSafeQualified (p := []) (q := [])
      (validateQualified_ok (bind_ok.mp hi).1) (by simp) (by simp)
    rwa [List.nil_append, List.append_nil] at href
  aliases jt hjt := by
    obtain ⟨i, hi⟩ := checkEach_ok h.join_tables hjt
    unfold validateJoinTable at hi
    simp only [bind_ok] at hi
    apply isSafeIdentifier_padded
    unfold JoinTable.effectiveAlias
    cases halias : jt.aliasName with
    | none => exact validateIdentifier_ok.mp hi.1
    | some a => exact validateIdentifierOpt_ok hi.2.2.1 halias
  on jt hjt := by
    obtain ⟨i, hi⟩ := checkEach_ok h.join_tables hjt
    unfold validateJoinTable at hi
    simp only [bind_ok] at hi
    exact validateOn_ok hi.2.2.2
  timeField := isSafeIdentifier_padded (validateIdentifier_ok.mp h.time_field)

theorem ok_of_isSafeIdentifier {name : String} {afterDot : Bool}
    (h : isSafeIdentifier name.toList = true) : OkPart K src (.quoted name afterDot) :=
  ⟨isSafeIdentifier_ne_nil h, notMem_of_isSafeIdentifier h (by decide)⟩

theorem table_ok_iff {database : Option String} {table : String}
    (hdatabase : ∀ d, database = some d → isSafeIdentifier d.toList = true)
    (htable : isSafeIdentifier table.toList = true) :
    (∀ s ∈ tableSegments lead database default table, OkPart K src s.part) ↔
      (database = none → ∀ d, default = some d → '\x00' ∉ d.toList) := by
  have htab : ∀ afterDot, OkPart K src (.quoted table afterDot) := fun _ =>
    ok_of_isSafeIdentifier htable
  unfold tableSegments
  cases database with
  | some d =>
      obtain ⟨c, rest, hlist, -⟩ := isSafeIdentifier_head (hdatabase d rfl)
      have hne : ¬ d.isEmpty = true := by
        intro hempty
        rw [String.isEmpty_iff.mp hempty] at hlist
        cases hlist
      show (∀ s : Segment, s ∈ (if d.isEmpty = true then _ else _) → OkPart K src s.part) ↔ _
      rw [if_neg hne, List.forall_mem_cons, List.forall_mem_singleton]
      exact iff_of_true ⟨ok_of_isSafeIdentifier (hdatabase d rfl), htab true⟩ fun hnone =>
        nomatch hnone
  | none =>
      cases default with
      | none =>
          show (∀ s : Segment, s ∈ [_] → OkPart K src s.part) ↔ _
          rw [List.forall_mem_singleton]
          exact iff_of_true (htab false) fun _ d hd => nomatch hd
      | some d =>
          have hdefault : (none = (none : Option String) →
              ∀ e, some d = some e → '\x00' ∉ e.toList) ↔ '\x00' ∉ d.toList := by simp
          show (∀ s : Segment, s ∈ (if d.isEmpty = true then _ else _) → OkPart K src s.part) ↔ _
          rw [hdefault]
          by_cases hd : d.isEmpty = true
          · rw [if_pos hd, List.forall_mem_singleton, String.isEmpty_iff.mp hd]
            exact iff_of_true (htab false) (by decide)
          · have hlist : d.toList ≠ [] := fun hnil => hd (by
              rw [String.isEmpty_iff, ← String.toList_eq_nil_iff, hnil])
            rw [if_neg hd, List.forall_mem_cons, List.forall_mem_singleton,
              and_iff_left (htab true)]
            exact and_iff_right hlist

theorem reference_ok_iff {text : List Char} (h : PaddedReference text) :
    (∀ s ∈ referenceSegments lead text, OkPart K src s.part) ↔ PlainReference K src text := by
  obtain ⟨qualifier, column, hsplit, -, -⟩ := h
  rw [referenceSegments, PlainReference, hsplit]
  simp [OkPart]

theorem join_ok_iff {jt : JoinTable} {i : Nat} (h : validateJoinTable i jt = .ok ()) :
    (∀ s ∈ joinSegments default jt, OkPart K src s.part) ↔
      (jt.database = none → ∀ d, default = some d → '\x00' ∉ d.toList) ∧
        PlainName K src false jt.effectiveAlias.toList ∧
        ∃ l r, Text.splitOnce '=' jt.onClause.toList = some (l, r) ∧
          PlainReference K src l ∧ PlainReference K src r := by
  unfold validateJoinTable at h
  simp only [bind_ok] at h
  obtain ⟨l, r, hsplit, hl, hr⟩ := validateOn_ok h.2.2.2
  unfold joinSegments onSegments
  rw [hsplit, List.forall_mem_append, List.forall_mem_cons, List.forall_mem_append,
    table_ok_iff (fun d => validateIdentifierOpt_ok h.2.1) (validateIdentifier_ok.mp h.1),
    reference_ok_iff hl, reference_ok_iff hr]
  simp [OkPart]

theorem select_ok_iff (h : Validated chrono cfg) :
    (∀ s ∈ selectSegments cfg default, OkPart K src s.part) ↔
      (∀ c ∈ cfg.columnMapping.columns, PlainReference K src c.source.toList) ∧
        (cfg.source.database = none → ∀ d, default = some d → '\x00' ∉ d.toList) := by
  have hshape := (shaped_of_validated h).columns
  have htarget : ∀ c ∈ cfg.columnMapping.columns, isSafeIdentifier c.target.toList = true := by
    intro c hc
    obtain ⟨i, hi⟩ := checkEach_ok h.columns hc
    unfold validateColumn at hi
    exact validateIdentifier_ok.mp (bind_ok.mp hi).2
  have htable : ∀ lead, (∀ s ∈ tableSegments lead cfg.source.database default cfg.source.table,
      OkPart K src s.part) ↔
        (cfg.source.database = none → ∀ d, default = some d → '\x00' ∉ d.toList) := fun lead =>
    table_ok_iff (fun d => validateIdentifierOpt_ok h.source_database)
      (validateIdentifier_ok.mp h.source_table)
  have hcolumn : ∀ c ∈ cfg.columnMapping.columns, ∀ lead,
      (∀ s ∈ columnSegments lead c, OkPart K src s.part) ↔ PlainReference K src c.source.toList := by
    intro c hc lead
    unfold columnSegments
    rw [List.forall_mem_append, reference_ok_iff (hshape c hc), List.forall_mem_singleton]
    exact and_iff_left (ok_of_isSafeIdentifier (htarget c hc))
  unfold selectSegments
  generalize cfg.columnMapping.columns = columns at hcolumn ⊢
  cases columns with
  | nil =>
      simp only [htable]
      simp
  | cons c cols =>
      have hcols : (∀ s ∈ cols.flatMap (columnSegments .nextColumn), OkPart K src s.part) ↔
          ∀ d ∈ cols, PlainReference K src d.source.toList := by
        constructor
        · intro hall d hd
          apply (hcolumn d (List.mem_cons_of_mem c hd) .nextColumn).mp
          exact fun s hs => hall s (List.mem_flatMap.mpr ⟨d, hd, hs⟩)
        · intro hall s hs
          obtain ⟨d, hd, hin⟩ := List.mem_flatMap.mp hs
          exact (hcolumn d (List.mem_cons_of_mem c hd) .nextColumn).mpr (hall d hd) s hin
      simp only [List.forall_mem_append, List.forall_mem_cons, hcols, htable,
        hcolumn c List.mem_cons_self]

theorem valid_rowLimit (cfg : DataSyncTaskConfig) :
    ValidPart (.fixed (toString (rowLimit cfg))) := by
  have hlist : (toString (rowLimit cfg)).toList = Nat.toDigits 10 (rowLimit cfg) :=
    Nat.toList_repr
  refine ⟨by rw [hlist]; exact Nat.toDigits_ne_nil, fun c hc => ?_⟩
  rw [hlist] at hc
  have hdigit := Nat.isDigit_of_mem_toDigits (by decide) (by decide) hc
  refine ⟨by simp [isWord, Char.isAlphanum, hdigit], fun hin => ?_⟩
  rw [(by decide : ∀ d ∈ ['_', '$'], d.isDigit = false) c hin] at hdigit
  cases hdigit

theorem valid_tableSegments (database : Option String) (table : String) :
    ∀ s ∈ tableSegments lead database default table, ValidPart s.part := by
  unfold tableSegments
  generalize (database <|> default) = qualifier
  cases qualifier with
  | none => simp [ValidPart]
  | some d => by_cases hd : d = "" <;> simp [hd, ValidPart]

theorem valid_referenceSegments {text : List Char} (h : PaddedReference text) :
    ∀ s ∈ referenceSegments lead text, ValidPart s.part := by
  obtain ⟨qualifier, column, hsplit, hq, hc⟩ := h
  rw [referenceSegments, hsplit]
  simpa [ValidPart] using ⟨hq, hc⟩

theorem valid_layout (h : Shaped cfg) : ∀ s ∈ layout cfg default, ValidPart s.part := by
  have hmain : ValidPart (.fixed "main") := ⟨by decide, by decide⟩
  have hcolumn : ∀ c ∈ cfg.columnMapping.columns, ∀ lead,
      ∀ s ∈ columnSegments lead c, ValidPart s.part := by
    intro c hc lead
    unfold columnSegments
    rw [List.forall_mem_append, List.forall_mem_singleton]
    exact ⟨valid_referenceSegments (h.columns c hc), trivial⟩
  have hselect : ∀ s ∈ selectSegments cfg default, ValidPart s.part := by
    unfold selectSegments
    generalize cfg.columnMapping.columns = columns at hcolumn ⊢
    cases columns with
    | nil => exact valid_tableSegments _ _
    | cons c cols =>
        simp only [List.forall_mem_append]
        refine ⟨⟨hcolumn c List.mem_cons_self _, fun s hs => ?_⟩, valid_tableSegments _ _⟩
        obtain ⟨d, hd, hin⟩ := List.mem_flatMap.mp hs
        exact hcolumn d (List.mem_cons_of_mem c hd) _ s hin
  have hjoin : ∀ jt ∈ cfg.joinTables, ∀ s ∈ joinSegments default jt, ValidPart s.part := by
    intro jt hjt
    obtain ⟨l, r, hsplit, hl, hr⟩ := h.on jt hjt
    unfold joinSegments onSegments
    rw [hsplit, List.forall_mem_append, List.forall_mem_cons, List.forall_mem_append]
    exact ⟨valid_tableSegments _ _, h.aliases jt hjt, valid_referenceSegments hl,
      valid_referenceSegments hr⟩
  unfold layout
  rw [List.forall_mem_append, List.forall_mem_cons, List.forall_mem_append]
  refine ⟨hselect, hmain, fun s hs => ?_, ?_⟩
  · obtain ⟨jt, hjt, hin⟩ := List.mem_flatMap.mp hs
    exact hjoin jt hjt s hin
  · have htime := h.timeField
    have hlimit := valid_rowLimit cfg
    simp only [windowSegments, List.forall_mem_cons]
    exact ⟨htime, trivial, htime, trivial, htime, hlimit, fun s hs => nomatch hs⟩

theorem layout_ok_iff (h : Validated chrono cfg) :
    (∀ s ∈ layout cfg default, OkPart K src s.part) ↔ Plain K src cfg default := by
  have hjoin : ∀ jt ∈ cfg.joinTables, (∀ s ∈ joinSegments default jt, OkPart K src s.part) ↔
      (jt.database = none → ∀ d, default = some d → '\x00' ∉ d.toList) ∧
        PlainName K src false jt.effectiveAlias.toList ∧
        ∃ l r, Text.splitOnce '=' jt.onClause.toList = some (l, r) ∧
          PlainReference K src l ∧ PlainReference K src r := by
    intro jt hjt
    obtain ⟨i, hi⟩ := checkEach_ok h.join_tables hjt
    exact join_ok_iff hi
  have hwindow : (∀ s ∈ windowSegments cfg, OkPart K src s.part) ↔
      PlainName K src true cfg.batching.timeField.toList := by
    simp [windowSegments, OkPart]
  unfold layout
  rw [List.forall_mem_append, List.forall_mem_cons, List.forall_mem_append, select_ok_iff h,
    hwindow]
  constructor
  · rintro ⟨⟨hcolumns, hmain⟩, -, hjoins, htime⟩
    have hall := fun jt hjt => (hjoin jt hjt).mp fun s hs =>
      hjoins s (List.mem_flatMap.mpr ⟨jt, hjt, hs⟩)
    refine ⟨hcolumns, fun jt hjt => (hall jt hjt).2.1, fun jt hjt => (hall jt hjt).2.2, htime,
      fun d hd hused => ?_⟩
    rcases hused with hnone | ⟨jt, hjt, hnone⟩
    · exact hmain hnone d hd
    · exact (hall jt hjt).1 hnone d hd
  · intro hplain
    refine ⟨⟨hplain.columns, fun hnone d hd => hplain.database d hd (.inl hnone)⟩, trivial,
      fun s hs => ?_, hplain.timeField⟩
    obtain ⟨jt, hjt, hin⟩ := List.mem_flatMap.mp hs
    exact (hjoin jt hjt).mpr ⟨fun hnone d hd => hplain.database d hd (.inr ⟨jt, hjt, hnone⟩),
      hplain.aliases jt hjt, hplain.on jt hjt⟩ s hin

/-- The template is met, before the rewriting and after, by what the parts of the layout are. -/
theorem injectionFree_of_shaped (h : Shaped cfg) :
    InjectionFree K src cfg default ↔ ∀ s ∈ layout cfg default, OkPart K src s.part := by
  have hvalid : ∀ s ∈ layout cfg default, ValidPart s.part := valid_layout h
  have hled : ∃ lead, Led lead (layout cfg default) := exists_led_layout h
  obtain ⟨lead, part, xs, hlayout, hlater⟩ := hled
  have hraw : tokens src ((layout cfg default).flatMap (Segment.text src)) =
      (layout cfg default).flatMap fun s =>
        tokens src (s.lead.text src).toList ++ tokens src (s.part.text src) := by
    rw [hlayout] at hvalid ⊢
    exact tokens_pieces (fun s hs => (part_sits (hvalid s hs)).1.1) hlater
  have hbound : tokens src ((layout cfg default).flatMap (Segment.bound src)) =
      (layout cfg default).flatMap fun s =>
        tokens src (s.lead.text src).toList ++ tokens src (rewritten src (s.part.text src)) := by
    rw [hlayout] at hvalid ⊢
    exact tokens_pieces (fun s hs => (part_sits (hvalid s hs)).2.1) hlater
  have hfree : InjectionFree K src cfg default ↔
      (∀ s ∈ layout cfg default,
        Fits K [s.part.slot (.fixed (sentinel false)) (.fixed (sentinel true))]
          (tokens src (s.part.text src))) ∧
      ∀ s ∈ layout cfg default,
        Fits K [s.part.slot (.placeholder (mark src false)) (.placeholder (mark src true))]
          (tokens src (rewritten src (s.part.text src))) := by
    rw [← fits_iff fun s hs => (part_sits (hvalid s hs)).1.2,
      ← fits_iff fun s hs => (part_sits (hvalid s hs)).2.2, ← hraw, ← hbound,
      layout_slots h, layout_slots h, ← rewritten_layout, ← layout_text h, ← sourceSelect_text]
    exact ⟨fun hfits => ⟨hfits.built, hfits.bound⟩, fun hfits => ⟨hfits.1, hfits.2⟩⟩
  rw [hfree]
  constructor
  · rintro ⟨hbefore, hafter⟩ s hs
    exact (fits_part_iff (hvalid s hs)).mp ⟨hbefore s hs, hafter s hs⟩
  · intro hok
    exact ⟨fun s hs => ((fits_part_iff (hvalid s hs)).mpr (hok s hs)).1,
      fun s hs => ((fits_part_iff (hvalid s hs)).mpr (hok s hs)).2⟩

/-- A validated configuration injects nothing just when its names stay names. -/
theorem injectionFree_iff (K : Keywords) (h : validate chrono cfg = .ok ()) (src : SourceKind)
    (default : Option String) : InjectionFree K src cfg default ↔ Plain K src cfg default := by
  have hvalidated := validate_iff.mp h
  rw [injectionFree_of_shaped (shaped_of_validated hvalidated), layout_ok_iff hvalidated]

end Whole

/-- A dialect that takes every word as a name. -/
def noKeywords : Keywords := ⟨fun _ => false, fun _ h => nomatch h⟩

/-- A joined task; within a word PostgreSQL keeps what the rewriting puts in. -/
def joinedTask : DataSyncTaskConfig where
  source := ⟨none, "orders"⟩
  target := ⟨none, "orders_copy"⟩
  joinTables := [⟨"users", some "u", " main.uid = u.id ", some "crm"⟩]
  columnMapping := ⟨[⟨"u.name", "user_name"⟩], []⟩
  batching := ⟨"at__P0__", some 500, none, none⟩
  targetStrategy := .append
  schedule := none

theorem injectionFree_joinedTask :
    InjectionFree noKeywords .postgres joinedTask (some "sales \"eu\"") := by
  have hname : ∀ afterDot, ∀ word ∈ ["u", " main", "uid ", " u", "id ", "name", "at__P0__"],
      PlainName noKeywords .postgres afterDot word.toList := by
    intro afterDot word hword
    have hone : ∀ word ∈ ["u", " main", "uid ", " u", "id ", "name", "at__P0__"],
        (∀ c ∈ core word.toList, isBlank c = false) ∧
          ¬ "__P0__".toList <+: core word.toList ∧ ¬ "__P1__".toList <+: core word.toList := by
      decide
    obtain ⟨hblank, hlow, hhigh⟩ := hone word hword
    exact ⟨hblank, fun _ => rfl, hlow, fun h => absurd h hhigh⟩
  have hvalid : validate civil joinedTask = .ok () := by decide
  apply (injectionFree_iff noKeywords hvalid .postgres _).mpr
  refine ⟨?_, ?_, ?_, hname true "at__P0__" (by simp), ?_⟩
  · intro c hc
    rw [List.mem_singleton.mp hc]
    exact ⟨['u'], "name".toList, by decide, hname false "u" (by simp), hname true "name" (by simp)⟩
  · intro jt hjt
    rw [List.mem_singleton.mp hjt]
    exact hname false "u" (by simp)
  · intro jt hjt
    rw [List.mem_singleton.mp hjt]
    exact ⟨" main.uid ".toList, " u.id ".toList, by decide,
      ⟨" main".toList, "uid ".toList, by decide, hname false " main" (by simp),
        hname true "uid " (by simp)⟩,
      ⟨" u".toList, "id ".toList, by decide, hname false " u" (by simp),
        hname true "id " (by simp)⟩⟩
  · rintro d hd -
    cases hd
    decide

/-- `time_field` is a safe identifier that is itself the first sentinel. -/
def sentinelTask : DataSyncTaskConfig where
  source := ⟨none, "orders"⟩
  target := ⟨none, "orders_copy"⟩
  joinTables := []
  columnMapping := ⟨[], [⟨"origin", .null⟩]⟩
  batching := ⟨"__P0__", none, none, none⟩
  targetStrategy := .append
  schedule := none

example : mysqlSelect (buildSelectSql sentinelTask none .mySql) =
    "SELECT * FROM `orders` AS main WHERE main.? >= ? AND main.? < ? ORDER BY main.? LIMIT 10000" := by
  decide +kernel

theorem sentinel_timeField : validate civil sentinelTask = .ok () ∧
    ∀ K : Keywords, ¬ InjectionFree K .mySql sentinelTask none := by
  have hvalid : validate civil sentinelTask = .ok () := by decide
  refine ⟨hvalid, fun K hfree => ?_⟩
  have hshape := shaped_of_validated (validate_iff.mp hvalid)
  have hok := (injectionFree_of_shaped hshape).mp hfree
    ⟨.whereTime, .name "__P0__".toList true⟩ (by simp [layout, windowSegments, sentinelTask])
  exact absurd hok.noSentinel.1 (by decide)

end Dbmaster.DataSync.Injection
