import Dbmaster.Lib.FirstFew
import Dbmaster.Lib.JsonText
import Dbmaster.Lib.Like
/-!
# The tag filter of the saved queries

`save_query` stores the tags of a query as a JSON text; `list_saved_queries` looks for a tag in
that text with `LIKE`.
-/

namespace Dbmaster.SavedQueries.TagFilter

open Dbmaster.Lib Dbmaster.Lib.Text

/-! ## The store -/

structure SaveQueryRequest where
  title : String
  sqlText : String
  tags : List (List Char)

/-- A row of `saved_queries`. -/
structure SavedQuery where
  id : String
  title : String
  sqlText : String
  tags : List Char
  workspaceId : String
  createdBy : String
  createdAt : String

/-- A request that was saved, under its id, by whom and when. -/
structure Saved where
  id : String
  createdBy : String
  createdAt : String
  body : SaveQueryRequest

def saveQuery (saved : Saved) : SavedQuery where
  id := saved.id
  title := saved.body.title
  sqlText := saved.body.sqlText
  tags := JsonText.array saved.body.tags
  workspaceId := "default"
  createdBy := saved.createdBy
  createdAt := saved.createdAt

/-- What was saved, in the order of `ORDER BY created_at DESC`. -/
structure Store where
  saved : List Saved
  newestFirst : saved.Pairwise fun s s' => s'.createdAt ≤ s.createdAt
  idOnce : (saved.map Saved.id).Nodup

/-! ## `LIKE` of SQLite -/

/-- The case of ASCII letters is not compared. -/
def sameLetter (k c : Char) : Bool := k.toLower == c.toLower

/-- A text up to its first NUL. -/
def cString (text : List Char) : List Char := text.takeWhile (· != '\x00')

def sqliteLike (pattern text : List Char) : Bool :=
  Like.like sameLetter (cString pattern) (cString text)

/-- `SQLITE_MAX_LIKE_PATTERN_LENGTH`, in bytes. -/
def patternLimit : Nat := 50000

def byteLength (text : List Char) : Nat := text.foldr (fun c n => c.utf8Size + n) 0

/-! ## `list_saved_queries` -/

def clampLimit (raw : Option Int) (default max : Int) : Int :=
  match raw with
  | some n => if n > 0 then min n max else default
  | none => default

def limitOf (limit : Option Int) : Nat := (clampLimit limit 100 500).toNat

def tagPattern (tag : List Char) : List Char := '%' :: ('"' :: (tag ++ ['"']) ++ ['%'])

/-- The rows of the query with a tag; a pattern that is too long fails at the first row. -/
def listSavedQueries (store : Store) (tag : List Char) (limit : Option Int) :
    Except String (List SavedQuery) :=
  let rows := store.saved.map saveQuery
  if !rows.isEmpty && decide (patternLimit < byteLength (tagPattern tag)) then .error "DB_ERROR"
  else .ok ((rows.filter fun row => sqliteLike (tagPattern tag) row.tags).take
    (limitOf limit))

def Exact (store : Store) (tag : List Char) (limit : Option Int) : Prop :=
  listSavedQueries store tag limit = .ok (((store.saved.filter fun s => s.body.tags.contains tag).map
    saveQuery).take (limitOf limit))

/-! ## When the text misleads -/

/-- A tag that is no pattern, and no cut one. -/
structure Fixed (tag : List Char) : Prop where
  percent : '%' ∉ tag
  underscore : '_' ∉ tag
  nul : '\x00' ∉ tag

/-- A tag that the text of a list has as it is. -/
structure PlainTag (tag : List Char) : Prop extends Fixed tag where
  text : JsonText.Plain tag

/-- A list without the tag that has it in another case, behind a quote within one of its tags, or
as the comma between two of them. -/
def Stray (tag : List Char) (tags : List (List Char)) : Prop :=
  tag ∉ tags ∧
    ((∃ t ∈ tags, ∃ found, JsonText.EndsWith found t ∧ asciiLower found = asciiLower tag) ∨
      (tag = [','] ∧ 2 ≤ tags.length))

/-- What stands from one quote to another in the tags as they are written is the tag, in some
case. -/
def Written (tag : List Char) (tags : List (List Char)) : Prop :=
  ∃ run, run ≠ [] ∧ run <:+: JsonText.arrayParts tags ∧
    asciiLower (['"'].intercalate run) = asciiLower tag

/-- The text of the list and the list disagree on the tag. -/
def Misjudged (tag : List Char) (tags : List (List Char)) : Prop :=
  (PlainTag tag ∧ Stray tag tags) ∨
    (Fixed tag ∧ ¬ JsonText.Plain tag ∧ ¬ (Written tag tags ↔ tag ∈ tags)) ∨
    (¬ Fixed tag ∧ ¬ (sqliteLike (tagPattern tag) (JsonText.array tags) = true ↔ tag ∈ tags))

/-- No pattern that is too long, and every misjudged query comes after enough that have the tag. -/
structure Reliable (store : Store) (tag : List Char) (limit : Option Int) : Prop where
  short : store.saved = [] ∨ byteLength (tagPattern tag) ≤ patternLimit
  late : ∀ before s after, store.saved = before ++ s :: after → Misjudged tag s.body.tags →
    limitOf limit ≤ (before.filter fun s => s.body.tags.contains tag).length

/-! ## Letters -/

theorem eq_of_toLower {k c : Char} (hc : c.isAlpha = false) (h : k.toLower = c.toLower) :
    k = c := by
  have hparts : (c.isUpper || c.isLower) = false := hc
  rw [Bool.or_eq_false_iff] at hparts
  rw [toLower_eq_self_iff.mpr hparts.1] at h
  rcases toNat_toLower k with hsame | ⟨hupper, hcode⟩
  · exact hsame.symm.trans h
  · have hlow : 65 ≤ k.toNat := (of_decide_eq_true hupper).1
    have hhigh : k.toNat ≤ 90 := (of_decide_eq_true hupper).2
    have hlower : c.isLower = true := by
      rw [h] at hcode
      have hge : 97 ≤ c.toNat := by omega
      have hle : c.toNat ≤ 122 := by omega
      exact Bool.and_eq_true_iff.mpr ⟨decide_eq_true hge, decide_eq_true hle⟩
    rw [hlower] at hparts
    cases hparts.2

variable {tag : List Char} {tags : List (List Char)}

theorem forall₂_fits_iff (htag : '_' ∉ tag) {found : List Char} :
    List.Forall₂ (Like.Fits sameLetter) tag found ↔ asciiLower found = asciiLower tag := by
  induction tag generalizing found with
  | nil =>
      rw [List.forall₂_nil_left_iff, asciiLower, asciiLower, List.map_nil, List.map_eq_nil_iff]
  | cons k tag ih =>
      rw [List.mem_cons, not_or] at htag
      cases found with
      | nil =>
          apply iff_of_false
          · intro h
            cases h
          · intro h
            cases h
      | cons c found =>
          rw [List.forall₂_cons, ih htag.2, asciiLower, asciiLower, asciiLower, asciiLower,
            List.map_cons, List.map_cons, List.cons.injEq]
          refine and_congr_left fun _ => ?_
          rw [Like.Fits, or_iff_right (Ne.symm htag.1), sameLetter, beq_iff_eq]
          exact eq_comm

theorem plain_of_asciiLower (htag : JsonText.Plain tag) {found : List Char}
    (h : asciiLower found = asciiLower tag) : JsonText.Plain found := by
  intro c hc
  have hin : c.toLower ∈ asciiLower tag := h ▸ List.mem_map_of_mem hc
  obtain ⟨k, hk, hlower⟩ := List.mem_map.mp hin
  obtain ⟨hquote, hback, hcode⟩ := htag k hk
  refine ⟨?_, ?_, ?_⟩
  · rintro rfl
    exact hquote (eq_of_toLower (by decide) hlower)
  · rintro rfl
    exact hback (eq_of_toLower (by decide) hlower)
  · by_contra hlow
    have hletter : c.isAlpha = false := by
      refine Bool.eq_false_iff.mpr fun halpha => hlow ?_
      rcases Bool.or_eq_true_iff.mp halpha with hupper | hlower
      · have hcapital : 65 ≤ c.toNat := (of_decide_eq_true hupper).1
        omega
      · have hsmall : 97 ≤ c.toNat := of_decide_eq_true (Bool.and_eq_true_iff.mp hlower).1
        omega
    rw [← eq_of_toLower hletter hlower] at hlow
    exact hlow hcode

/-! ## The text of a list -/

theorem cString_of_notMem {text : List Char} (h : '\x00' ∉ text) : cString text = text := by
  refine List.takeWhile_eq_self_iff.mpr fun c hc => ?_
  rw [bne_iff_ne]
  rintro rfl
  exact h hc

theorem fits_quote {found : List Char} :
    List.Forall₂ (Like.Fits sameLetter) ['"'] found ↔ found = ['"'] := by
  constructor
  · intro h
    cases h with
    | cons hc hrest =>
        cases hrest
        rw [Like.Fits, or_iff_right (by decide), sameLetter, beq_iff_eq] at hc
        rw [eq_of_toLower (by decide) hc.symm]
  · rintro rfl
    exact .cons (.inr rfl) .nil

theorem sqliteLike_fixed (htag : Fixed tag) (tags : List (List Char)) :
    sqliteLike (tagPattern tag) (JsonText.array tags) = true ↔
      ∃ found, JsonText.Between found (JsonText.array tags) ∧
        asciiLower found = asciiLower tag := by
  have hpattern : cString (tagPattern tag) = tagPattern tag :=
    cString_of_notMem (by simp [tagPattern, htag.nul])
  have htext : cString (JsonText.array tags) = JsonText.array tags := cString_of_notMem fun h =>
    absurd (JsonText.le_toNat_of_mem_array h) (by decide)
  have hsplit : tagPattern tag = '%' :: (['"'] ++ (tag ++ (['"'] ++ ['%']))) := by
    simp [tagPattern]
  rw [sqliteLike, hpattern, htext, hsplit, Like.like_percent]
  constructor
  · rintro ⟨before, rest, hbefore, h⟩
    obtain ⟨_, rest, rfl, hquote, h⟩ := (Like.like_append (by decide)).mp h
    obtain ⟨found, rest, rfl, hfound, h⟩ := (Like.like_append htag.percent).mp h
    obtain ⟨_, rest, rfl, hquote', _⟩ := (Like.like_append (by decide)).mp h
    rw [fits_quote.mp hquote, fits_quote.mp hquote'] at hbefore
    exact ⟨found, ⟨before, rest, hbefore⟩, (forall₂_fits_iff htag.underscore).mp hfound⟩
  · rintro ⟨found, ⟨before, rest, hbefore⟩, hfound⟩
    refine ⟨before, ['"'] ++ (found ++ (['"'] ++ rest)), hbefore, ?_⟩
    refine (Like.like_append (by decide)).mpr ⟨['"'], _, rfl, fits_quote.mpr rfl, ?_⟩
    refine (Like.like_append htag.percent).mpr
      ⟨found, _, rfl, (forall₂_fits_iff htag.underscore).mpr hfound, ?_⟩
    exact (Like.like_append (by decide)).mpr
      ⟨['"'], rest, rfl, fits_quote.mpr rfl, Like.like_rest rest⟩

theorem sqliteLike_iff_written (htag : Fixed tag) (tags : List (List Char)) :
    sqliteLike (tagPattern tag) (JsonText.array tags) = true ↔ Written tag tags := by
  rw [sqliteLike_fixed htag]
  constructor
  · rintro ⟨found, hbetween, hlower⟩
    obtain ⟨run, hne, hrun, rfl⟩ := (JsonText.between_array_iff tags).mp hbetween
    exact ⟨run, hne, hrun, hlower⟩
  · rintro ⟨run, hne, hrun, hlower⟩
    exact ⟨_, (JsonText.between_array_iff tags).mpr ⟨run, hne, hrun, rfl⟩, hlower⟩

theorem misjudged_plain (htag : PlainTag tag) (tags : List (List Char)) :
    ¬ (sqliteLike (tagPattern tag) (JsonText.array tags) = true ↔ tag ∈ tags) ↔
      Stray tag tags := by
  have hfound : sqliteLike (tagPattern tag) (JsonText.array tags) = true ↔
      (∃ t ∈ tags, ∃ found, JsonText.EndsWith found t ∧ asciiLower found = asciiLower tag) ∨
        (tag = [','] ∧ 2 ≤ tags.length) := by
    rw [sqliteLike_fixed htag.toFixed]
    constructor
    · rintro ⟨found, hbetween, hlower⟩
      rcases (JsonText.between_array (plain_of_asciiLower htag.text hlower) tags).mp hbetween
        with ⟨t, ht, hends⟩ | ⟨rfl, htwo⟩
      · exact .inl ⟨t, ht, found, hends, hlower⟩
      · exact .inr ⟨eq_of_asciiLower (by simp) hlower.symm, htwo⟩
    · rintro (⟨t, ht, found, hends, hlower⟩ | ⟨rfl, htwo⟩)
      · exact ⟨found, (JsonText.between_array (plain_of_asciiLower htag.text hlower) tags).mpr
          (.inl ⟨t, ht, hends⟩), hlower⟩
      · exact ⟨[','], (JsonText.between_array htag.text tags).mpr (.inr ⟨rfl, htwo⟩), rfl⟩
  have hself : tag ∈ tags → sqliteLike (tagPattern tag) (JsonText.array tags) = true :=
    fun h => hfound.mpr (.inl ⟨tag, h, tag, .inl rfl, rfl⟩)
  rw [Stray, ← hfound]
  constructor
  · intro h
    by_contra hnot
    exact h ⟨fun hlike => by_contra fun hin => hnot ⟨hin, hlike⟩, hself⟩
  · rintro ⟨hin, hlike⟩ h
    exact hin (h.mp hlike)

theorem misjudged_iff (tag : List Char) (tags : List (List Char)) : Misjudged tag tags ↔
    sqliteLike (tagPattern tag) (JsonText.array tags) ≠ tags.contains tag := by
  have hne : sqliteLike (tagPattern tag) (JsonText.array tags) ≠ tags.contains tag ↔
      ¬ (sqliteLike (tagPattern tag) (JsonText.array tags) = true ↔ tag ∈ tags) := by
    rw [Ne, Bool.eq_iff_iff, List.contains_iff_mem]
  rw [hne, Misjudged]
  by_cases hfixed : Fixed tag
  · by_cases htext : JsonText.Plain tag
    · have htag : PlainTag tag := ⟨hfixed, htext⟩
      rw [misjudged_plain htag]
      simp [htag, hfixed, htext]
    · have htag : ¬ PlainTag tag := fun h => htext h.text
      rw [sqliteLike_iff_written hfixed]
      simp [htag, hfixed, htext]
  · have htag : ¬ PlainTag tag := fun h => hfixed h.toFixed
    simp [htag, hfixed]

/-! ## The filter -/

theorem listed_eq (store : Store) (tag : List Char) (limit : Option Int) :
    ((store.saved.map saveQuery).filter fun row => sqliteLike (tagPattern tag) row.tags).take
        (limitOf limit) =
      ((store.saved.filter fun s => sqliteLike (tagPattern tag)
        (JsonText.array s.body.tags)).take (limitOf limit)).map saveQuery := by
  rw [List.filter_map, List.map_take]
  rfl

/-- The filter is exact if and only if no pattern is too long and what is misjudged comes late. -/
theorem tagFilter_exact_iff (store : Store) (tag : List Char) (limit : Option Int) :
    Exact store tag limit ↔ Reliable store tag limit := by
  have hids : (store.saved.map saveQuery).Nodup :=
    List.Nodup.of_map SavedQuery.id (by rw [List.map_map]; exact store.idOnce)
  have hshort : (!(store.saved.map saveQuery).isEmpty &&
      decide (patternLimit < byteLength (tagPattern tag))) = true ↔
        ¬ (store.saved = [] ∨ byteLength (tagPattern tag) ≤ patternLimit) := by
    simp
  have hsame : (((store.saved.filter fun s => sqliteLike (tagPattern tag)
        (JsonText.array s.body.tags)).take (limitOf limit)).map saveQuery =
      ((store.saved.filter fun s => s.body.tags.contains tag).take (limitOf limit)).map saveQuery) ↔
        ∀ before s after, store.saved = before ++ s :: after → Misjudged tag s.body.tags →
          limitOf limit ≤ (before.filter fun s => s.body.tags.contains tag).length := by
    rw [FirstFew.map_inj_on hids
      (fun _ h => List.mem_of_mem_filter (List.mem_of_mem_take h))
      (fun _ h => List.mem_of_mem_filter (List.mem_of_mem_take h)),
      FirstFew.take_filter_eq_iff store.idOnce.of_map]
    simp only [misjudged_iff]
  unfold Exact listSavedQueries
  simp only []
  by_cases hlong : (!(store.saved.map saveQuery).isEmpty &&
      decide (patternLimit < byteLength (tagPattern tag))) = true
  · rw [if_pos hlong]
    refine iff_of_false nofun fun h => hshort.mp hlong h.short
  · rw [if_neg hlong, Except.ok.injEq, listed_eq, ← List.map_take, hsame]
    have hfits := not_not.mp (mt hshort.mpr hlong)
    exact ⟨fun h => ⟨hfits, h⟩, fun h => h.late⟩

def savedIds (answer : Except String (List SavedQuery)) : List String :=
  (answer.toOption.getD []).map SavedQuery.id

/-- A query tagged `Report`, and an older one whose tag has quotes. -/
def twoQueries : Store where
  saved :=
    [⟨"2", "alice", "2025-01-02T00:00:00+00:00", ⟨"", "", ["Report".toList]⟩⟩,
      ⟨"1", "alice", "2025-01-01T00:00:00+00:00", ⟨"", "", ["a\"b".toList]⟩⟩]
  newestFirst := by decide
  idOnce := by decide

/-- A tag is found in another case, and one with a quote is not found at all. -/
theorem case_and_quote :
    savedIds (listSavedQueries twoQueries "report".toList none) = ["2"] ∧
      savedIds (listSavedQueries twoQueries "a\"b".toList none) = [] ∧
      ¬ Exact twoQueries "report".toList none ∧ ¬ Exact twoQueries "a\"b".toList none := by
  refine ⟨by decide, by decide, fun h => ?_, fun h => ?_⟩
  · exact absurd (congrArg savedIds h) (by decide)
  · exact absurd (congrArg savedIds h) (by decide)

end Dbmaster.SavedQueries.TagFilter
