import Dbmaster.DbHandler.Execute
import Dbmaster.Lib.Occurs
/-!
# Error messages on the wire

What `redact` lets through of the text of a driver error, on the way of a query and on that of
a DDL script, where it is applied twice.
-/

namespace Dbmaster.DbHandler.WireMessage

open Dbmaster.Lib Dbmaster.Gateway.Query Dbmaster.DbHandler.Execute
open Dbmaster.SqlSplit.DdlWhitelist (contains redact executeAll)

/-! ## The ways to the wire -/

/-- The message of a query that fails with the driver's text. -/
def queryMessage (text : List Char) : List Char :=
  (queryFailed (String.ofList text)).message.toList

/-- The message of a DDL script whose statement fails with the driver's text. -/
def ddlMessage (text : List Char) : List Char := redact (queryMessage text)

theorem queryMessage_eq (text : List Char) : queryMessage text = redact text := by
  rw [queryMessage, queryFailed, String.toList_ofList, String.toList_ofList]

theorem error_of_executeAll {answer : List (List Char) → List Char → Except HttpError Unit}
    {sent statements : List (List Char)} {message : List Char}
    (h : (executeAll answer sent statements).result = .error message) :
    ∃ before stmt e, answer before stmt = .error e ∧ message = redact e.message.toList := by
  induction statements generalizing sent with
  | nil => cases h
  | cons stmt statements ih =>
      rw [executeAll] at h
      split at h
      case isTrue => exact ih h
      case isFalse =>
        cases hanswer : answer sent (Text.trim stmt) with
        | error e =>
            rw [hanswer] at h
            exact ⟨sent, _, e, hanswer, (Except.error.inj h).symm⟩
        | ok _ =>
            rw [hanswer] at h
            exact ih h

/-- A statement that fails in the driver ends its script with the message of the driver's text
redacted twice. -/
theorem ddlMessage_of_executeAll
    {answer : List (List Char) → List Char → Except HttpError Unit}
    (hanswer : ∀ before stmt e, answer before stmt = .error e → ∃ text, e = queryFailed text)
    {sent statements : List (List Char)} {message : List Char}
    (h : (executeAll answer sent statements).result = .error message) :
    ∃ text, message = ddlMessage text := by
  obtain ⟨before, stmt, e, he, rfl⟩ := error_of_executeAll h
  obtain ⟨text, rfl⟩ := hanswer before stmt e he
  exact ⟨text.toList, by rw [ddlMessage, queryMessage, String.ofList_toList]⟩

/-! ## What should hold -/

inductive Category
  | connection
  | query
  deriving DecidableEq

def Category.phrase : Category → List Char
  | .connection => "database connection failed".toList
  | .query => "query execution failed".toList

/-- One of the words occurs in the text. -/
def Names (words : List String) (text : List Char) : Prop :=
  ∃ word ∈ words, word.toList <:+: text

def connectionWords : List String := ["connect", "Connection"]

def passWords : List String := ["file_path", "config"]

def category (text : List Char) : Category :=
  if contains text "connect" || contains text "Connection" then .connection else .query

/-- The two texts come out as fixed phrases, as the same one if they are of one category. -/
structure Hides (wire : List Char → List Char) (text other : List Char) : Prop where
  fixed : ∃ c : Category, wire text = c.phrase
  otherFixed : ∃ c : Category, wire other = c.phrase
  equal : category text = category other → wire text = wire other

/-- The text is one of a failed connection, or has none of the words that are let through in
the part that is looked at. -/
def Neutral (text looked : List Char) : Prop :=
  Names connectionWords text ∨ ¬ Names passWords looked

/-! ## One text -/

theorem names_pair {text : List Char} {a b : String} (ha : a.toList ≠ []) (hb : b.toList ≠ []) :
    (contains text a || contains text b) = true ↔ Names [a, b] text := by
  rw [Bool.or_eq_true, contains, contains, Text.isSome_afterFirst_iff ha,
    Text.isSome_afterFirst_iff hb]
  simp only [Names, List.mem_cons, List.not_mem_nil, or_false, exists_eq_or_imp, exists_eq_left]

theorem names_connectionWords {text : List Char} :
    (contains text "connect" || contains text "Connection") = true ↔ Names connectionWords text :=
  names_pair (by decide) (by decide)

theorem names_passWords {text : List Char} :
    (contains text "file_path" || contains text "config") = true ↔ Names passWords text :=
  names_pair (by decide) (by decide)

theorem Names.mono {words : List String} {part text : List Char} (h : Names words part)
    (hpart : part <:+: text) : Names words text := by
  obtain ⟨word, hword, hin⟩ := h
  exact ⟨word, hword, hin.trans hpart⟩

theorem category_eq_connection {text : List Char} :
    category text = .connection ↔ Names connectionWords text := by
  rw [← names_connectionWords, category]
  split
  case isTrue h => exact iff_of_true rfl h
  case isFalse h => exact iff_of_false nofun h

theorem redact_of_connection {text : List Char} (h : Names connectionWords text) :
    redact text = Category.connection.phrase := by
  rw [redact, if_pos (names_connectionWords.mpr h)]
  rfl

theorem redact_of_passed {text : List Char} (hconnection : ¬ Names connectionWords text)
    (h : Names passWords text) : redact text = text.take 200 := by
  rw [redact, if_neg (mt names_connectionWords.mp hconnection), if_pos (names_passWords.mpr h)]

theorem redact_of_other {text : List Char} (hconnection : ¬ Names connectionWords text)
    (h : ¬ Names passWords text) : redact text = Category.query.phrase := by
  rw [redact, if_neg (mt names_connectionWords.mp hconnection),
    if_neg (mt names_passWords.mp h)]
  rfl

theorem redact_phrase (c : Category) : redact c.phrase = c.phrase := by
  cases c with
  | connection => decide +kernel
  | query => decide +kernel

theorem take_ne_phrase {text : List Char} (hconnection : ¬ Names connectionWords text)
    (h : Names passWords text) (c : Category) : text.take 200 ≠ c.phrase := by
  intro heq
  have hlength : text.length ≤ 200 := by
    have hshort : c.phrase.length < 200 := by
      cases c with
      | connection => decide
      | query => decide
    have htake := congrArg List.length heq
    rw [List.length_take] at htake
    omega
  rw [List.take_of_length_le hlength] at heq
  subst heq
  have hphrase := redact_phrase c
  cases c with
  | connection => exact hconnection (names_connectionWords.mp (by decide +kernel))
  | query => exact absurd (names_passWords.mpr h) (by decide +kernel)

/-- What is said of each text on its own: it comes out as the phrase of its category if and
only if it is neutral, else as no phrase. -/
structure Exact (wire : List Char → List Char) (text looked : List Char) : Prop where
  hidden : Neutral text looked → wire text = (category text).phrase
  shown : ¬ Neutral text looked → ∀ c : Category, wire text ≠ c.phrase

theorem hides_iff {wire : List Char → List Char} {text other looked otherLooked : List Char}
    (h : Exact wire text looked) (hother : Exact wire other otherLooked) :
    Hides wire text other ↔ Neutral text looked ∧ Neutral other otherLooked := by
  constructor
  · rintro ⟨⟨c, hc⟩, ⟨d, hd⟩, -⟩
    constructor
    · by_contra hshown
      exact h.shown hshown c hc
    · by_contra hshown
      exact hother.shown hshown d hd
  · rintro ⟨hneutral, hneutral'⟩
    refine ⟨⟨_, h.hidden hneutral⟩, ⟨_, hother.hidden hneutral'⟩, fun hsame => ?_⟩
    rw [h.hidden hneutral, hother.hidden hneutral', hsame]

theorem category_of_other {text : List Char} (h : ¬ Names connectionWords text) :
    category text = .query := by
  cases hcategory : category text with
  | connection => exact absurd (category_eq_connection.mp hcategory) h
  | query => rfl

theorem queryMessage_exact (text : List Char) : Exact queryMessage text text := by
  by_cases hconnection : Names connectionWords text
  · constructor
    · intro _
      rw [queryMessage_eq, redact_of_connection hconnection,
        category_eq_connection.mpr hconnection]
    · intro hshown
      exact absurd (Or.inl hconnection) hshown
  · constructor
    · intro hneutral
      rw [queryMessage_eq, category_of_other hconnection]
      exact redact_of_other hconnection (hneutral.resolve_left hconnection)
    · intro hshown c
      have hpass : Names passWords text := not_not.mp fun hnot => hshown (Or.inr hnot)
      rw [queryMessage_eq, redact_of_passed hconnection hpass]
      exact take_ne_phrase hconnection hpass c

theorem ddlMessage_exact (text : List Char) : Exact ddlMessage text (text.take 200) := by
  by_cases hneutral : Neutral text text
  · have hphrase : ddlMessage text = (category text).phrase := by
      rw [ddlMessage, (queryMessage_exact text).hidden hneutral, redact_phrase]
    refine ⟨fun _ => hphrase, fun hshown => ?_⟩
    rw [Neutral, not_or, not_not] at hshown
    exact absurd (hshown.2.mono (List.take_prefix 200 text).isInfix)
      (hneutral.resolve_left hshown.1)
  · rw [Neutral, not_or, not_not] at hneutral
    obtain ⟨hconnection, hpass⟩ := hneutral
    have hconnection' : ¬ Names connectionWords (text.take 200) := fun h =>
      hconnection (h.mono (List.take_prefix 200 text).isInfix)
    have hmessage : ddlMessage text = redact (text.take 200) := by
      rw [ddlMessage, queryMessage_eq, redact_of_passed hconnection hpass]
    constructor
    · intro hlooked
      rw [hmessage, category_of_other hconnection]
      exact redact_of_other hconnection' (hlooked.resolve_left hconnection)
    · intro hshown c
      have hpass' : Names passWords (text.take 200) :=
        not_not.mp fun hnot => hshown (Or.inr hnot)
      rw [hmessage, redact_of_passed hconnection' hpass']
      exact take_ne_phrase hconnection' hpass' c

/-! ## Any two texts -/

/-- Exactly the neutral texts come out as fixed phrases, those of one category as the same. -/
theorem messages_hide_iff (text other : List Char) :
    (Hides queryMessage text other ↔ Neutral text text ∧ Neutral other other) ∧
      (Hides ddlMessage text other ↔
        Neutral text (text.take 200) ∧ Neutral other (other.take 200)) :=
  ⟨hides_iff (queryMessage_exact text) (queryMessage_exact other),
    hides_iff (ddlMessage_exact text) (ddlMessage_exact other)⟩

/-- The name of a table is put on the wire. -/
theorem table_name_shown : ¬ ∀ text other, Hides queryMessage text other := by
  intro hall
  have htable := hall
    "error returned from database: 1146 (42S02): Table 'shop.app_config' doesn't exist".toList
    "error returned from database: 1146 (42S02): Table 'shop.orders' doesn't exist".toList
  have hequal := htable.equal (by decide +kernel)
  revert hequal
  decide +kernel

end Dbmaster.DbHandler.WireMessage
