import Dbmaster.Lib.Text
import Mathlib.Data.List.DropRight
/-!
# URLs as the standard reads them

The basic URL parser as far as the scheme and the host of a special URL: the blanks that are
stripped, the authority with its userinfo, the port.  The parser of hosts is a parameter.
-/

namespace Dbmaster.Lib.Url

open Dbmaster.Lib.Text

/-! ## Blanks -/

def isControlOrSpace (c : Char) : Bool := decide (c.toNat ≤ 32)

def isTabOrNewline (c : Char) : Bool := c == '\t' || c == '\n' || c == '\r'

/-- Without the blanks at the end, and without tabs and newlines. -/
def tidy (text : List Char) : List Char :=
  (text.rdropWhile isControlOrSpace).filter fun c => !isTabOrNewline c

def clean (input : List Char) : List Char := tidy (input.dropWhile isControlOrSpace)

/-! ## The scheme -/

def isSchemeChar (c : Char) : Bool := c.isAlphanum || c == '+' || c == '-' || c == '.'

/-- The scheme in lower case, and what follows its colon. -/
def splitScheme (input : List Char) : Option (List Char × List Char) :=
  if (input.head?.any Char.isAlpha) then
    match input.dropWhile isSchemeChar with
    | ':' :: rest => some (asciiLower (input.takeWhile isSchemeChar), rest)
    | _ => none
  else none

/-! ## The authority of a special URL -/

def isSlash (c : Char) : Bool := c == '/' || c == '\\'

def endsAuthority (c : Char) : Bool := isSlash c || c == '?' || c == '#'

def authorityOf (rest : List Char) : List Char :=
  (rest.dropWhile isSlash).takeWhile fun c => !endsAuthority c

/-- What stands behind the last `@`: the userinfo ends there. -/
def behindAt : List Char → Option (List Char)
  | [] => none
  | c :: rest =>
      match behindAt rest with
      | some behind => some behind
      | none => if c = '@' then some rest else none

/-- The host, and the port if a colon outside of brackets follows it. -/
def splitPort : Bool → List Char → List Char × Option (List Char)
  | _, [] => ([], none)
  | inside, c :: rest =>
      if c = ':' ∧ inside = false then ([], some rest)
      else
        let (host, port) :=
          splitPort (if c = '[' then true else if c = ']' then false else inside) rest
        (c :: host, port)

def portNumber (digits : List Char) : Nat := digits.foldl (fun n c => 10 * n + (c.toNat - 48)) 0

/-- A port is empty or a number of at most 16 bits. -/
def validPort : Option (List Char) → Bool
  | none => true
  | some digits => digits.all Char.isDigit && decide (portNumber digits ≤ 65535)

/-- The parts of a parsed URL that are used here. -/
structure Parsed (Host : Type) where
  scheme : List Char
  host : Option Host

section Parser

variable {Host : Type} (hostParser : List Char → Option Host)

def hostOf (hostAndPort : List Char) : Option Host :=
  let (host, port) := splitPort false hostAndPort
  if host.isEmpty || !validPort port then none else hostParser host

def parseSpecial (scheme rest : List Char) : Option (Parsed Host) :=
  let authority := authorityOf rest
  (hostOf hostParser ((behindAt authority).getD authority)).map fun host => ⟨scheme, some host⟩

/-- A parser that reads special URLs as the standard says. -/
structure Standard (parse : List Char → Option (Parsed Host)) : Prop where
  relative : ∀ input, splitScheme (clean input) = none → parse input = none
  special : ∀ input scheme rest, splitScheme (clean input) = some (scheme, rest) →
    String.ofList scheme ∈ ["http", "https", "ws", "wss", "ftp"] →
      parse input = parseSpecial hostParser scheme rest

end Parser

/-! ## What the parts of a text are read as -/

theorem tidy_append {xs : List Char} {c : Char} (hc : isControlOrSpace c = false)
    (ys : List Char) :
    tidy (xs ++ c :: ys) = (xs ++ [c]).filter (fun c => !isTabOrNewline c) ++ tidy ys := by
  have hdrop : (xs ++ c :: ys).rdropWhile isControlOrSpace =
      xs ++ c :: ys.rdropWhile isControlOrSpace := by
    unfold List.rdropWhile
    rw [List.reverse_append, List.reverse_cons, List.append_assoc, List.dropWhile_append]
    split
    case isTrue hempty =>
      rw [List.isEmpty_iff] at hempty
      rw [hempty, List.singleton_append, List.dropWhile_cons_of_neg (by rw [hc]; decide)]
      simp
    case isFalse => simp
  rw [tidy, hdrop, List.append_cons xs c, List.filter_append]
  rfl

theorem not_isTabOrNewline {c : Char} (h : isControlOrSpace c = false) :
    isTabOrNewline c = false := by
  have hcode := of_decide_eq_false h
  have hne : ∀ d : Char, d.toNat ≤ 32 → c ≠ d := by
    rintro d hd rfl
    exact hcode hd
  simp [isTabOrNewline, hne '\t' (by decide), hne '\n' (by decide), hne '\r' (by decide)]

theorem not_isControlOrSpace_of_isAlpha {c : Char} (h : c.isAlpha = true) :
    isControlOrSpace c = false := by
  have hcode : 65 ≤ c.toNat := by
    have hcases : (c.isUpper || c.isLower) = true := h
    rcases Bool.or_eq_true_iff.mp hcases with hupper | hlower
    · exact (of_decide_eq_true hupper).1
    · have hlow : 97 ≤ c.toNat := of_decide_eq_true (Bool.and_eq_true_iff.mp hlower).1
      omega
  exact decide_eq_false (by omega)

theorem tidy_cons {c : Char} (hc : isControlOrSpace c = false) (ys : List Char) :
    tidy (c :: ys) = c :: tidy ys := by
  have htidy := @tidy_append [] c hc ys
  rw [List.nil_append, List.nil_append,
    List.filter_cons_of_pos (by rw [not_isTabOrNewline hc]; rfl)] at htidy
  exact htidy

theorem tidy_append_of_plain {name : List Char} (h : ∀ c ∈ name, isControlOrSpace c = false)
    (tail : List Char) : tidy (name ++ tail) = name ++ tidy tail := by
  induction name with
  | nil => rfl
  | cons c name ih =>
      rw [List.cons_append, tidy_cons (h c List.mem_cons_self),
        ih fun d hd => h d (List.mem_cons_of_mem c hd), List.cons_append]

/-- What a special scheme between blanks is read as, if it is read at all. -/
theorem splitScheme_clean {left name right rest : List Char} (hname : name ≠ [])
    (halpha : ∀ c ∈ name, c.isAlpha = true) (hleft : ∀ c ∈ left, c.isAlpha = false)
    (hright : ∀ c ∈ right, isSchemeChar c = false ∧ c ≠ ':') {scheme after : List Char}
    (h : splitScheme (clean (left ++ (name ++ (right ++ ':' :: '/' :: '/' :: rest)))) =
      some (scheme, after)) :
    scheme = asciiLower name ∧ after = '/' :: '/' :: tidy rest := by
  obtain ⟨first, more, hmore⟩ := List.exists_cons_of_ne_nil hname
  have hfirst := halpha first (hmore ▸ List.mem_cons_self)
  unfold clean at h
  rw [List.dropWhile_append] at h
  split at h
  case isFalse hblank =>
    -- a blank that is no control character is left in front of the scheme
    cases hkept : left.dropWhile isControlOrSpace with
    | nil =>
        rw [hkept] at hblank
        exact absurd rfl hblank
    | cons c kept =>
        have hcontrol : isControlOrSpace c = false := by
          have hhead := List.head?_dropWhile_not isControlOrSpace left
          rw [hkept] at hhead
          exact hhead
        have hc : c ∈ left := (List.dropWhile_sublist _).subset (hkept ▸ List.mem_cons_self)
        rw [hkept, List.cons_append, tidy_cons hcontrol, splitScheme, List.head?_cons,
          Option.any_some, hleft c hc] at h
        cases h
  case isTrue hblank =>
    have hdrop : (name ++ (right ++ ':' :: '/' :: '/' :: rest)).dropWhile isControlOrSpace =
        (name ++ right ++ [':', '/']) ++ '/' :: rest := by
      rw [hmore, List.cons_append, List.dropWhile_cons_of_neg
        (by rw [not_isControlOrSpace_of_isAlpha hfirst]; decide)]
      simp
    have hkeep : name.filter (fun c => !isTabOrNewline c) = name := by
      apply List.filter_eq_self.mpr
      intro c hc
      rw [not_isTabOrNewline (not_isControlOrSpace_of_isAlpha (halpha c hc))]
      rfl
    have hscheme : ∀ c ∈ name, isSchemeChar c = true := by
      intro c hc
      simp [isSchemeChar, Char.isAlphanum, halpha c hc]
    rw [hdrop, tidy_append (by decide)] at h
    simp only [List.filter_append, hkeep, List.append_assoc] at h
    rw [splitScheme] at h
    rw [List.dropWhile_append_of_pos hscheme, List.takeWhile_append_of_pos hscheme] at h
    rw [if_pos (by rw [hmore, List.cons_append, List.head?_cons]; exact hfirst)] at h
    cases hright' : right.filter fun c => !isTabOrNewline c with
    | nil =>
        rw [hright', List.nil_append] at h
        have hnone : ([':'] ++ '/' :: '/' :: tidy rest).takeWhile isSchemeChar = [] := rfl
        change some (asciiLower (name ++ ([':'] ++ '/' :: '/' :: tidy rest).takeWhile isSchemeChar),
          '/' :: '/' :: tidy rest) = _ at h
        rw [hnone, List.append_nil] at h
        cases h
        exact ⟨rfl, rfl⟩
    | cons c more =>
        -- a blank is left between the scheme and its colon
        have hc := hright c (List.mem_of_mem_filter (hright' ▸ List.mem_cons_self))
        rw [hright', List.cons_append, List.dropWhile_cons_of_neg (by rw [hc.1]; decide)] at h
        split at h
        case h_1 after' hcolon => exact absurd (List.cons.inj hcolon).1 hc.2
        case h_2 => cases h

theorem authorityOf_append {name : List Char} (hne : name ≠ [])
    (h : ∀ c ∈ name, endsAuthority c = false) (tail : List Char) :
    authorityOf ('/' :: '/' :: (name ++ tail)) =
      name ++ tail.takeWhile fun c => !endsAuthority c := by
  obtain ⟨first, more, hmore⟩ := List.exists_cons_of_ne_nil hne
  have hfirst : ¬ isSlash first = true := by
    intro hslash
    have hends := h first (hmore ▸ List.mem_cons_self)
    rw [endsAuthority, hslash] at hends
    cases hends
  have hkeep : ∀ c ∈ name, (!endsAuthority c) = true := by
    intro c hc
    rw [h c hc]
    rfl
  unfold authorityOf
  rw [List.dropWhile_cons_of_pos (by decide), List.dropWhile_cons_of_pos (by decide),
    ← List.takeWhile_append_of_pos hkeep, hmore, List.cons_append,
    List.dropWhile_cons_of_neg hfirst]

theorem splitPort_plain {name : List Char} (h : ∀ c ∈ name, c ≠ ':' ∧ c ≠ '[') :
    splitPort false name = (name, none) ∧
      ∀ port, splitPort false (name ++ ':' :: port) = (name, some port) := by
  induction name with
  | nil => exact ⟨rfl, fun _ => rfl⟩
  | cons c name ih =>
      obtain ⟨hcolon, hbracket⟩ := h c List.mem_cons_self
      obtain ⟨hone, hboth⟩ := ih fun d hd => h d (List.mem_cons_of_mem c hd)
      have hnext : (if c = '[' then true else if c = ']' then false else false) = false := by
        rw [if_neg hbracket, ite_self]
      constructor
      · rw [splitPort, if_neg fun hc => hcolon hc.1, hnext, hone]
      · intro port
        rw [List.cons_append, splitPort, if_neg fun hc => hcolon hc.1, hnext, hboth]

theorem splitPort_brackets {inner : List Char} (h : ']' ∉ inner) :
    splitPort true inner = (inner, none) ∧
      ∀ rest, (splitPort true (inner ++ ']' :: rest)).1 =
        inner ++ ']' :: (splitPort false rest).1 := by
  induction inner with
  | nil => exact ⟨rfl, fun _ => rfl⟩
  | cons c inner ih =>
      rw [List.mem_cons, not_or] at h
      obtain ⟨hone, hboth⟩ := ih h.2
      have hnext : (if c = '[' then true else if c = ']' then false else true) = true := by
        rw [if_neg (Ne.symm h.1), ite_self]
      constructor
      · rw [splitPort, if_neg fun hc => Bool.noConfusion hc.2, hnext, hone]
      · intro rest
        rw [List.cons_append, splitPort, if_neg fun hc => Bool.noConfusion hc.2, hnext]
        exact congrArg (List.cons c) (hboth rest)

theorem hostParser_of_hostOf {Host : Type} {hostParser : List Char → Option Host}
    {text : List Char} {host : Host} (h : hostOf hostParser text = some host) :
    hostParser (splitPort false text).1 = some host := by
  unfold hostOf at h
  simp only [] at h
  split at h
  case isTrue => cases h
  case isFalse => exact h

end Dbmaster.Lib.Url
