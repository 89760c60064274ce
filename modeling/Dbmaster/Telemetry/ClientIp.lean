import Dbmaster.Lib.IpAddr
import Dbmaster.License.Format
/-!
# The client address that telemetry stores

`redact_client_ip` cuts the first entry of `X-Forwarded-For` down to a prefix by its text alone.
What it stores is compared here with the network of the address that the entry is read as.
-/

namespace Dbmaster.Telemetry.ClientIp

open Dbmaster.Lib Dbmaster.Lib.IpAddr
open Dbmaster.License.Format (parseU8)

/-! ## The redaction -/

def unknown : List Char := "unknown".toList

/-- The first three octets and a zero. -/
def dotted (p q r : List Char) : List Char := p ++ '.' :: (q ++ '.' :: (r ++ ".0".toList))

def redactIpv4 (s : List Char) : List Char :=
  match s.splitOn '.' with
  | [p, q, r, t] =>
      if [p, q, r, t].all fun part => (parseU8 part).isSome then dotted p q r else unknown
  | _ => unknown

def redactIpStr (raw : List Char) : List Char :=
  match Text.stripPrefix "::ffff:" raw with
  | some stripped => redactIpv4 stripped
  | none =>
      if ':' ∈ raw then
        let groups := raw.splitOn ':'
        if 4 ≤ groups.length ∧ (groups.take 3).all (fun g => !g.isEmpty) = true then
          [':'].intercalate (groups.take 3) ++ ":0".toList
        else unknown
      else redactIpv4 raw

section Header

/-! The value of the header is text if it is visible ASCII. -/

variable {Value : Type} (toStr : Value → Option (List Char))

def firstEntry (value : Option Value) : List Char :=
  (((value.bind toStr).bind fun s => (s.splitOn ',').head?).map Text.trim).getD []

def redactClientIp (value : Option Value) : List Char :=
  let raw := firstEntry toStr value
  if raw.isEmpty then unknown else redactIpStr raw

end Header

/-! ## What should be stored -/

def networkOf (entry : List Char) : Option Network := (readAddress entry).map network

/-- Nothing, the first 24 bits of an IPv4 address or the first 48 of an IPv6 address. -/
def Coarse (text : List Char) : Prop :=
  text = unknown ∨
    (∃ a b c : Octet, text = dotted (Nat.toDigits 10 a) (Nat.toDigits 10 b) (Nat.toDigits 10 c)) ∨
    ∃ p q r, (∀ piece ∈ [p, q, r], (readGroup piece).isSome = true) ∧
      text = [':'].intercalate [p, q, r] ++ ":0".toList

/-- What is stored is a network, and that only for an address. -/
structure Sound {Value : Type} (toStr : Value → Option (List Char)) (value : Option Value) :
    Prop where
  coarse : Coarse (redactClientIp toStr value)
  unparseable : readAddress (firstEntry toStr value) = none → redactClientIp toStr value = unknown

/-- And the same for all addresses of a network. -/
structure Private {Value : Type} (toStr : Value → Option (List Char))
    (value value' : Option Value) : Prop where
  left : Sound toStr value
  right : Sound toStr value'
  same : ∀ n, networkOf (firstEntry toStr value) = some n →
    networkOf (firstEntry toStr value') = some n →
      redactClientIp toStr value = redactClientIp toStr value'

/-! ## The spellings -/

/-- The text that is looked at as an IPv4 address. -/
def dottedText (entry : List Char) : List Char :=
  (Text.stripPrefix "::ffff:" entry).getD entry

/-- The four numbers of a byte each in the place of an IPv4 address. -/
def octetsOf (entry : List Char) : Option (List (List Char)) :=
  match (dottedText entry).splitOn '.' with
  | [p, q, r, t] =>
      if [p, q, r, t].all fun part => (parseU8 part).isSome then some [p, q, r, t] else none
  | _ => none

/-- The first three of at least four groups, if all three are written out. -/
def groupsOf (entry : List Char) : Option (List (List Char)) :=
  let groups := entry.splitOn ':'
  if 4 ≤ groups.length ∧ (groups.take 3).all (fun g => !g.isEmpty) = true then
    some (groups.take 3)
  else none

/-- Numbers have neither a sign nor a superfluous zero, and what has three groups and a fourth
is an address. -/
structure Tame (entry : List Char) : Prop where
  octets : ∀ parts, octetsOf entry = some parts → ∀ part ∈ parts,
    part.head? ≠ some '+' ∧ (part.head? = some '0' → part.length = 1)
  groups : ∀ gs, groupsOf entry = some gs → (readV6 entry).isSome = true

/-- Both or neither are written with dots, and with the same three groups if with any. -/
def Alike (entry entry' : List Char) : Prop :=
  (octetsOf entry).isSome = (octetsOf entry').isSome ∧ groupsOf entry = groupsOf entry'

/-! ## What is stored for a spelling -/

theorem mem_of_parseU8 {part : List Char} (h : (parseU8 part).isSome = true) {c : Char}
    (hc : c ∈ part) : c.isDigit = true ∨ c = '+' := by
  have hdigits : ∀ text n, parseU8 text = some n → ∃ digits : List Char,
      (text = digits ∨ text = '+' :: digits) ∧ digits.all Char.isDigit = true := by
    intro text n hread
    unfold parseU8 at hread
    simp only [] at hread
    split at hread
    case h_1 c' rest =>
      rw [Option.ite_none_right_eq_some] at hread
      exact ⟨c' :: rest, .inr rfl, hread.1.2.1⟩
    case h_2 =>
      rw [Option.ite_none_right_eq_some] at hread
      exact ⟨text, .inl rfl, hread.1.2.1⟩
  obtain ⟨n, hn⟩ := Option.isSome_iff_exists.mp h
  obtain ⟨digits, rfl | rfl, hall⟩ := hdigits part n hn
  · exact .inl (List.all_eq_true.mp hall c hc)
  · rcases List.mem_cons.mp hc with rfl | hc
    · exact .inr rfl
    · exact .inl (List.all_eq_true.mp hall c hc)

theorem colon_notMem_of_parseU8 {part : List Char} (h : (parseU8 part).isSome = true) :
    ':' ∉ part := by
  intro hcolon
  rcases mem_of_parseU8 h hcolon with hdigit | hplus
  · cases hdigit
  · cases hplus

theorem octetsOf_eq_some {entry : List Char} {parts : List (List Char)}
    (h : octetsOf entry = some parts) : ∃ p q r t, parts = [p, q, r, t] ∧
      (dottedText entry).splitOn '.' = [p, q, r, t] ∧
      ∀ part ∈ [p, q, r, t], (parseU8 part).isSome = true := by
  unfold octetsOf at h
  split at h
  case h_1 p q r t hsplit =>
    split at h
    case isTrue hall =>
      cases h
      exact ⟨p, q, r, t, rfl, hsplit, List.all_eq_true.mp hall⟩
    case isFalse => cases h
  case h_2 => cases h

theorem groupsOf_eq_some {entry : List Char} {gs : List (List Char)}
    (h : groupsOf entry = some gs) : ∃ p q r s rest, gs = [p, q, r] ∧
      entry.splitOn ':' = p :: q :: r :: s :: rest ∧ ∀ piece ∈ [p, q, r], piece ≠ [] := by
  unfold groupsOf at h
  simp only [] at h
  split at h
  case isTrue hall =>
    cases h
    match hsplit : entry.splitOn ':' with
    | p :: q :: r :: s :: rest =>
        rw [hsplit] at hall
        have hne := List.all_eq_true.mp hall.2
        refine ⟨p, q, r, s, rest, rfl, rfl, fun piece hpiece hnil => ?_⟩
        have hpiece' := hne piece hpiece
        rw [hnil] at hpiece'
        cases hpiece'
    | [] | [_] | [_, _] | [_, _, _] =>
        rw [hsplit] at hall
        exact absurd hall.1 (by simp)
  case isFalse => cases h

theorem eq_of_dottedText {entry : List Char} :
    entry = dottedText entry ∨ entry = "::ffff:".toList ++ dottedText entry := by
  unfold dottedText
  cases hstrip : Text.stripPrefix "::ffff:" entry with
  | none => exact .inl rfl
  | some stripped => exact .inr (Text.stripPrefix_eq_some_iff.mp hstrip)

theorem dottedText_chars {entry : List Char} {parts : List (List Char)}
    (h : octetsOf entry = some parts) : ':' ∉ dottedText entry ∧ '.' ∈ dottedText entry := by
  obtain ⟨p, q, r, t, rfl, hsplit, hparse⟩ := octetsOf_eq_some h
  constructor
  · intro hcolon
    obtain ⟨piece, hpiece, hin⟩ := @Text.exists_mem_splitOn '.' ':' (by decide) _ hcolon
    exact colon_notMem_of_parseU8 (hparse piece (hsplit ▸ hpiece)) hin
  · by_contra hdot
    rw [List.splitOn_eq_singleton hdot] at hsplit
    cases hsplit

theorem colon_mem_of_groupsOf {entry : List Char} {gs : List (List Char)}
    (h : groupsOf entry = some gs) : ':' ∈ entry := by
  obtain ⟨p, q, r, s, rest, _, hsplit, _⟩ := groupsOf_eq_some h
  by_contra hcolon
  rw [List.splitOn_eq_singleton hcolon] at hsplit
  cases hsplit

/-- What starts with `::ffff:` has no first group. -/
theorem groupsOf_mapped (text : List Char) : groupsOf ("::ffff:".toList ++ text) = none := by
  apply Option.eq_none_iff_forall_ne_some.mpr
  intro gs hgs
  obtain ⟨p, q, r, s, rest, _, hsplit, hne⟩ := groupsOf_eq_some hgs
  have hfirst : ("::ffff:".toList ++ text).splitOn ':' =
      [] :: (":ffff:".toList ++ text).splitOn ':' :=
    List.splitOn_append_cons_self [] (":ffff:".toList ++ text)
  rw [hfirst] at hsplit
  exact hne p (by simp) (List.cons.inj hsplit).1.symm

theorem groupsOf_of_octetsOf {entry : List Char} {parts : List (List Char)}
    (h : octetsOf entry = some parts) : groupsOf entry = none := by
  rcases @eq_of_dottedText entry with hplain | hmapped
  · apply Option.eq_none_iff_forall_ne_some.mpr
    intro gs hgs
    exact (dottedText_chars h).1 (hplain ▸ colon_mem_of_groupsOf hgs)
  · rw [hmapped]
    exact groupsOf_mapped _

theorem redactIpv4_of_octets {entry : List Char} {p q r t : List Char}
    (h : octetsOf entry = some [p, q, r, t]) : redactIpv4 (dottedText entry) = dotted p q r := by
  obtain ⟨_, _, _, _, hparts, hsplit, hparse⟩ := octetsOf_eq_some h
  cases hparts
  rw [redactIpv4, hsplit]
  exact if_pos (List.all_eq_true.mpr hparse)

theorem redactIpv4_of_none {entry : List Char} (h : octetsOf entry = none) :
    redactIpv4 (dottedText entry) = unknown := by
  unfold octetsOf at h
  unfold redactIpv4
  split
  case h_1 p q r t hsplit =>
    rw [hsplit] at h
    split
    case isTrue hall =>
      simp only [] at h
      rw [if_pos hall] at h
      cases h
    case isFalse => rfl
  case h_2 => rfl

theorem redactIpStr_of_octets {entry : List Char} {p q r t : List Char}
    (h : octetsOf entry = some [p, q, r, t]) : redactIpStr entry = dotted p q r := by
  have hredact := redactIpv4_of_octets h
  have hcolon := (dottedText_chars h).1
  unfold redactIpStr
  unfold dottedText at hredact hcolon
  cases hstrip : Text.stripPrefix "::ffff:" entry with
  | some stripped =>
      rw [hstrip] at hredact
      exact hredact
  | none =>
      rw [hstrip] at hredact hcolon
      exact (if_neg hcolon).trans hredact

theorem redactIpStr_of_groups {entry : List Char} {gs : List (List Char)}
    (h : groupsOf entry = some gs) : redactIpStr entry = [':'].intercalate gs ++ ":0".toList := by
  have hcolon := colon_mem_of_groupsOf h
  cases hstrip : Text.stripPrefix "::ffff:" entry with
  | some stripped =>
      rw [Text.stripPrefix_eq_some_iff.mp hstrip, groupsOf_mapped] at h
      cases h
  | none =>
      unfold groupsOf at h
      simp only [] at h
      split at h
      case isTrue hall =>
        cases h
        unfold redactIpStr
        rw [hstrip]
        simp only []
        rw [if_pos hcolon, if_pos hall]
      case isFalse => cases h

theorem redactIpStr_of_none {entry : List Char} (hoctets : octetsOf entry = none)
    (hgroups : groupsOf entry = none) : redactIpStr entry = unknown := by
  have hredact := redactIpv4_of_none hoctets
  unfold redactIpStr
  unfold dottedText at hredact
  cases hstrip : Text.stripPrefix "::ffff:" entry with
  | some stripped =>
      rw [hstrip] at hredact
      exact hredact
  | none =>
      rw [hstrip] at hredact
      simp only []
      split
      case isTrue =>
        unfold groupsOf at hgroups
        simp only [] at hgroups
        split at hgroups
        case isTrue => cases hgroups
        case isFalse hall => rw [if_neg hall]
      case isFalse => exact hredact

/-! ## What an entry is read as -/

theorem readAddress_of_colon {entry : List Char} (h : ':' ∈ entry) :
    readAddress entry = (readV6 entry).map .v6 := by
  have hnone : readV4 entry = none := by
    apply Option.eq_none_iff_forall_ne_some.mpr
    intro x hx
    rcases mem_of_readV4 hx h with hdigit | hdot
    · cases hdigit
    · cases hdot
  rw [readAddress, hnone]
  rfl

theorem networkOf_of_octets {entry : List Char} {parts : List (List Char)}
    (h : octetsOf entry = some parts) :
    networkOf entry = (readV4 (dottedText entry)).map V4.network := by
  obtain ⟨hcolon, hdot⟩ := dottedText_chars h
  rcases @eq_of_dottedText entry with hplain | hmapped
  · have hnone : readV6 entry = none := by
      apply Option.eq_none_iff_forall_ne_some.mpr
      intro x hx
      exact hcolon (hplain ▸ colon_mem_of_readV6 hx)
    rw [networkOf, readAddress, hnone, ← hplain]
    cases readV4 entry <;> rfl
  · have hread : readV6 entry = (readV4 (dottedText entry)).map V4.mapped :=
      (congrArg readV6 hmapped).trans (readV6_mapped hcolon hdot)
    have hin : ':' ∈ entry := by
      rw [hmapped]
      exact List.mem_append_left _ (by decide)
    rw [networkOf, readAddress_of_colon hin, hread]
    cases readV4 (dottedText entry) with
    | none => rfl
    | some x => simp [network]

theorem plain_of_readOctet {part : List Char} {n : Octet} (h : readOctet part = some n) :
    part.head? ≠ some '+' ∧ (part.head? = some '0' → part.length = 1) := by
  refine ⟨fun hplus => ?_, ?_⟩
  · have hdigit := (readOctet_eq_some h).2 '+' (List.mem_of_mem_head? hplus)
    cases hdigit
  · unfold readOctet at h
    split at h
    case isTrue hread => exact hread.1.2.2
    case isFalse => cases h

theorem readOctet_of_plain {part : List Char} (h : (parseU8 part).isSome = true)
    (hplus : part.head? ≠ some '+') (hzero : part.head? = some '0' → part.length = 1) :
    ∃ n, readOctet part = some n := by
  obtain ⟨n, hn⟩ := Option.isSome_iff_exists.mp h
  unfold parseU8 at hn
  simp only [] at hn
  split at hn
  case h_1 => exact absurd rfl hplus
  case h_2 =>
    rw [Option.ite_none_right_eq_some] at hn
    exact ⟨_, dif_pos ⟨⟨hn.1.1, hn.1.2.1, hzero⟩, hn.1.2.2⟩⟩

/-- The numbers are an IPv4 address just when each of them has one spelling. -/
theorem readV4_of_octets {entry : List Char} {parts : List (List Char)}
    (h : octetsOf entry = some parts) :
    (readV4 (dottedText entry)).isSome = true ↔
      ∀ part ∈ parts, part.head? ≠ some '+' ∧ (part.head? = some '0' → part.length = 1) := by
  obtain ⟨p, q, r, t, rfl, hsplit, hparse⟩ := octetsOf_eq_some h
  constructor
  · intro hsome
    obtain ⟨x, hx⟩ := Option.isSome_iff_exists.mp hsome
    obtain ⟨_, _, _, _, hparts, hp, hq, hr, ht⟩ := readV4_eq_some hx
    rw [hsplit] at hparts
    cases hparts
    simp only [List.forall_mem_cons, List.not_mem_nil, false_imp_iff, implies_true, and_true]
    exact ⟨plain_of_readOctet hp, plain_of_readOctet hq, plain_of_readOctet hr,
      plain_of_readOctet ht⟩
  · intro hplain
    have hread : ∀ part ∈ [p, q, r, t], ∃ n, readOctet part = some n := fun part hpart =>
      readOctet_of_plain (hparse part hpart) (hplain part hpart).1 (hplain part hpart).2
    obtain ⟨a, ha⟩ := hread p (by simp)
    obtain ⟨b, hb⟩ := hread q (by simp)
    obtain ⟨c, hc⟩ := hread r (by simp)
    obtain ⟨d, hd⟩ := hread t (by simp)
    rw [readV4, hsplit]
    simp [ha, hb, hc, hd]

theorem dotted_of_readV4 {entry : List Char} {p q r t : List Char} {x : V4}
    (h : octetsOf entry = some [p, q, r, t]) (hread : readV4 (dottedText entry) = some x) :
    dotted p q r = dotted (Nat.toDigits 10 x.a) (Nat.toDigits 10 x.b) (Nat.toDigits 10 x.c) := by
  obtain ⟨_, _, _, _, hparts, hsplit, _⟩ := octetsOf_eq_some h
  cases hparts
  obtain ⟨_, _, _, _, hparts, hp, hq, hr, _⟩ := readV4_eq_some hread
  rw [hsplit] at hparts
  cases hparts
  rw [← (readOctet_eq_some hp).1, ← (readOctet_eq_some hq).1, ← (readOctet_eq_some hr).1]

/-! ## What is stored tells how the entry is spelled -/

theorem redact_chars_of_octets {entry : List Char} {parts : List (List Char)}
    (h : octetsOf entry = some parts) : ':' ∉ redactIpStr entry ∧ '.' ∈ redactIpStr entry := by
  obtain ⟨p, q, r, t, rfl, hsplit, hparse⟩ := octetsOf_eq_some h
  have hno : ∀ part ∈ [p, q, r, t], ':' ∉ part := fun part hpart =>
    colon_notMem_of_parseU8 (hparse part hpart)
  rw [redactIpStr_of_octets h]
  simp [dotted, hno p (by simp), hno q (by simp), hno r (by simp)]

theorem splitOn_redact_of_groups {entry : List Char} {gs : List (List Char)}
    (h : groupsOf entry = some gs) :
    (redactIpStr entry).splitOn ':' = gs ++ [['0']] ∧ gs.length = 3 := by
  rw [redactIpStr_of_groups h]
  obtain ⟨p, q, r, s, rest, rfl, hsplit, _⟩ := groupsOf_eq_some h
  have hno : ∀ piece ∈ [p, q, r] ++ [['0']], ':' ∉ piece := by
    intro piece hpiece
    rcases List.mem_append.mp hpiece with hpiece | hpiece
    · have hin : piece ∈ entry.splitOn ':' := by
        rw [hsplit]
        exact List.mem_append_left (s :: rest) hpiece
      exact Text.notMem_of_mem_splitOn hin
    · rw [List.mem_singleton.mp hpiece]
      decide
  have htext : [':'].intercalate [p, q, r] ++ ":0".toList =
      [':'].intercalate ([p, q, r] ++ [['0']]) := by
    simp [List.intercalate]
  rw [htext, List.splitOn_intercalate ':' hno (List.cons_ne_nil _ _)]
  exact ⟨rfl, rfl⟩

/-- The groups that are stored. -/
def storedGroups (stored : List Char) : Option (List (List Char)) :=
  if ':' ∈ stored then some ((stored.splitOn ':').take 3) else none

theorem unknown_chars : ':' ∉ unknown ∧ '.' ∉ unknown := by decide

theorem groupsOf_eq_storedGroups (entry : List Char) :
    groupsOf entry = storedGroups (redactIpStr entry) := by
  cases hoctets : octetsOf entry with
  | some parts =>
      rw [groupsOf_of_octetsOf hoctets, storedGroups,
        if_neg (redact_chars_of_octets hoctets).1]
  | none =>
      cases hgroups : groupsOf entry with
      | some gs =>
          obtain ⟨hsplit, hlength⟩ := splitOn_redact_of_groups hgroups
          have hcolon : ':' ∈ redactIpStr entry := by
            rw [redactIpStr_of_groups hgroups]
            exact List.mem_append_right _ (by decide)
          rw [storedGroups, if_pos hcolon, hsplit, ← hlength, List.take_left]
      | none =>
          rw [redactIpStr_of_none hoctets hgroups, storedGroups, if_neg unknown_chars.1]

theorem octetsOf_isSome (entry : List Char) :
    (octetsOf entry).isSome = true ↔ ':' ∉ redactIpStr entry ∧ '.' ∈ redactIpStr entry := by
  cases hoctets : octetsOf entry with
  | some parts => exact iff_of_true rfl (redact_chars_of_octets hoctets)
  | none =>
      refine iff_of_false nofun fun h => ?_
      cases hgroups : groupsOf entry with
      | some gs =>
          apply h.1
          rw [redactIpStr_of_groups hgroups]
          exact List.mem_append_right _ (by decide)
      | none =>
          rw [redactIpStr_of_none hoctets hgroups] at h
          exact unknown_chars.2 h.2

theorem alike_of_redact_eq {entry entry' : List Char}
    (h : redactIpStr entry = redactIpStr entry') : Alike entry entry' := by
  constructor
  · rw [Bool.eq_iff_iff, octetsOf_isSome, octetsOf_isSome, h]
  · rw [groupsOf_eq_storedGroups, groupsOf_eq_storedGroups, h]

/-! ## Who is kept apart -/

section Header

variable {Value : Type} {toStr : Value → Option (List Char)}

theorem redactClientIp_eq (value : Option Value) :
    redactClientIp toStr value = redactIpStr (firstEntry toStr value) := by
  unfold redactClientIp
  simp only []
  split
  case isTrue hempty =>
    rw [List.isEmpty_iff.mp hempty]
    rfl
  case isFalse => rfl

theorem readV4_of_networkOf {entry : List Char} {parts : List (List Char)}
    (h : octetsOf entry = some parts) (hread : readAddress entry ≠ none) :
    (readV4 (dottedText entry)).isSome = true := by
  have hnetwork := networkOf_of_octets h
  rw [Option.isSome_iff_ne_none]
  intro hnone
  rw [hnone] at hnetwork
  exact hread (Option.map_eq_none_iff.mp hnetwork)

theorem tame_of_sound {entry : List Char}
    (h : readAddress entry = none → redactIpStr entry = unknown) : Tame entry where
  octets parts hparts := by
    apply (readV4_of_octets hparts).mp
    refine readV4_of_networkOf hparts fun hnone => ?_
    have hdot := (redact_chars_of_octets hparts).2
    rw [h hnone] at hdot
    exact unknown_chars.2 hdot
  groups gs hgs := by
    have hread := readAddress_of_colon (colon_mem_of_groupsOf hgs)
    rw [Option.isSome_iff_ne_none]
    intro hnone
    rw [hnone] at hread
    have hsplit := (splitOn_redact_of_groups hgs).1
    rw [h hread, List.splitOn_eq_singleton unknown_chars.1] at hsplit
    obtain ⟨_, _, _, _, _, rfl, _⟩ := groupsOf_eq_some hgs
    cases hsplit

/-- What is stored for a tame entry with numbers is the network of its address. -/
theorem redact_of_tame {entry : List Char} (h : Tame entry) {parts : List (List Char)}
    (hparts : octetsOf entry = some parts) :
    ∃ x : V4, networkOf entry = some x.network ∧ redactIpStr entry =
      dotted (Nat.toDigits 10 x.a) (Nat.toDigits 10 x.b) (Nat.toDigits 10 x.c) := by
  obtain ⟨x, hx⟩ :=
    Option.isSome_iff_exists.mp ((readV4_of_octets hparts).mpr (h.octets parts hparts))
  refine ⟨x, by rw [networkOf_of_octets hparts, hx, Option.map_some], ?_⟩
  obtain ⟨p, q, r, t, rfl, _⟩ := octetsOf_eq_some hparts
  rw [redactIpStr_of_octets hparts, dotted_of_readV4 hparts hx]

theorem coarse_of_tame {entry : List Char} (h : Tame entry) : Coarse (redactIpStr entry) := by
  cases hoctets : octetsOf entry with
  | some parts =>
      obtain ⟨x, _, hstored⟩ := redact_of_tame h hoctets
      exact .inr (.inl ⟨x.a, x.b, x.c, hstored⟩)
  | none =>
      cases hgroups : groupsOf entry with
      | some gs =>
          obtain ⟨x, hx⟩ := Option.isSome_iff_exists.mp (h.groups gs hgroups)
          rw [redactIpStr_of_groups hgroups]
          obtain ⟨p, q, r, s, rest, rfl, hsplit, hne⟩ := groupsOf_eq_some hgroups
          exact .inr (.inr ⟨p, q, r, readGroup_of_readV6 hx hsplit hne, rfl⟩)
      | none => exact .inl (redactIpStr_of_none hoctets hgroups)

theorem unparseable_of_tame {entry : List Char} (h : Tame entry)
    (hnone : readAddress entry = none) : redactIpStr entry = unknown := by
  cases hoctets : octetsOf entry with
  | some parts =>
      obtain ⟨x, hx, _⟩ := redact_of_tame h hoctets
      rw [networkOf, hnone] at hx
      cases hx
  | none =>
      cases hgroups : groupsOf entry with
      | some gs =>
          obtain ⟨x, hx⟩ := Option.isSome_iff_exists.mp (h.groups gs hgroups)
          rw [readAddress_of_colon (colon_mem_of_groupsOf hgroups), hx] at hnone
          cases hnone
      | none => exact redactIpStr_of_none hoctets hgroups

theorem sound_iff (value : Option Value) : Sound toStr value ↔ Tame (firstEntry toStr value) := by
  constructor
  · intro h
    apply tame_of_sound
    rw [← redactClientIp_eq]
    exact h.unparseable
  · intro h
    constructor
    · rw [redactClientIp_eq]
      exact coarse_of_tame h
    · rw [redactClientIp_eq]
      exact unparseable_of_tame h

theorem redact_eq_iff {entry entry' : List Char} (h : Tame entry) (h' : Tame entry') {n : Network}
    (hn : networkOf entry = some n) (hn' : networkOf entry' = some n) :
    redactIpStr entry = redactIpStr entry' ↔ Alike entry entry' := by
  refine ⟨alike_of_redact_eq, fun ⟨hdotted, hgroups⟩ => ?_⟩
  cases hoctets : octetsOf entry with
  | some parts =>
      rw [hoctets] at hdotted
      obtain ⟨parts', hoctets'⟩ := Option.isSome_iff_exists.mp hdotted.symm
      obtain ⟨x, hx, hstored⟩ := redact_of_tame h hoctets
      obtain ⟨y, hy, hstored'⟩ := redact_of_tame h' hoctets'
      have hsame : x.network = y.network :=
        (Option.some.inj (hx.symm.trans hn)).trans (Option.some.inj (hn'.symm.trans hy))
      obtain ⟨ha, hb, hc⟩ := Network.v4.inj hsame
      rw [hstored, hstored', ha, hb, hc]
  | none =>
      rw [hoctets] at hdotted
      have hoctets' : octetsOf entry' = none := by
        rw [← Option.not_isSome_iff_eq_none, ← hdotted]
        simp
      cases hgroups' : groupsOf entry' with
      | some gs =>
          rw [redactIpStr_of_groups (hgroups.trans hgroups'), redactIpStr_of_groups hgroups']
      | none =>
          rw [redactIpStr_of_none hoctets (hgroups.trans hgroups'),
            redactIpStr_of_none hoctets' hgroups']

/-- Two headers are kept private just when no stray text is taken for an address in either, and
addresses of one network are spelled alike. -/
theorem private_iff (value value' : Option Value) :
    Private toStr value value' ↔
      Tame (firstEntry toStr value) ∧ Tame (firstEntry toStr value') ∧
        ∀ n, networkOf (firstEntry toStr value) = some n →
          networkOf (firstEntry toStr value') = some n →
            Alike (firstEntry toStr value) (firstEntry toStr value') := by
  constructor
  · rintro ⟨hleft, hright, hsame⟩
    refine ⟨(sound_iff value).mp hleft, (sound_iff value').mp hright, fun n hn hn' => ?_⟩
    apply alike_of_redact_eq
    rw [← redactClientIp_eq, ← redactClientIp_eq]
    exact hsame n hn hn'
  · rintro ⟨hleft, hright, halike⟩
    refine ⟨(sound_iff value).mpr hleft, (sound_iff value').mpr hright, fun n hn hn' => ?_⟩
    rw [redactClientIp_eq, redactClientIp_eq]
    exact (redact_eq_iff hleft hright hn hn').mpr (halike n hn hn')

end Header

/-- A text that is no address is stored, and an address in two spellings as two texts. -/
theorem stray_and_compressed :
    ¬ Private (fun text : List Char => some text) (some "203.0.113.45:1:2:3".toList)
        (some "203.0.113.45:1:2:3".toList) ∧
      ¬ Private (fun text : List Char => some text) (some "2001:db8::1".toList)
        (some "2001:db8:0:0:0:0:0:1".toList) := by
  constructor
  · intro h
    have hstored := h.left.unparseable (by decide)
    exact absurd hstored (by decide)
  · intro h
    have hstored := h.same (.v6 [0x2001, 0xdb8, 0]) (by decide) (by decide)
    exact absurd hstored (by decide)

end Dbmaster.Telemetry.ClientIp
