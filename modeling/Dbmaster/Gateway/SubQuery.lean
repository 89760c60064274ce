import Dbmaster.Lib.FormUrl
import Dbmaster.Lib.Text
/-!
# Subscription queries

`parse_redis_sub_query`: the channels and patterns of a query string.  A slice that does not
end at a character boundary panics.
-/

namespace Dbmaster.Gateway.SubQuery

open Dbmaster.Lib Dbmaster.Lib.Text

/-! ## Decoding -/

/-- The loop of `percent_decode` at a byte, after `skip` more; without a value it panics. -/
def decodeFrom : Nat → List UInt8 → Option (List UInt8)
  | _, [] => some []
  | skip + 1, _ :: bytes => decodeFrom skip bytes
  | 0, b :: bytes =>
      if b = 37 ∧ 2 ≤ bytes.length then
        -- `&s[i + 1..i + 3]`
        if Utf8.isBoundary bytes && Utf8.isBoundary (bytes.drop 2) then
          match Hex.parseByte (Utf8.lossy (bytes.take 2)) with
          | some byte => (decodeFrom 2 bytes).map (byte :: ·)
          | none => (decodeFrom 0 bytes).map (b :: ·)
        else none
      else if b = 43 then (decodeFrom 0 bytes).map (32 :: ·)
      else (decodeFrom 0 bytes).map (b :: ·)

def percentDecode (s : List Char) : Option (List Char) :=
  (decodeFrom 0 (Utf8.encode s)).map Utf8.lossy

structure Acc where
  channels : List (List Char)
  patterns : List (List Char)

def Acc.push (acc : Acc) (key value : List Char) : Acc :=
  if key = "channels".toList then { acc with channels := acc.channels ++ [value] }
  else if key = "patterns".toList then { acc with patterns := acc.patterns ++ [value] }
  else acc

/-- One round of the loop over the pairs. -/
def readPair (acc : Acc) (pair : List Char) : Option Acc :=
  match splitOnce '=' pair with
  | some (key, value) => (percentDecode value).map fun value => acc.push key value
  | none => some (acc.push pair [])

def pairsOf (query : List Char) : List (List Char) := (query.splitOn '&').filter (· ≠ [])

/-- The channels and the patterns, unless it panics. -/
def parseRedisSubQuery (raw : Option (List Char)) :
    Option (List (List Char) × List (List Char)) :=
  match raw with
  | none => some ([], [])
  | some query =>
      ((pairsOf query).foldlM readPair ⟨[], []⟩).map fun acc => (acc.channels, acc.patterns)

/-! ## What should hold -/

/-- The query of the form encoding for these channels and patterns. -/
def formQuery (channels patterns : List (List Char)) : List Char :=
  ['&'].intercalate
    (channels.map (fun name => "channels".toList ++ '=' :: FormUrl.encode name) ++
      patterns.map (fun name => "patterns".toList ++ '=' :: FormUrl.encode name))

/-- The first two bytes of the text are whole characters, or there are no two. -/
def twoBytes : List Char → Bool
  | [] => true
  | [c] => c.utf8Size ≤ 2
  | c :: d :: _ => c.utf8Size = 2 || (c.utf8Size = 1 && d.utf8Size = 1)

/-- Two bytes can be cut out behind every percent sign. -/
def sliceable : List Char → Bool
  | [] => true
  | c :: text => (c ≠ '%' || twoBytes text) && sliceable text

/-- The values of the pairs of a query are sliceable. -/
def Sliceable (raw : Option (List Char)) : Prop :=
  ∀ query ∈ raw, ∀ pair ∈ pairsOf query, ∀ key value,
    splitOnce '=' pair = some (key, value) → sliceable value = true

/-! ## Bytes and characters -/

theorem decodeFrom_eq (skip : Nat) (bytes : List UInt8) :
    decodeFrom skip bytes = decodeFrom 0 (bytes.drop skip) := by
  induction bytes generalizing skip with
  | nil =>
      rw [List.drop_nil]
      cases skip <;> rfl
  | cons b bytes ih =>
      cases skip with
      | zero => rfl
      | succ skip => exact ih skip

theorem decodeFrom_other {b : UInt8} (hpercent : b ≠ 37) (hplus : b ≠ 43) (bytes : List UInt8) :
    decodeFrom 0 (b :: bytes) = (decodeFrom 0 bytes).map (b :: ·) := by
  rw [decodeFrom, if_neg (fun h => hpercent h.1), if_neg hplus]

theorem decodeFrom_append {bytes : List UInt8} (h : ∀ b ∈ bytes, b ≠ 37 ∧ b ≠ 43)
    (rest : List UInt8) :
    decodeFrom 0 (bytes ++ rest) = (decodeFrom 0 rest).map (bytes ++ ·) := by
  induction bytes with
  | nil => simp
  | cons b bytes ih =>
      obtain ⟨hpercent, hplus⟩ := h b List.mem_cons_self
      rw [List.cons_append, decodeFrom_other hpercent hplus,
        ih fun c hc => h c (List.mem_cons_of_mem b hc), Option.map_map]
      rfl

/-- Only `%` and `+` are encoded with their bytes. -/
theorem not_special_of_mem {c : Char} (hpercent : c ≠ '%') (hplus : c ≠ '+') :
    ∀ b ∈ String.utf8EncodeChar c, b ≠ 37 ∧ b ≠ 43 := by
  intro b hb
  constructor
  · rintro rfl
    exact hpercent (Char.ext (UInt32.toNat_inj.mp (Utf8.toNat_of_mem hb (by decide))))
  · rintro rfl
    exact hplus (Char.ext (UInt32.toNat_inj.mp (Utf8.toNat_of_mem hb (by decide))))

theorem decodeFrom_char {c : Char} (hpercent : c ≠ '%') (hplus : c ≠ '+') (text : List Char) :
    decodeFrom 0 (Utf8.encode (c :: text)) =
      (decodeFrom 0 (Utf8.encode text)).map (String.utf8EncodeChar c ++ ·) := by
  rw [Utf8.encode_cons]
  exact decodeFrom_append (not_special_of_mem hpercent hplus) _

theorem decodeFrom_plus (text : List Char) :
    decodeFrom 0 (Utf8.encode ('+' :: text)) =
      (decodeFrom 0 (Utf8.encode text)).map (32 :: ·) := by
  rw [Utf8.encode_cons, Utf8.encodeChar_of_ascii (by decide)]
  rfl

theorem encode_percent (text : List Char) :
    Utf8.encode ('%' :: text) = 37 :: Utf8.encode text := by
  rw [Utf8.encode_cons, Utf8.encodeChar_of_ascii (by decide)]
  rfl

theorem length_encode_cons (c : Char) (text : List Char) :
    (Utf8.encode (c :: text)).length = c.utf8Size + (Utf8.encode text).length := by
  rw [Utf8.encode_cons, List.length_append, String.length_utf8EncodeChar]

theorem isBoundary_drop_two {text : List Char} (h : 2 ≤ (Utf8.encode text).length) :
    Utf8.isBoundary ((Utf8.encode text).drop 2) = twoBytes text := by
  cases text with
  | nil => exact absurd h (by decide)
  | cons c text =>
      rw [length_encode_cons] at h
      rcases Nat.lt_trichotomy c.utf8Size 2 with hone | htwo | hmore
      · have hsize : c.utf8Size = 1 := Nat.le_antisymm (Nat.le_of_lt_succ hone) c.utf8Size_pos
        have hascii := Utf8.utf8Size_eq_one_iff.mp hsize
        cases text with
        | nil =>
            rw [hsize] at h
            exact absurd h (by decide)
        | cons d text =>
            have hdrop : (Utf8.encode (c :: d :: text)).drop 2 =
                (Utf8.encode (d :: text)).drop 1 := by
              rw [Utf8.encode_cons c, Utf8.encodeChar_of_ascii hascii]
              rfl
            rw [hdrop]
            by_cases hd : d.utf8Size = 1
            · rw [Utf8.encode_cons, Utf8.encodeChar_of_ascii (Utf8.utf8Size_eq_one_iff.mp hd)]
              have htext := Utf8.isBoundary_encode text
              simpa [twoBytes, hsize, hd] using htext
            · have hpos := d.utf8Size_pos
              rw [Utf8.encode_cons, Utf8.isBoundary_drop d _ Nat.one_pos (by omega)]
              simp [twoBytes, hsize, hd]
      · have hdrop : (Utf8.encode (c :: text)).drop 2 = Utf8.encode text := by
          rw [Utf8.encode_cons, ← htwo, ← String.length_utf8EncodeChar, List.drop_left]
        rw [hdrop, Utf8.isBoundary_encode]
        cases text <;> simp [twoBytes, htwo]
      · rw [Utf8.encode_cons, Utf8.isBoundary_drop c _ Nat.two_pos hmore]
        cases text with
        | nil => simp [twoBytes, hmore]
        | cons d text =>
            have hone : c.utf8Size ≠ 1 := by omega
            have htwo : c.utf8Size ≠ 2 := by omega
            simp [twoBytes, hone, htwo]

theorem twoBytes_of_short {text : List Char} (h : (Utf8.encode text).length < 2) :
    twoBytes text = true := by
  cases text with
  | nil => rfl
  | cons c text =>
      rw [length_encode_cons] at h
      cases text with
      | nil => exact decide_eq_true (by omega)
      | cons d text =>
          have hc := c.utf8Size_pos
          have hd := d.utf8Size_pos
          rw [length_encode_cons] at h
          omega

/-- Two bytes that are a number are two characters other than `%`. -/
theorem digits_of_parseByte {text : List Char} {byte : UInt8}
    (hlength : 2 ≤ (Utf8.encode text).length) (htwo : twoBytes text = true)
    (h : Hex.parseByte (Utf8.lossy ((Utf8.encode text).take 2)) = some byte) :
    ∃ c d rest, text = c :: d :: rest ∧ c ≠ '%' ∧ d ≠ '%' ∧
      (Utf8.encode text).drop 2 = Utf8.encode rest := by
  have hnot : ∀ c chars, Hex.parseByte chars = some byte → c ∈ chars → c ≠ '+' →
      Hex.value c ≠ none := by
    intro c chars hsome hmem hplus hnone
    rw [Hex.parseByte_of_not_digit hmem hnone hplus] at hsome
    cases hsome
  cases text with
  | nil => exact absurd hlength (by decide)
  | cons c text =>
      by_cases hsize : c.utf8Size = 2
      · -- one character of two bytes is no digit
        have htake : (Utf8.encode (c :: text)).take 2 = Utf8.encode [c] := by
          rw [Utf8.encode_cons, ← hsize, ← String.length_utf8EncodeChar, List.take_left]
          exact (List.append_nil _).symm
        have hwide : ¬ c.toNat < 128 := fun hlt => by
          rw [Utf8.utf8Size_eq_one_iff.mpr hlt] at hsize
          cases hsize
        rw [htake, Utf8.lossy_encode] at h
        refine absurd ?_ (hnot c _ h List.mem_cons_self fun heq => hwide (by rw [heq]; decide))
        unfold Hex.value
        simp only []
        rw [if_neg (by omega), if_neg (by omega), if_neg (by omega)]
      · cases text with
        | nil =>
            have hle : c.utf8Size ≤ 2 := of_decide_eq_true htwo
            have hge : 2 ≤ c.utf8Size := by
              rw [length_encode_cons] at hlength
              exact hlength
            exact absurd (Nat.le_antisymm hle hge) hsize
        | cons d rest =>
            have hboth : c.utf8Size = 1 ∧ d.utf8Size = 1 := by
              simpa [twoBytes, hsize] using htwo
            have hsplit : Utf8.encode ([c, d] ++ rest) = Utf8.encode [c, d] ++ Utf8.encode rest :=
              List.flatMap_append
            rw [List.cons_append, List.singleton_append] at hsplit
            have hpair : (Utf8.encode [c, d]).length = 2 := by
              rw [length_encode_cons, length_encode_cons, hboth.1, hboth.2]
              rfl
            rw [hsplit, ← hpair, List.take_left, Utf8.lossy_encode] at h
            refine ⟨c, d, rest, rfl, ?_, ?_, ?_⟩
            · rintro rfl
              exact hnot '%' _ h List.mem_cons_self (by decide) (by decide)
            · rintro rfl
              exact hnot '%' _ h (List.mem_cons_of_mem c List.mem_cons_self) (by decide)
                (by decide)
            · rw [hsplit, ← hpair, List.drop_left]

theorem isSome_decodeFrom (text : List Char) :
    (decodeFrom 0 (Utf8.encode text)).isSome = sliceable text := by
  induction hn : text.length using Nat.strongRecOn generalizing text with
  | ind n ih =>
      cases text with
      | nil => rfl
      | cons c text =>
          have hlater := ih text.length (by rw [← hn]; exact Nat.lt_succ_self _) text rfl
          by_cases hpercent : c = '%'
          · subst hpercent
            have hsliceable : sliceable ('%' :: text) = (twoBytes text && sliceable text) := rfl
            rw [encode_percent, decodeFrom, hsliceable]
            by_cases hlong : 2 ≤ (Utf8.encode text).length
            · rw [if_pos ⟨rfl, hlong⟩, Utf8.isBoundary_encode, isBoundary_drop_two hlong,
                Bool.true_and]
              by_cases htwo : twoBytes text = true
              · rw [if_pos htwo, htwo, Bool.true_and]
                cases hparse : Hex.parseByte (Utf8.lossy ((Utf8.encode text).take 2)) with
                | none => rw [Option.isSome_map, hlater]
                | some byte =>
                    obtain ⟨a, b, rest, rfl, ha, hb, hdrop⟩ :=
                      digits_of_parseByte hlong htwo hparse
                    have hless : rest.length < n := by
                      rw [← hn]
                      simp only [List.length_cons]
                      omega
                    have hrest := ih rest.length hless rest rfl
                    rw [decodeFrom_eq, hdrop, Option.isSome_map, hrest]
                    simp [sliceable, ha, hb]
              · rw [if_neg htwo, Bool.eq_false_iff.mpr htwo]
                rfl
            · rw [if_neg (fun h => hlong h.2), if_neg (by decide), Option.isSome_map, hlater,
                twoBytes_of_short (by omega), Bool.true_and]
          · have hsliceable : sliceable (c :: text) = sliceable text := by
              simp [sliceable, hpercent]
            rw [hsliceable, ← hlater]
            by_cases hplus : c = '+'
            · subst hplus
              rw [decodeFrom_plus, Option.isSome_map]
            · rw [decodeFrom_char hpercent hplus, Option.isSome_map]

theorem isSome_percentDecode (value : List Char) :
    (percentDecode value).isSome = sliceable value := by
  rw [percentDecode, Option.isSome_map, isSome_decodeFrom]

/-! ## The round trip -/

theorem decodeFrom_encodeByte (b : UInt8) (text : List Char) :
    decodeFrom 0 (Utf8.encode (FormUrl.encodeByte b ++ text)) =
      (decodeFrom 0 (Utf8.encode text)).map (b :: ·) := by
  unfold FormUrl.encodeByte
  split
  case isTrue hplain =>
    have hall : ∀ k < 256, FormUrl.isPlain (UInt8.ofNat k) = true →
        (Char.ofNat k).toNat = k ∧ k < 128 ∧ Char.ofNat k ≠ '%' ∧ Char.ofNat k ≠ '+' := by
      decide +kernel
    obtain ⟨hcode, hascii, hpercent, hplus⟩ :=
      hall b.toNat b.toNat_lt (by rwa [UInt8.ofNat_toNat])
    rw [List.singleton_append, decodeFrom_char hpercent hplus,
      Utf8.encodeChar_of_ascii (by rwa [hcode]), hcode, UInt8.ofNat_toNat]
    rfl
  case isFalse =>
    split
    case isTrue hspace =>
      have hb : b = 32 := UInt8.toNat_inj.mp hspace
      rw [List.singleton_append, decodeFrom_plus, hb]
    case isFalse =>
      obtain ⟨hhigh, hlow⟩ := Hex.halves_lt b
      have hfirst := (FormUrl.upperDigit_bounds hhigh).1
      have hsecond := (FormUrl.upperDigit_bounds hlow).1
      generalize hdigits : [FormUrl.upperDigit (b.toNat / 16), FormUrl.upperDigit (b.toNat % 16)] =
        digits
      have hpair : (Utf8.encode digits).length = 2 := by
        rw [← hdigits, length_encode_cons, length_encode_cons,
          Utf8.utf8Size_eq_one_iff.mpr hfirst, Utf8.utf8Size_eq_one_iff.mpr hsecond]
        rfl
      have hsplit : Utf8.encode (digits ++ text) = Utf8.encode digits ++ Utf8.encode text :=
        List.flatMap_append
      have hparse : Hex.parseByte digits = some b := by
        rw [← hdigits]
        exact FormUrl.parseByte_upperDigits b
      rw [List.cons_append, encode_percent, decodeFrom, if_pos ⟨rfl, by rw [hsplit]; simp [hpair]⟩,
        Utf8.isBoundary_encode, hsplit, ← hpair, List.drop_left, Utf8.isBoundary_encode,
        Bool.true_and, if_pos rfl, List.take_left, Utf8.lossy_encode, hparse]
      simp only []
      rw [decodeFrom_eq, List.drop_left]

theorem percentDecode_encode (name : List Char) :
    percentDecode (FormUrl.encode name) = some name := by
  have hbytes : ∀ bytes : List UInt8,
      decodeFrom 0 (Utf8.encode (bytes.flatMap FormUrl.encodeByte)) = some bytes := by
    intro bytes
    induction bytes with
    | nil => rfl
    | cons b bytes ih => rw [List.flatMap_cons, decodeFrom_encodeByte, ih, Option.map_some]
  rw [percentDecode, FormUrl.encode, hbytes, Option.map_some, Utf8.lossy_encode]

/-- The pair of a name in a query. -/
def pairOf (key name : List Char) : List Char := key ++ '=' :: FormUrl.encode name

theorem readPair_pairOf {key : List Char} (hkey : '=' ∉ key) (acc : Acc) (name : List Char) :
    readPair acc (pairOf key name) = some (acc.push key name) := by
  rw [readPair, pairOf, splitOnce_append hkey]
  simp only []
  rw [percentDecode_encode, Option.map_some]

theorem foldlM_pairOf {key : List Char} (hkey : '=' ∉ key) (acc : Acc)
    (names : List (List Char)) :
    (names.map (pairOf key)).foldlM readPair acc =
      some (names.foldl (fun acc name => acc.push key name) acc) := by
  induction names generalizing acc with
  | nil => rfl
  | cons name names ih =>
      rw [List.map_cons, List.foldlM_cons, readPair_pairOf hkey, Option.bind_eq_bind,
        Option.bind_some, ih, List.foldl_cons]

theorem foldl_push_channels (acc : Acc) (names : List (List Char)) :
    names.foldl (fun acc name => acc.push "channels".toList name) acc =
      { acc with channels := acc.channels ++ names } := by
  induction names generalizing acc with
  | nil => simp
  | cons name names ih =>
      rw [List.foldl_cons, ih]
      simp [Acc.push]

theorem foldl_push_patterns (acc : Acc) (names : List (List Char)) :
    names.foldl (fun acc name => acc.push "patterns".toList name) acc =
      { acc with patterns := acc.patterns ++ names } := by
  induction names generalizing acc with
  | nil => simp
  | cons name names ih =>
      rw [List.foldl_cons, ih]
      simp [Acc.push]

theorem pairsOf_intercalate {pairs : List (List Char)}
    (h : ∀ pair ∈ pairs, '&' ∉ pair ∧ pair ≠ []) : pairsOf (['&'].intercalate pairs) = pairs := by
  by_cases hnil : pairs = []
  · subst hnil
    rfl
  · rw [pairsOf, List.splitOn_intercalate '&' (fun pair hpair => (h pair hpair).1) hnil]
    exact List.filter_eq_self.mpr fun pair hpair => decide_eq_true (h pair hpair).2

theorem ampersand_not_mem_pairOf {key : List Char} (hkey : '&' ∉ key) (name : List Char) :
    '&' ∉ pairOf key name ∧ pairOf key name ≠ [] := by
  constructor
  · intro hmem
    rcases List.mem_append.mp hmem with hin | hin
    · exact hkey hin
    · rcases List.mem_cons.mp hin with heq | hencoded
      · exact absurd heq (by decide)
      · exact FormUrl.ampersand_not_mem_encode name hencoded
  · simp [pairOf]

theorem parse_formQuery (channels patterns : List (List Char)) :
    parseRedisSubQuery (some (formQuery channels patterns)) = some (channels, patterns) := by
  have hpairs : pairsOf (formQuery channels patterns) =
      channels.map (pairOf "channels".toList) ++ patterns.map (pairOf "patterns".toList) := by
    apply pairsOf_intercalate
    intro pair hpair
    rcases List.mem_append.mp hpair with hmem | hmem
    · obtain ⟨name, -, rfl⟩ := List.mem_map.mp hmem
      exact ampersand_not_mem_pairOf (by decide) name
    · obtain ⟨name, -, rfl⟩ := List.mem_map.mp hmem
      exact ampersand_not_mem_pairOf (by decide) name
  rw [parseRedisSubQuery, hpairs, List.foldlM_append, foldlM_pairOf (by decide),
    Option.bind_eq_bind, Option.bind_some, foldlM_pairOf (by decide), foldl_push_channels,
    foldl_push_patterns]
  rfl

/-! ## The whole query -/

theorem isSome_readPair (acc : Acc) (pair : List Char) :
    (readPair acc pair).isSome = true ↔
      ∀ key value, splitOnce '=' pair = some (key, value) → sliceable value = true := by
  unfold readPair
  split
  case h_1 key value hsplit =>
    rw [Option.isSome_map, isSome_percentDecode, hsplit]
    constructor
    · rintro hvalue _ _ heq
      cases heq
      exact hvalue
    · exact fun h => h key value rfl
  case h_2 hsplit =>
    rw [hsplit]
    exact iff_of_true rfl nofun

theorem isSome_foldlM_readPair (acc : Acc) (pairs : List (List Char)) :
    (pairs.foldlM readPair acc).isSome = true ↔ ∀ pair ∈ pairs, ∀ key value,
      splitOnce '=' pair = some (key, value) → sliceable value = true := by
  induction pairs generalizing acc with
  | nil => exact iff_of_true rfl nofun
  | cons pair pairs ih =>
      rw [List.foldlM_cons, List.forall_mem_cons, Option.bind_eq_bind, ← isSome_readPair acc]
      cases readPair acc pair with
      | none => simp
      | some next =>
          rw [Option.bind_some, ih]
          exact (and_iff_right rfl).symm

/-- Parsing a query does not panic if and only if its values are sliceable; and it gives
back the names that a query was made of. -/
theorem parse_isSome_iff (raw : Option (List Char)) (channels patterns : List (List Char)) :
    ((parseRedisSubQuery raw).isSome = true ↔ Sliceable raw) ∧
      parseRedisSubQuery (some (formQuery channels patterns)) = some (channels, patterns) := by
  refine ⟨?_, parse_formQuery channels patterns⟩
  cases raw with
  | none => exact iff_of_true rfl nofun
  | some query =>
      rw [parseRedisSubQuery, Option.isSome_map, isSome_foldlM_readPair]
      constructor
      · intro h other hother
        rwa [← Option.some.inj hother]
      · exact fun h => h query rfl

/-- The third byte behind the percent sign is inside a character. -/
theorem percent_panics : ¬ ∀ raw, (parseRedisSubQuery raw).isSome = true := by
  intro hall
  have hpanics : parseRedisSubQuery (some "channels=%aé".toList) = none := by decide +kernel
  have hsome := hall (some "channels=%aé".toList)
  rw [hpanics] at hsome
  cases hsome

end Dbmaster.Gateway.SubQuery
