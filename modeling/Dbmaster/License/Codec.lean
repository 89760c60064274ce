import Dbmaster.License.Format
/-!
# Parsing, rendering and signing agree

What is rendered parses to the same fields, and the bytes that are signed determine
every field that is not the signature.  Both rest on the lines: no field of a parsed
licence holds a line feed.
-/

namespace Dbmaster.License.Codec

open Dbmaster.License.Format Dbmaster.Lib.Text

/-! ## Field names -/

theorem name_plain (key : FieldKey) :
    ':' ∉ key.name.toList ∧ '-' ∉ key.name.toList ∧ '\n' ∉ key.name.toList ∧
      trimStart (key.name.toList ++ [':']) = key.name.toList ++ [':'] ∧
      trim key.name.toList = key.name.toList := by
  cases key <;> decide

theorem fieldKey_name (key : FieldKey) : fieldKey key.name.toList = some key := by
  cases key <;> decide

/-! ## Rendered texts -/

/-- What can stand in a field of the block. -/
structure FieldText (value : List Char) : Prop where
  no_newline : '\n' ∉ value
  trimmed : trim value = value
  no_end : ¬ endMarker <:+: value

/-- The fields that are issued. -/
structure WellFormed (license : LicenseV2) (signatureHex : List Char) : Prop where
  fields : ∀ key, FieldText (pemValue license signatureHex key)
  email_ne : license.email ≠ []
  instanceId_ne : license.instanceId ≠ []
  issuedAt_ne : license.issuedAt ≠ []
  kind : license.licenseType = "lifetime".toList ∧ license.expiresAt = none ∨
    license.licenseType = "yearly".toList ∧ ∃ s, license.expiresAt = some s ∧ 'T' ∈ s

/-- The fields of the rendered licence. -/
def parsedOf (license : LicenseV2) (signatureHex : List Char) : ParsedLicense :=
  ⟨license.email, license.expiresAt, license.instanceId, license.issuedAt, productServer,
    license.licenseType, licenseVersion, signatureHex⟩

theorem trim_pemLine (key : FieldKey) (value : List Char) :
    trim (pemLine key value) = key.name.toList ++ ':' :: trimEnd (' ' :: value) := by
  have hcolon : isWhitespace ':' = false := by decide
  have hname := (name_plain key).2.2.2.1
  have hstart : trimStart (pemLine key value) = key.name.toList ++ [':'] ++ ' ' :: value := by
    have hsplit : pemLine key value = key.name.toList ++ [':'] ++ ' ' :: value := by
      simp [pemLine]
    have hne : ((key.name.toList ++ [':']).dropWhile isWhitespace).isEmpty = false := by
      rw [← trimStart, hname]
      simp
    rw [hsplit, trimStart, List.dropWhile_append, hne, if_neg Bool.false_ne_true, ← trimStart,
      hname]
  rw [trim, hstart, trimEnd_append hcolon, List.append_assoc]
  rfl

theorem readLine_pemLine (fields : Fields) (key : FieldKey) {value : List Char}
    (hvalue : trim value = value) (hfresh : fields key = none) :
    readLine fields (stripReturn (pemLine key value)) = .ok (fields.set key value) := by
  obtain ⟨hcolon, -, -, -, hname⟩ := name_plain key
  have hblank : isWhitespace ' ' = true := by decide
  have hread : trim (trimEnd (' ' :: value)) = value := by
    rw [trim_trimEnd, trim_cons_of_blank hblank, hvalue]
  have hne : key.name.toList ++ ':' :: trimEnd (' ' :: value) ≠ [] := by simp
  simp only [readLine, trim_stripReturn, trim_pemLine]
  rw [if_neg hne, splitOnce_append hcolon]
  simp only [hname, fieldKey_name, hfresh, hread]
  rfl

theorem readLines_pemLines (value : FieldKey → List Char) (hvalue : ∀ key, trim (value key) = value key)
    {keys : List FieldKey} (hkeys : keys.Nodup) (fields : Fields)
    (hfresh : ∀ key ∈ keys, fields key = none) :
    readLines fields (keys.map fun key => stripReturn (pemLine key (value key))) =
      .ok fun key => if key ∈ keys then some (value key) else fields key := by
  induction keys generalizing fields with
  | nil => rfl
  | cons k keys ih =>
      obtain ⟨hk, hrest⟩ := List.nodup_cons.mp hkeys
      have hread := readLine_pemLine fields k (hvalue k) (hfresh k List.mem_cons_self)
      have hfree : ∀ key ∈ keys, fields.set k (value k) key = none := by
        intro key hkey
        have hne : key ≠ k := fun heq => hk (by rw [← heq]; exact hkey)
        rw [Fields.set, if_neg hne]
        exact hfresh key (List.mem_cons_of_mem k hkey)
      have htail := ih hrest (fields.set k (value k)) hfree
      rw [List.map_cons, readLines, hread]
      show readLines _ _ = _
      rw [htail]
      congr 1
      funext key
      by_cases hkey : key = k
      · rw [hkey, if_neg hk, if_pos List.mem_cons_self, Fields.set, if_pos rfl]
      · by_cases hin : key ∈ keys
        · rw [if_pos hin, if_pos (List.mem_cons_of_mem k hin)]
        · have hout : key ∉ k :: keys := List.not_mem_cons_of_ne_of_not_mem hkey hin
          rw [if_neg hin, if_neg hout, Fields.set, if_neg hkey]

section Rendered

variable {license : LicenseV2} {signatureHex : List Char}

theorem newline_not_mem_pemLines (h : WellFormed license signatureHex) :
    ∀ line ∈ pemLines license signatureHex, '\n' ∉ line := by
  intro line hline
  obtain ⟨key, -, rfl⟩ := List.mem_map.mp hline
  have hname := (name_plain key).2.2.1
  have hvalue := (h.fields key).no_newline
  simp [pemLine, hname, hvalue]

theorem no_end_in_pemLines (h : WellFormed license signatureHex) :
    ∀ line ∈ pemLines license signatureHex, ¬ endMarker <:+: line := by
  intro line hline hin
  obtain ⟨key, -, rfl⟩ := List.mem_map.mp hline
  have hdash : '-' ∉ key.name.toList ++ [':', ' '] := by
    have hname := (name_plain key).2.1
    simp [hname]
  have hmarker : endMarker = '-' :: endMarker.tail := by decide
  have hsplit : pemLine key (pemValue license signatureHex key) =
      key.name.toList ++ [':', ' '] ++ pemValue license signatureHex key := by
    simp [pemLine]
  rw [hmarker, hsplit] at hin
  have hvalue := infix_of_append hdash hin
  rw [← hmarker] at hvalue
  exact (h.fields key).no_end hvalue

theorem find_endMarker (h : WellFormed license signatureHex) :
    find endMarker (renderPem license signatureHex) =
      some (unlines (beginMarker :: pemLines license signatureHex)).length := by
  apply find_unlines
  · decide
  · decide
  · intro line hline
    rcases List.mem_cons.mp hline with hbegin | hfields
    · rw [hbegin]
      decide
    · exact no_end_in_pemLines h line hfields

theorem assemble_pemValue (h : WellFormed license signatureHex) :
    assemble (fun key => some (pemValue license signatureHex key)) =
      .ok (parsedOf license signatureHex) := by
  have hversion : parseU8 (toString licenseVersion).toList = some licenseVersion := by decide
  have hexpiry : expiry (some (license.expiresAt.getD [])) = .ok license.expiresAt := by
    rcases h.kind with ⟨-, hnone⟩ | ⟨-, s, hsome, hT⟩
    · rw [hnone]
      rfl
    · have hne : s ≠ [] := List.ne_nil_of_mem hT
      rw [hsome, Option.getD_some, expiry, if_neg hne, if_pos hT]
  have htype : typeMatches license.licenseType license.expiresAt = true := by
    rcases h.kind with ⟨hkind, hnone⟩ | ⟨hkind, s, hsome, -⟩
    · simp [typeMatches, hkind, hnone]
    · simp [typeMatches, hkind, hsome]
  simp only [assemble, required, okOr, pemValue, nonEmpty, if_neg h.email_ne, if_neg h.instanceId_ne,
    if_neg h.issuedAt_ne, hversion, hexpiry, bind, Except.bind, htype]
  rfl

theorem parseLicense_renderPem (h : WellFormed license signatureHex) :
    parseLicense (renderPem license signatureHex) =
      some (.ok (parsedOf license signatureHex)) := by
  have hshape : unlines (beginMarker :: pemLines license signatureHex) =
      beginMarker ++ unlines ([] :: pemLines license signatureHex) := by
    simp [unlines]
  have hfirst : find beginMarker (renderPem license signatureHex) = some 0 := by
    apply find_of_part
    rw [renderPem, hshape, List.append_assoc]
    exact List.prefix_append _ _
  have hlength : beginMarker.length <
      (unlines (beginMarker :: pemLines license signatureHex)).length := by
    rw [hshape]
    simp [unlines]
  have hbody : ((renderPem license signatureHex).take
      (unlines (beginMarker :: pemLines license signatureHex)).length).drop
        (0 + beginMarker.length) = unlines ([] :: pemLines license signatureHex) := by
    rw [renderPem, List.take_left, hshape, Nat.zero_add, List.drop_left]
  have hlines : lines (unlines ([] :: pemLines license signatureHex)) =
      [] :: FieldKey.all.map fun key =>
        stripReturn (pemLine key (pemValue license signatureHex key)) := by
    rw [lines_unlines]
    · simp [pemLines, stripReturn]
    · intro line hline
      rcases List.mem_cons.mp hline with hnil | hfields
      · rw [hnil]
        exact List.not_mem_nil
      · exact newline_not_mem_pemLines h line hfields
  have hkeys : FieldKey.all.Nodup := by decide
  have hread := readLines_pemLines (pemValue license signatureHex)
    (fun key => (h.fields key).trimmed) hkeys Fields.empty fun _ _ => rfl
  have hall : (fun key => if key ∈ FieldKey.all then some (pemValue license signatureHex key)
      else Fields.empty key) = fun key => some (pemValue license signatureHex key) := by
    funext key
    have hmem : key ∈ FieldKey.all := by cases key <;> decide
    rw [if_pos hmem]
  unfold parseLicense
  rw [hfirst, find_endMarker h]
  simp only []
  rw [if_neg (by omega), if_neg (by omega), hbody, hlines, readLines]
  show some ((readLines Fields.empty _).bind assemble) = _
  rw [hread, hall]
  exact congrArg some (assemble_pemValue h)

end Rendered

/-! ## Parsed texts -/

theorem exists_of_bind_ok {ε α β : Type} {x : Except ε α} {f : α → Except ε β} {b : β}
    (h : x >>= f = .ok b) : ∃ a, x = .ok a ∧ f a = .ok b := by
  cases x with
  | error e => cases h
  | ok a => exact ⟨a, rfl, h⟩

/-- No variable of the loop holds a line feed. -/
def SingleLines (fields : Fields) : Prop := ∀ key value, fields key = some value → '\n' ∉ value

theorem splitOnce_subset {sep : Char} {text left right : List Char}
    (h : splitOnce sep text = some (left, right)) : right ⊆ text := by
  induction text generalizing left right with
  | nil => cases h
  | cons c text ih =>
      rw [splitOnce] at h
      split at h
      case isTrue =>
        rw [Option.some.injEq, Prod.mk.injEq] at h
        rw [← h.2]
        exact List.subset_cons_self c text
      case isFalse =>
        obtain ⟨⟨l, r⟩, hsplit, hpair⟩ := Option.map_eq_some_iff.mp h
        rw [Prod.mk.injEq] at hpair
        rw [← hpair.2]
        exact List.subset_cons_of_subset c (ih hsplit)

theorem readLine_singleLines {fields read : Fields} {rawLine : List Char}
    (hfields : SingleLines fields) (hline : '\n' ∉ rawLine)
    (h : readLine fields rawLine = .ok read) : SingleLines read := by
  simp only [readLine] at h
  split at h
  case isTrue =>
    rw [Except.ok.injEq] at h
    rw [← h]
    exact hfields
  case isFalse =>
    split at h
    case h_1 => cases h
    case h_2 key value hsplit =>
      split at h
      case h_1 => cases h
      case h_2 k _ =>
        split at h
        case isTrue => cases h
        case isFalse =>
          rw [Except.ok.injEq] at h
          intro k' value' hvalue
          rw [← h, Fields.set] at hvalue
          split at hvalue
          case isTrue =>
            rw [Option.some.injEq] at hvalue
            rw [← hvalue]
            intro hmem
            exact hline (trim_subset _ (splitOnce_subset hsplit (trim_subset _ hmem)))
          case isFalse => exact hfields k' value' hvalue

theorem readLines_singleLines (ls : List (List Char)) {fields read : Fields}
    (hfields : SingleLines fields) (hlines : ∀ l ∈ ls, '\n' ∉ l)
    (h : readLines fields ls = .ok read) : SingleLines read := by
  induction ls generalizing fields with
  | nil =>
      rw [readLines, Except.ok.injEq] at h
      rw [← h]
      exact hfields
  | cons l ls ih =>
      rw [readLines] at h
      obtain ⟨next, hnext, hrest⟩ := exists_of_bind_ok h
      have hl := hlines l List.mem_cons_self
      exact ih (readLine_singleLines hfields hl hnext)
        (fun k hk => hlines k (List.mem_cons_of_mem l hk)) hrest

theorem required_ok {fields : Fields} {key : FieldKey} {value : List Char}
    (h : required fields key = .ok value) : fields key = some value := by
  unfold required okOr at h
  split at h
  case h_1 v hv =>
    rw [Except.ok.injEq] at h
    rw [hv, h]
  case h_2 => cases h

theorem expiry_ok {raw expiresAt : Option (List Char)} (h : expiry raw = .ok expiresAt)
    {s : List Char} (hs : expiresAt = some s) : raw = some s ∧ s ≠ [] := by
  unfold expiry at h
  split at h
  case h_1 =>
    rw [Except.ok.injEq, hs] at h
    cases h
  case h_2 t =>
    split at h
    case isTrue =>
      rw [Except.ok.injEq, hs] at h
      cases h
    case isFalse hne =>
      split at h
      case isTrue =>
        rw [Except.ok.injEq, hs, Option.some.injEq] at h
        rw [← h]
        exact ⟨rfl, hne⟩
      case isFalse => cases h

/-- A licence of one line a field, whose expiry is not the empty text. -/
structure OneLineFields (license : LicenseV2) : Prop where
  email : '\n' ∉ license.email
  instanceId : '\n' ∉ license.instanceId
  issuedAt : '\n' ∉ license.issuedAt
  licenseType : '\n' ∉ license.licenseType
  expiresAt : ∀ s, license.expiresAt = some s → '\n' ∉ s ∧ s ≠ []

/-- What `assemble` has read when it succeeds. -/
structure Assembled (fields : Fields) (parsed : ParsedLicense) : Prop where
  email : fields .email = some parsed.email
  instanceId : fields .instanceId = some parsed.instanceId
  issuedAt : fields .issuedAt = some parsed.issuedAt
  licenseType : fields .licenseType = some parsed.licenseType
  expiry : expiry (fields .expiresAt) = .ok parsed.expiresAt
  matches_expiry : typeMatches parsed.licenseType parsed.expiresAt = true

theorem assemble_ok {fields : Fields} {parsed : ParsedLicense}
    (h : assemble fields = .ok parsed) : Assembled fields parsed := by
  unfold assemble at h
  obtain ⟨email, hemail, h⟩ := exists_of_bind_ok h
  obtain ⟨instanceId, hinstance, h⟩ := exists_of_bind_ok h
  obtain ⟨issuedAt, hissued, h⟩ := exists_of_bind_ok h
  obtain ⟨product, -, h⟩ := exists_of_bind_ok h
  obtain ⟨licenseType, htype, h⟩ := exists_of_bind_ok h
  obtain ⟨signatureHex, -, h⟩ := exists_of_bind_ok h
  obtain ⟨versionStr, -, h⟩ := exists_of_bind_ok h
  obtain ⟨_, -, h⟩ := exists_of_bind_ok h
  obtain ⟨_, -, h⟩ := exists_of_bind_ok h
  obtain ⟨_, -, h⟩ := exists_of_bind_ok h
  obtain ⟨version, -, h⟩ := exists_of_bind_ok h
  obtain ⟨expiresAt, hexpiry, h⟩ := exists_of_bind_ok h
  split at h
  case isFalse => cases h
  case isTrue hmatches =>
    rw [Except.ok.injEq] at h
    rw [← h]
    exact ⟨required_ok hemail, required_ok hinstance, required_ok hissued, required_ok htype,
      hexpiry, hmatches⟩

theorem Assembled.oneLineFields {fields : Fields} {parsed : ParsedLicense}
    (h : Assembled fields parsed) (hfields : SingleLines fields) :
    OneLineFields parsed.license := by
  refine ⟨hfields _ _ h.email, hfields _ _ h.instanceId, hfields _ _ h.issuedAt,
    hfields _ _ h.licenseType, ?_⟩
  intro s hs
  obtain ⟨hraw, hne⟩ := expiry_ok h.expiry hs
  exact ⟨hfields _ _ hraw, hne⟩

theorem read_of_parse {text : List Char} {parsed : ParsedLicense}
    (h : parseLicense text = some (.ok parsed)) :
    ∃ body fields, readLines Fields.empty (lines body) = .ok fields ∧
      Assembled fields parsed := by
  unfold parseLicense at h
  split at h
  case h_2 => cases h
  case h_1 start stop _ _ =>
    simp only [] at h
    split at h
    case isTrue => cases h
    case isFalse =>
      split at h
      case isTrue => cases h
      case isFalse =>
        obtain ⟨fields, hread, hassemble⟩ := exists_of_bind_ok (Option.some.inj h)
        exact ⟨_, fields, hread, assemble_ok hassemble⟩

theorem oneLineFields_of_parse {text : List Char} {parsed : ParsedLicense}
    (h : parseLicense text = some (.ok parsed)) : OneLineFields parsed.license := by
  obtain ⟨body, fields, hread, hassembled⟩ := read_of_parse h
  have hempty : SingleLines Fields.empty := fun key value hvalue => nomatch hvalue
  have hlines := readLines_singleLines _ hempty
    (fun line hline => newline_not_mem_of_mem_lines hline) hread
  exact hassembled.oneLineFields hlines

/-! ## The signed bytes -/

theorem canonicalLine_inj {key : String} {value value' : List Char}
    (h : canonicalLine key value = canonicalLine key value') : value = value' := by
  unfold canonicalLine at h
  exact (List.cons.inj (List.append_cancel_left h)).2

theorem newline_not_mem_canonicalLine {key : String} {value : List Char}
    (hkey : '\n' ∉ key.toList) (hvalue : '\n' ∉ value) : '\n' ∉ canonicalLine key value := by
  simp [canonicalLine, hkey, hvalue]

theorem newline_not_mem_canonicalLines {license : LicenseV2} (h : OneLineFields license) :
    ∀ line ∈ license.canonicalLines, '\n' ∉ line := by
  have hexpires : '\n' ∉ license.expiresAt.getD [] := by
    cases hexp : license.expiresAt with
    | none => exact List.not_mem_nil
    | some s => exact (h.expiresAt s hexp).1
  intro line hline
  simp only [LicenseV2.canonicalLines, List.mem_cons, List.not_mem_nil, or_false] at hline
  rcases hline with rfl | rfl | rfl | rfl | rfl | rfl | rfl
  · exact newline_not_mem_canonicalLine (by decide) h.email
  · exact newline_not_mem_canonicalLine (by decide) hexpires
  · exact newline_not_mem_canonicalLine (by decide) h.instanceId
  · exact newline_not_mem_canonicalLine (by decide) h.issuedAt
  · exact newline_not_mem_canonicalLine (by decide) (by decide)
  · exact newline_not_mem_canonicalLine (by decide) h.licenseType
  · exact newline_not_mem_canonicalLine (by decide) (by decide)

/-- The lines, and so the fields, can be read off the signed bytes. -/
theorem license_eq_of_canonicalBytes {license license' : LicenseV2} (h : OneLineFields license)
    (h' : OneLineFields license') (heq : license.canonicalBytes = license'.canonicalBytes) :
    license = license' := by
  have htext : ['\n'].intercalate license.canonicalLines =
      ['\n'].intercalate license'.canonicalLines := by
    unfold LicenseV2.canonicalBytes at heq
    exact String.ofList_injective (String.toByteArray_inj.mp heq)
  have hlines : license.canonicalLines = license'.canonicalLines := by
    calc
      license.canonicalLines =
          (['\n'].intercalate license.canonicalLines).splitOn '\n' :=
        (List.splitOn_intercalate '\n' (newline_not_mem_canonicalLines h)
          (List.cons_ne_nil _ _)).symm
      _ = (['\n'].intercalate license'.canonicalLines).splitOn '\n' := by rw [htext]
      _ = license'.canonicalLines :=
        List.splitOn_intercalate '\n' (newline_not_mem_canonicalLines h') (List.cons_ne_nil _ _)
  simp only [LicenseV2.canonicalLines, List.cons.injEq] at hlines
  obtain ⟨hemail, hexpires, hinstance, hissued, -, htype, -⟩ := hlines
  have hgetD := canonicalLine_inj hexpires
  have hexpiresAt : license.expiresAt = license'.expiresAt := by
    cases hexp : license.expiresAt with
    | none =>
        cases hexp' : license'.expiresAt with
        | none => rfl
        | some s =>
            rw [hexp, hexp'] at hgetD
            exact absurd hgetD.symm (h'.expiresAt s hexp').2
    | some s =>
        cases hexp' : license'.expiresAt with
        | none =>
            rw [hexp, hexp'] at hgetD
            exact absurd hgetD (h.expiresAt s hexp).2
        | some t =>
            rw [hexp, hexp'] at hgetD
            exact congrArg some hgetD
  cases license
  cases license'
  simp only [LicenseV2.mk.injEq]
  exact ⟨canonicalLine_inj hemail, hexpiresAt, canonicalLine_inj hinstance,
    canonicalLine_inj hissued, canonicalLine_inj htype⟩

/-! ## The codec -/

section Verified

variable {Key Signature : Type} {dalek : Dalek Key Signature}

theorem verifyLicenseWithPk_ok {parsed : ParsedLicense} {publicKey : Key} {license : LicenseV2}
    (h : verifyLicenseWithPk dalek parsed publicKey = .ok license) :
    parsed.product = productServer ∧ parsed.version = licenseVersion ∧
      license = parsed.license := by
  unfold verifyLicenseWithPk at h
  split at h
  case isTrue => cases h
  case isFalse hproduct =>
    split at h
    case isTrue => cases h
    case isFalse hversion =>
      split at h
      case isTrue => cases h
      case isFalse =>
        refine ⟨not_not.mp hproduct, not_not.mp hversion, ?_⟩
        split at h
        case h_1 => cases h
        case h_2 =>
          split at h
          case h_1 => cases h
          case h_2 =>
            simp only [] at h
            split at h
            case isTrue => exact (Except.ok.inj h).symm
            case isFalse => cases h

theorem parsed_eq_of_verified {text text' : List Char} {parsed parsed' : ParsedLicense}
    {publicKey publicKey' : Key} {license license' : LicenseV2}
    (h : parseLicense text = some (.ok parsed)) (h' : parseLicense text' = some (.ok parsed'))
    (hverified : verifyLicenseWithPk dalek parsed publicKey = .ok license)
    (hverified' : verifyLicenseWithPk dalek parsed' publicKey' = .ok license')
    (heq : license.canonicalBytes = license'.canonicalBytes) :
    parsed' = { parsed with signatureHex := parsed'.signatureHex } := by
  obtain ⟨hproduct, hversion, hlicense⟩ := verifyLicenseWithPk_ok hverified
  obtain ⟨hproduct', hversion', hlicense'⟩ := verifyLicenseWithPk_ok hverified'
  rw [hlicense, hlicense'] at heq
  have hsame := license_eq_of_canonicalBytes (oneLineFields_of_parse h)
    (oneLineFields_of_parse h') heq
  cases parsed
  cases parsed'
  simp only [ParsedLicense.license, LicenseV2.mk.injEq] at hsame
  obtain ⟨hemail, hexpires, hinstance, hissued, htype⟩ := hsame
  simp only [] at hproduct hproduct' hversion hversion'
  rw [hemail, hexpires, hinstance, hissued, htype, hproduct, hproduct', hversion, hversion']

end Verified

/-- What is rendered is parsed to the same fields, the signed bytes of what is parsed
determine the payload, and so nothing but the signature differs between verified
licences with the same signed bytes. -/
theorem licence_codec :
    (∀ license signatureHex, WellFormed license signatureHex →
      parseLicense (renderPem license signatureHex) =
        some (.ok (parsedOf license signatureHex))) ∧
    (∀ text text' parsed parsed', parseLicense text = some (.ok parsed) →
      parseLicense text' = some (.ok parsed') →
      parsed.license.canonicalBytes = parsed'.license.canonicalBytes →
      parsed.license = parsed'.license) ∧
    (∀ (Key Signature : Type) (dalek : Dalek Key Signature) text text' parsed parsed' publicKey
      publicKey' license license', parseLicense text = some (.ok parsed) →
      parseLicense text' = some (.ok parsed') →
      verifyLicenseWithPk dalek parsed publicKey = .ok license →
      verifyLicenseWithPk dalek parsed' publicKey' = .ok license' →
      license.canonicalBytes = license'.canonicalBytes →
      parsed' = { parsed with signatureHex := parsed'.signatureHex }) := by
  refine ⟨?_, ?_, ?_⟩
  · intro license signatureHex h
    exact parseLicense_renderPem h
  · intro text text' parsed parsed' h h' heq
    exact license_eq_of_canonicalBytes (oneLineFields_of_parse h) (oneLineFields_of_parse h') heq
  · intro Key Signature dalek text text' parsed parsed' publicKey publicKey' license license' h h'
      hverified hverified' heq
    exact parsed_eq_of_verified h h' hverified hverified' heq

def fixtureYearly : LicenseV2 :=
  ⟨"alice@example.com".toList, some "2027-08-05T00:00:00Z".toList, "abcdef0123456789".toList,
    "2026-08-05T00:00:00Z".toList, "yearly".toList⟩

theorem wellFormed_fixtureYearly : WellFormed fixtureYearly "0123abcd".toList where
  fields key := by cases key <;> exact ⟨by decide, by decide, by decide⟩
  email_ne := by decide
  instanceId_ne := by decide
  issuedAt_ne := by decide
  kind := Or.inr ⟨rfl, "2027-08-05T00:00:00Z".toList, rfl, by decide⟩

theorem licence_codec_fixtureYearly :
    parseLicense (renderPem fixtureYearly "0123abcd".toList) =
      some (.ok (parsedOf fixtureYearly "0123abcd".toList)) :=
  licence_codec.1 fixtureYearly "0123abcd".toList wellFormed_fixtureYearly

end Dbmaster.License.Codec
