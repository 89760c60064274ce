import Dbmaster.Lib.Url
/-!
# The URL of a webhook

`validate_webhook_url`, which the notifiers of schema drift, health checks and data
synchronisation share word for word, and the URL that the request is then sent to.  The check
splits the text by hand; the request goes where the URL standard says.
-/

namespace Dbmaster.Notify.WebhookUrl

open Dbmaster.Lib Dbmaster.Lib.Url

/-! ## The check -/

inductive NotifyError
  | insecureUrl
  | malformedUrl (text : List Char)
  deriving DecidableEq

def extractHost : List Char → List Char
  | '[' :: stripped => stripped.takeWhile fun c => c != ']'
  | authority => authority.takeWhile fun c => c != ':'

def isLoopbackHost (host : List Char) : Bool :=
  let host := Text.asciiLower host
  host == "localhost".toList || host == "127.0.0.1".toList || host == "::1".toList

def validateWebhookUrl (url : List Char) (devMode : Bool) : Except NotifyError Unit :=
  match Text.splitFirst "://".toList url with
  | none => .error (.malformedUrl url)
  | some (scheme, rest) =>
      let scheme := Text.trim scheme
      if Text.asciiLower scheme = "https".toList then .ok ()
      else if Text.asciiLower scheme = "http".toList ∧ devMode = true then
        let authority := rest.takeWhile fun c => c != '/'
        if isLoopbackHost (extractHost authority) then .ok () else .error .insecureUrl
      else .error .insecureUrl

/-! ## The request -/

/-- The hosts of the URL parser. -/
inductive Host
  | domain (name : List Char)
  | ipv4 (address : Nat)
  | ipv6 (address : Nat)
  deriving DecidableEq

/-- `is_loopback` of the addresses, and the name that stands for them. -/
def Host.isLoopback : Host → Bool
  | .domain name => name == "localhost".toList
  | .ipv4 address => address / 0x1000000 == 127
  | .ipv6 address => address == 1

/-- What the parser of hosts says of the hosts that the check lets through. -/
structure HostRules (hostParser : List Char → Option Host) : Prop where
  localhost : ∀ name, Text.asciiLower name = "localhost".toList →
    hostParser name = some (.domain "localhost".toList)
  ipv4 : hostParser "127.0.0.1".toList = some (.ipv4 0x7f000001)
  ipv6 : hostParser "[::1]".toList = some (.ipv6 1)
  brackets : ∀ text host, hostParser ('[' :: text) = some host →
    ∃ inner, text = inner ++ [']'] ∧ ':' ∈ inner ∧ ']' ∉ inner

section Request

variable (parse : List Char → Except (List Char) (Parsed Host))

/-- The start of `deliver_with_backoff`, up to the URL that the request is sent to. -/
def requestUrl (url : List Char) (devMode : Bool) : Except NotifyError (Parsed Host) := do
  validateWebhookUrl url devMode
  (parse url).mapError NotifyError.malformedUrl

/-- Encrypted, or in dev mode to the machine itself. -/
def Guarded (devMode : Bool) (target : Parsed Host) : Prop :=
  target.scheme = "https".toList ∨
    target.scheme = "http".toList ∧ target.host.any Host.isLoopback = true ∧ devMode = true

def Secure (url : List Char) (devMode : Bool) : Prop :=
  ∀ target, requestUrl parse url devMode = .ok target → Guarded devMode target

end Request

/-- The host of an accepted `http` URL is another machine, and userinfo stands before it. -/
def Disguised (hostParser : List Char → Option Host) (url : List Char) (devMode : Bool) : Prop :=
  validateWebhookUrl url devMode = .ok () ∧
    ∃ after behind host, splitScheme (clean url) = some ("http".toList, after) ∧
      behindAt (authorityOf after) = some behind ∧ hostOf hostParser behind = some host ∧
      host.isLoopback = false

/-! ## What the check accepts -/

theorem isLoopbackHost_iff {host : List Char} :
    isLoopbackHost host = true ↔ Text.asciiLower host = "localhost".toList ∨
      host = "127.0.0.1".toList ∨ host = "::1".toList := by
  have hone : ∀ word : List Char, (∀ c ∈ word, c.toNat < 97 ∧ c.isUpper = false) →
      (Text.asciiLower host = word ↔ host = word) := by
    intro word hword
    refine ⟨Text.eq_of_asciiLower fun c hc => (hword c hc).1, ?_⟩
    rintro rfl
    exact Text.asciiLower_eq_self_iff.mpr fun c hc => (hword c hc).2
  rw [← hone "127.0.0.1".toList (by simp), ← hone "::1".toList (by simp), isLoopbackHost,
    Bool.or_eq_true, Bool.or_eq_true, beq_iff_eq, beq_iff_eq, beq_iff_eq, or_assoc]

/-- But for the colon, the character plays no part in the syntax of a URL. -/
def isPlain (c : Char) : Bool :=
  !isControlOrSpace c && !endsAuthority c && !"[]@".toList.contains c

theorem isPlain_iff {c : Char} : isPlain c = true ↔ isControlOrSpace c = false ∧
    endsAuthority c = false ∧ c ≠ '[' ∧ c ≠ ']' ∧ c ≠ '@' := by
  simp [isPlain, and_assoc]

theorem isPlain_of_isUpper {c : Char} (h : c.isUpper = true) : isPlain c = true := by
  have hrange : 65 ≤ c.toNat ∧ c.toNat ≤ 90 := of_decide_eq_true h
  have hne : ∀ d : Char, d.toNat < 65 ∨ 90 < d.toNat → c ≠ d := by
    rintro d hd rfl
    omega
  have hblank : isControlOrSpace c = false := decide_eq_false (by omega)
  simp [isPlain, hblank, endsAuthority, isSlash, hne '/' (by decide), hne '\\' (by decide),
    hne '?' (by decide), hne '#' (by decide), hne '[' (by decide), hne ']' (by decide),
    hne '@' (by decide)]

theorem isLoopbackHost_plain {host : List Char} (h : isLoopbackHost host = true) :
    host ≠ [] ∧ ∀ c ∈ host, isPlain c = true := by
  have hword : Text.asciiLower host ≠ [] ∧ ∀ c ∈ Text.asciiLower host, isPlain c = true := by
    unfold isLoopbackHost at h
    rw [Bool.or_eq_true, Bool.or_eq_true, beq_iff_eq, beq_iff_eq, beq_iff_eq] at h
    rcases h with (h | h) | h
    all_goals
      rw [h]
      exact ⟨by decide, List.all_eq_true.mp (by decide)⟩
  constructor
  · rintro rfl
    exact hword.1 rfl
  · intro c hc
    rcases Text.isUpper_or_mem_asciiLower hc with hupper | hmem
    · exact isPlain_of_isUpper hupper
    · exact hword.2 c hmem

theorem exists_behind (p q : Char → Bool) (text : List Char) :
    ∃ tail, text = (text.takeWhile q).takeWhile p ++ tail ∧
      ∀ c, tail.head? = some c → p c = false ∨ q c = false := by
  refine ⟨text.dropWhile fun c => p c && q c, ?_, ?_⟩
  · have hcuts : (text.takeWhile q).takeWhile p = text.takeWhile fun c => p c && q c := by
      simp [List.takeWhile_takeWhile]
    rw [hcuts]
    exact List.takeWhile_append_dropWhile.symm
  · intro c hc
    have hhead := List.head?_dropWhile_not (fun c => p c && q c) text
    rw [hc] at hhead
    exact Bool.and_eq_false_iff.mp hhead

theorem takeWhile_tidy {sep : Char} (hsep : isControlOrSpace sep = false)
    (hends : endsAuthority sep = false) {tail : List Char}
    (h : ∀ c, tail.head? = some c → (c != sep) = false ∨ (c != '/') = false) :
    ((tidy tail).takeWhile fun c => !endsAuthority c) = [] ∨
      ∃ more, ((tidy tail).takeWhile fun c => !endsAuthority c) = sep :: more := by
  cases tail with
  | nil => exact .inl rfl
  | cons c tail =>
      rcases h c rfl with hc | hc
      · rw [bne_eq_false_iff_eq] at hc
        rw [hc, tidy_cons hsep, List.takeWhile_cons_of_pos (by rw [hends]; rfl)]
        exact .inr ⟨_, rfl⟩
      · rw [bne_eq_false_iff_eq] at hc
        rw [hc, tidy_cons (by decide)]
        exact .inl rfl

theorem extractHost_of_ne {first : Char} (hfirst : first ≠ '[') (q : Char → Bool)
    (more : List Char) :
    extractHost ((first :: more).takeWhile q) =
      ((first :: more).takeWhile q).takeWhile fun c => c != ':' := by
  rw [List.takeWhile_cons]
  split
  case isTrue =>
    unfold extractHost
    split
    case h_1 heq => exact absurd (List.cons.inj heq).1 hfirst
    case h_2 => rfl
  case isFalse => rfl

theorem authorityOf_tidy {name : List Char} (hne : name ≠ [])
    (h : ∀ c ∈ name, isControlOrSpace c = false ∧ endsAuthority c = false) (tail : List Char) :
    authorityOf ('/' :: '/' :: tidy (name ++ tail)) =
      name ++ (tidy tail).takeWhile fun c => !endsAuthority c := by
  rw [tidy_append_of_plain fun c hc => (h c hc).1]
  exact authorityOf_append hne (fun c hc => (h c hc).2) _

section Rules

variable {hostParser : List Char → Option Host} (hrules : HostRules hostParser)

include hrules

theorem isLoopback_of_name {name port : List Char} {host : Host}
    (hname : isLoopbackHost name = true) (hcolon : ':' ∉ name)
    (hport : port = [] ∨ ∃ more, port = ':' :: more)
    (h : hostOf hostParser (name ++ port) = some host) : host.isLoopback = true := by
  have hparsed := hostParser_of_hostOf h
  have hsplit : (splitPort false (name ++ port)).1 = name := by
    have hchars : ∀ c ∈ name, c ≠ ':' ∧ c ≠ '[' := by
      intro c hc
      refine ⟨?_, (isPlain_iff.mp ((isLoopbackHost_plain hname).2 c hc)).2.2.1⟩
      rintro rfl
      exact hcolon hc
    rcases hport with rfl | ⟨more, rfl⟩
    · rw [List.append_nil, (splitPort_plain hchars).1]
    · rw [(splitPort_plain hchars).2]
  rw [hsplit] at hparsed
  rcases isLoopbackHost_iff.mp hname with hlocal | rfl | rfl
  · rw [hrules.localhost name hlocal] at hparsed
    cases hparsed
    rfl
  · rw [hrules.ipv4] at hparsed
    cases hparsed
    rfl
  · exact absurd List.mem_cons_self hcolon

theorem isLoopback_of_brackets {name tail : List Char} {host : Host}
    (hname : isLoopbackHost name = true) (htail : tail = [] ∨ ∃ more, tail = ']' :: more)
    (h : hostOf hostParser ('[' :: (name ++ tail)) = some host) : host.isLoopback = true := by
  have hclose : ']' ∉ name := fun hc =>
    (isPlain_iff.mp ((isLoopbackHost_plain hname).2 _ hc)).2.2.2.1 rfl
  have hparsed := hostParser_of_hostOf h
  have hopen : (splitPort false ('[' :: (name ++ tail))).1 =
      '[' :: (splitPort true (name ++ tail)).1 := rfl
  rw [hopen] at hparsed
  obtain ⟨inner, hinner, hcolon, hno⟩ := hrules.brackets _ _ hparsed
  rcases htail with rfl | ⟨more, rfl⟩
  · rw [List.append_nil, (splitPort_brackets hclose).1] at hinner
    change name = inner ++ [']'] at hinner
    exact absurd (hinner ▸ List.mem_append_right inner List.mem_cons_self) hclose
  · rw [(splitPort_brackets hclose).2] at hinner hparsed
    have hboth := congrArg (Text.splitOnce ']') hinner
    rw [Text.splitOnce_append hclose, Text.splitOnce_append hno] at hboth
    obtain ⟨rfl, hnothing⟩ := Prod.mk.inj (Option.some.inj hboth)
    rw [hnothing] at hparsed
    -- of the accepted hosts only the address with colons may stand in brackets
    rcases isLoopbackHost_iff.mp hname with hlocal | rfl | rfl
    · rcases Text.isUpper_or_mem_asciiLower hcolon with hupper | hmem
      · cases hupper
      · rw [hlocal] at hmem
        exact absurd hmem (by decide)
    · exact absurd hcolon (by decide)
    · rw [show '[' :: ("::1".toList ++ [']']) = "[::1]".toList from rfl, hrules.ipv6] at hparsed
      cases hparsed
      rfl

theorem isLoopback_of_authority {rest : List Char} {host : Host}
    (hok : isLoopbackHost (extractHost (rest.takeWhile fun c => c != '/')) = true)
    (h : hostOf hostParser (authorityOf ('/' :: '/' :: tidy rest)) = some host) :
    host.isLoopback = true := by
  have hplain : ∀ name, isLoopbackHost name = true → ∀ c ∈ name,
      isControlOrSpace c = false ∧ endsAuthority c = false := fun name hname c hc =>
    ⟨(isPlain_iff.mp ((isLoopbackHost_plain hname).2 c hc)).1,
      (isPlain_iff.mp ((isLoopbackHost_plain hname).2 c hc)).2.1⟩
  cases rest with
  | nil => exact absurd rfl (isLoopbackHost_plain hok).1
  | cons first more =>
      by_cases hfirst : first = '['
      · subst hfirst
        obtain ⟨tail, htext, htail⟩ := exists_behind (fun c => c != ']') (fun c => c != '/') more
        rw [List.takeWhile_cons_of_pos (by decide)] at hok
        change isLoopbackHost ((more.takeWhile fun c => c != '/').takeWhile fun c => c != ']') =
          true at hok
        have hauthority := authorityOf_tidy (List.cons_ne_nil '[' _)
          (List.forall_mem_cons.mpr ⟨by decide, hplain _ hok⟩) tail
        rw [List.cons_append, ← htext] at hauthority
        rw [hauthority, List.cons_append] at h
        exact isLoopback_of_brackets hrules hok (takeWhile_tidy (by decide) (by decide) htail) h
      · obtain ⟨tail, htext, htail⟩ :=
          exists_behind (fun c => c != ':') (fun c => c != '/') (first :: more)
        rw [extractHost_of_ne hfirst] at hok
        have hauthority := authorityOf_tidy (isLoopbackHost_plain hok).1 (hplain _ hok) tail
        rw [← htext] at hauthority
        rw [hauthority] at h
        have hcolon : ':' ∉ ((first :: more).takeWhile fun c => c != '/').takeWhile fun c =>
            c != ':' := fun hc => absurd (List.mem_takeWhile_imp hc) (by decide)
        exact isLoopback_of_name hrules hok hcolon (takeWhile_tidy (by decide) (by decide) htail) h

end Rules

/-! ## The two readings -/

theorem splitScheme_of_trim {pre rest word : List Char}
    (hword : word = "http".toList ∨ word = "https".toList)
    (hscheme : Text.asciiLower (Text.trim pre) = word) {scheme after : List Char}
    (h : splitScheme (clean (pre ++ ("://".toList ++ rest))) = some (scheme, after)) :
    scheme = word ∧ after = '/' :: '/' :: tidy rest := by
  obtain ⟨left, right, hleft, hright, hpre⟩ := Text.exists_trim pre
  have hletters : word ≠ [] ∧ ∀ c ∈ word, c.isAlpha = true := by
    rcases hword with rfl | rfl
    all_goals exact ⟨by decide, List.all_eq_true.mp (by decide)⟩
  have halpha : ∀ c ∈ Text.trim pre, c.isAlpha = true := by
    intro c hc
    rcases Text.isUpper_or_mem_asciiLower hc with hupper | hmem
    · exact Bool.or_eq_true_iff.mpr (.inl hupper)
    · exact hletters.2 c (hscheme ▸ hmem)
  have hname : Text.trim pre ≠ [] := by
    intro hnil
    rw [hnil] at hscheme
    exact hletters.1 hscheme.symm
  have hblank : ∀ c, Text.isWhitespace c = true → c.isAlphanum = false := by
    intro c hc
    by_contra hno
    rw [Text.not_isWhitespace_of_isAlphanum (Bool.not_eq_false _ ▸ hno)] at hc
    cases hc
  have hbefore : ∀ c ∈ left, c.isAlpha = false := fun c hc =>
    (Bool.or_eq_false_iff.mp (hblank c (hleft c hc))).1
  have hbehind : ∀ c ∈ right, isSchemeChar c = false ∧ c ≠ ':' := by
    intro c hc
    have hne : ∀ d, Text.isWhitespace d = false → c ≠ d := by
      rintro d hd rfl
      rw [hright _ hc] at hd
      cases hd
    refine ⟨?_, hne ':' (by decide)⟩
    simp [isSchemeChar, hblank c (hright c hc), hne '+' (by decide), hne '-' (by decide),
      hne '.' (by decide)]
  rw [hpre, List.append_assoc, List.append_assoc] at h
  obtain ⟨hsame, hafter⟩ := splitScheme_clean hname halpha hbefore hbehind h
  exact ⟨hsame.trans hscheme, hafter⟩

theorem reading_of_validate {url : List Char} {devMode : Bool}
    (hok : validateWebhookUrl url devMode = .ok ()) {scheme after : List Char}
    (h : splitScheme (clean url) = some (scheme, after)) :
    scheme = "https".toList ∨ scheme = "http".toList ∧ devMode = true ∧
      ∃ rest, after = '/' :: '/' :: tidy rest ∧
        isLoopbackHost (extractHost (rest.takeWhile fun c => c != '/')) = true := by
  unfold validateWebhookUrl at hok
  split at hok
  case h_1 => cases hok
  case h_2 pre rest hsplit =>
    rw [Text.eq_append_of_splitFirst hsplit] at h
    simp only [] at hok
    split at hok
    case isTrue hscheme => exact .inl (splitScheme_of_trim (.inr rfl) hscheme h).1
    case isFalse =>
      split at hok
      case isTrue hscheme =>
        obtain ⟨hread, hafter⟩ := splitScheme_of_trim (.inl rfl) hscheme.1 h
        split at hok
        case isTrue hloop => exact .inr ⟨hread, hscheme.2, rest, hafter, hloop⟩
        case isFalse => cases hok
      case isFalse => cases hok

section Main

variable {hostParser : List Char → Option Host}
  {parse : List Char → Except (List Char) (Parsed Host)}

theorem requestUrl_eq_ok {url : List Char} {devMode : Bool} {target : Parsed Host} :
    requestUrl parse url devMode = .ok target ↔
      validateWebhookUrl url devMode = .ok () ∧ (parse url).toOption = some target := by
  unfold requestUrl
  cases validateWebhookUrl url devMode with
  | error e => exact iff_of_false nofun fun h => nomatch h.1
  | ok _ =>
      cases parse url with
      | error e => exact iff_of_false nofun fun h => nomatch h.2
      | ok parsed => simp [Except.mapError, Except.toOption, bind, Except.bind]

/-- A webhook URL is safe unless userinfo stands before the host of another machine. -/
theorem secure_iff (hrules : HostRules hostParser)
    (hparse : Standard hostParser fun input => (parse input).toOption) (url : List Char)
    (devMode : Bool) : Secure parse url devMode ↔ ¬ Disguised hostParser url devMode := by
  constructor
  · rintro hsecure ⟨hok, after, behind, host, hsplit, hbehind, hhost, hremote⟩
    have htarget : (parse url).toOption = some ⟨"http".toList, some host⟩ := by
      rw [hparse.special url _ _ hsplit (by decide), parseSpecial]
      simp only [hbehind, Option.getD_some, hhost, Option.map_some]
    rcases hsecure _ (requestUrl_eq_ok.mpr ⟨hok, htarget⟩) with hscheme | ⟨_, hloop, _⟩
    · change "http".toList = "https".toList at hscheme
      exact absurd hscheme (by decide)
    · rw [Option.any_some, hremote] at hloop
      cases hloop
  · intro hplain target htarget
    obtain ⟨hok, hparsed⟩ := requestUrl_eq_ok.mp htarget
    cases hsplit : splitScheme (clean url) with
    | none =>
        rw [hparse.relative url hsplit] at hparsed
        cases hparsed
    | some read =>
        obtain ⟨scheme, after⟩ := read
        rcases reading_of_validate hok hsplit with rfl | ⟨rfl, hdev, rest, rfl, hloop⟩
        · rw [hparse.special url _ _ hsplit (by decide)] at hparsed
          obtain ⟨host, _, rfl⟩ := Option.map_eq_some_iff.mp hparsed
          exact .inl rfl
        · rw [hparse.special url _ _ hsplit (by decide)] at hparsed
          obtain ⟨host, hhost, rfl⟩ := Option.map_eq_some_iff.mp hparsed
          refine .inr ⟨rfl, ?_, hdev⟩
          cases hbehind : behindAt (authorityOf ('/' :: '/' :: tidy rest)) with
          | none =>
              rw [hbehind] at hhost
              exact isLoopback_of_authority hrules hloop hhost
          | some behind =>
              rw [hbehind] at hhost
              by_contra hremote
              exact hplain ⟨hok, _, behind, host, hsplit, hbehind, hhost,
                Bool.eq_false_iff.mpr hremote⟩

end Main

/-! ## A parser -/

/-- Names in lower case, and the two addresses of the machine itself. -/
def sampleHost : List Char → Option Host
  | '[' :: text => if text = "::1]".toList then some (.ipv6 1) else none
  | text =>
      if text = "127.0.0.1".toList then some (.ipv4 0x7f000001)
      else some (.domain (Text.asciiLower text))

def sampleParse (input : List Char) : Except (List Char) (Parsed Host) :=
  match splitScheme (clean input) with
  | none => .error "relative URL without a base".toList
  | some (scheme, rest) =>
      if String.ofList scheme ∈ ["http", "https", "ws", "wss", "ftp"] then
        match parseSpecial sampleHost scheme rest with
        | none => .error "invalid host".toList
        | some parsed => .ok parsed
      else .ok ⟨scheme, none⟩

theorem sampleHost_rules : HostRules sampleHost where
  localhost name hname := by
    unfold sampleHost
    split
    case h_1 =>
      have hhead : some ('['.toLower) = some 'l' := congrArg List.head? hname
      exact absurd hhead (by decide)
    case h_2 =>
      split
      case isTrue heq =>
        rw [heq] at hname
        exact absurd hname (by decide)
      case isFalse => rw [hname]
  ipv4 := rfl
  ipv6 := rfl
  brackets text host h := by
    rw [sampleHost] at h
    split at h
    case isTrue heq => exact ⟨"::1".toList, heq, by decide, by decide⟩
    case isFalse => cases h

theorem sampleParse_standard : Standard sampleHost fun input => (sampleParse input).toOption where
  relative input h := by
    simp only [sampleParse, h]
    rfl
  special input scheme rest h hspecial := by
    simp only [sampleParse, h, if_pos hspecial]
    cases parseSpecial sampleHost scheme rest <;> rfl

/-- A name in capitals, with a port. -/
theorem secure_localhost : Secure sampleParse "http://LOCALHOST:9999/hook".toList true := by
  refine (secure_iff sampleHost_rules sampleParse_standard _ true).mpr ?_
  rintro ⟨_, after, behind, host, hsplit, hbehind, _⟩
  have hread : splitScheme (clean "http://LOCALHOST:9999/hook".toList) =
      some ("http".toList, "//LOCALHOST:9999/hook".toList) := by decide
  rw [hread] at hsplit
  cases hsplit
  have hnone : behindAt (authorityOf "//LOCALHOST:9999/hook".toList) = none := by decide
  rw [hnone] at hbehind
  cases hbehind

/-- What is looked at is the user name, and the request goes elsewhere. -/
theorem insecure_userinfo : ¬ Secure sampleParse "http://localhost:x@evil.com/".toList true := by
  intro h
  have htarget : requestUrl sampleParse "http://localhost:x@evil.com/".toList true =
      .ok ⟨"http".toList, some (.domain "evil.com".toList)⟩ := by rfl
  rcases h _ htarget with hscheme | ⟨_, hloop, _⟩
  · change "http".toList = "https".toList at hscheme
    exact absurd hscheme (by decide)
  · exact absurd hloop (by decide)

end Dbmaster.Notify.WebhookUrl
