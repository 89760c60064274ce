import Dbmaster.Lib.Hex
import Dbmaster.Lib.Joined
import Dbmaster.Lib.Text
/-!
# Keys of SSH tunnels

What a tunnel is opened with and where it leads to, and the key that it is kept under: the digest
of all of this joined to one text.
-/

namespace Dbmaster.Ssh

open Dbmaster.Lib Dbmaster.Lib.Text

/-! ## Requests -/

structure SshConfig where
  host : List Char
  port : Int64
  username : List Char
  authMode : List Char
  deriving DecidableEq

structure SshSecrets where
  password : List Char
  privateKey : List Char
  passphrase : List Char
  deriving DecidableEq

structure SshTunnelParams where
  config : SshConfig
  secrets : SshSecrets
  deriving DecidableEq

/-- The block `ssh` of a connection as a client sends it. -/
structure SshWire where
  host : List Char
  port : Int64
  username : List Char
  authMode : List Char
  password : Option (List Char)
  privateKey : Option (List Char)
  passphrase : Option (List Char)

def SshWire.validate (wire : SshWire) : Except String SshTunnelParams :=
  if wire.authMode ≠ "password".toList ∧ wire.authMode ≠ "privateKey".toList then
    .error ("unsupported ssh authMode: " ++ String.ofList wire.authMode)
  else if trim wire.host = [] ∨ trim wire.username = [] then
    .error "ssh host and username are required"
  else if wire.authMode = "password".toList ∧ wire.password.getD [] = [] then
    .error "ssh authMode=password requires a password"
  else if wire.authMode = "privateKey".toList ∧ wire.privateKey.getD [] = [] then
    .error "ssh authMode=privateKey requires a private key"
  else .ok
    { config :=
        { host := trim wire.host
          port := if 0 < wire.port then wire.port else 22
          username := trim wire.username
          authMode := wire.authMode }
      secrets := ⟨wire.password.getD [], wire.privateKey.getD [], wire.passphrase.getD []⟩ }

/-- The arguments of `resolve`. -/
structure Request where
  targetHost : List Char
  targetPort : Int64
  config : SshConfig
  secrets : SshSecrets
  deriving DecidableEq

/-! ## The key -/

/-- `i64` as it is displayed. -/
def display (n : Int64) : List Char :=
  if n.toInt < 0 then '-' :: Nat.toDigits 10 n.toInt.natAbs else Nat.toDigits 10 n.toInt.natAbs

namespace Request

/-- What the key is made of, in its order. -/
def fields (r : Request) : List (List Char) :=
  [r.config.host, display r.config.port, r.config.username, r.config.authMode,
    r.secrets.password, r.secrets.privateKey, r.secrets.passphrase,
    r.targetHost, display r.targetPort]

def canonical (r : Request) : List Char := Joined.join '|' r.fields

end Request

section Key

variable (sha256 : List Char → List UInt8)

/-- `sha256` is SHA-256 of the bytes of a text. -/
def tunnelKey (r : Request) : List Char := Hex.encode (sha256 r.canonical)

/-- The texts of the two requests do not collide. -/
def NoCollision (r r' : Request) : Prop :=
  sha256 r.canonical = sha256 r'.canonical → r.canonical = r'.canonical

end Key

/-- Where the fields of two requests have the same pieces between all separators, each field has
as many separators in one as in the other. -/
def SameCuts (r r' : Request) : Prop :=
  Joined.pieces '|' r.fields = Joined.pieces '|' r'.fields →
    Joined.inner '|' r.fields = Joined.inner '|' r'.fields

/-- No separator behind the SSH port, and no piece of the SSH host but the first could be that
port. -/
structure Plain (r : Request) : Prop where
  host : ∀ piece ∈ (r.config.host.splitOn '|').tail, ∀ n, piece ≠ display n
  username : '|' ∉ r.config.username
  authMode : '|' ∉ r.config.authMode
  password : '|' ∉ r.secrets.password
  privateKey : '|' ∉ r.secrets.privateKey
  passphrase : '|' ∉ r.secrets.passphrase
  targetHost : '|' ∉ r.targetHost

/-! ## Ports -/

theorem isDigit_of_mem_toDigits {n : Nat} {c : Char} (h : c ∈ Nat.toDigits 10 n) :
    c.isDigit = true :=
  Nat.isDigit_of_mem_toDigits (by decide) (by decide) h

theorem bare_display (n : Int64) : '|' ∉ display n := by
  have hdigits : '|' ∉ Nat.toDigits 10 n.toInt.natAbs := by
    intro hmem
    exact absurd (isDigit_of_mem_toDigits hmem) (by decide)
  unfold display
  split_ifs
  · rw [List.mem_cons, not_or]
    exact ⟨by decide, hdigits⟩
  · exact hdigits

theorem display_injective : Function.Injective display := by
  have hnat : Function.Injective (Nat.toDigits 10) := by
    intro a b h
    calc a = Nat.ofDigitChars 10 (Nat.toDigits 10 a) 0 := Nat.ofDigitChars_ten_toDigits.symm
      _ = Nat.ofDigitChars 10 (Nat.toDigits 10 b) 0 := by rw [h]
      _ = b := Nat.ofDigitChars_ten_toDigits
  have hsign : ∀ a b : Nat, '-' :: Nat.toDigits 10 a ≠ Nat.toDigits 10 b := by
    intro a b h
    have hmem : '-' ∈ Nat.toDigits 10 b := h ▸ List.mem_cons_self
    exact absurd (isDigit_of_mem_toDigits hmem) (by decide)
  intro n m h
  apply Int64.toInt_inj.mp
  unfold display at h
  split_ifs at h with hn hm hm
  · have habs := hnat (List.cons.inj h).2
    omega
  · exact absurd h (hsign _ _)
  · exact absurd h.symm (hsign _ _)
  · have habs := hnat h
    omega

/-! ## Canonical texts -/

namespace Request

/-- The fields between the two ports. -/
def middle (r : Request) : List (List Char) :=
  [r.config.username, r.config.authMode, r.secrets.password, r.secrets.privateKey,
    r.secrets.passphrase, r.targetHost]

theorem length_middle (r : Request) : r.middle.length = 6 := rfl

theorem eq_of_fields {r r' : Request} (h : r.fields = r'.fields) : r = r' := by
  obtain ⟨targetHost, targetPort, ⟨host, port, username, authMode⟩, secrets⟩ := r
  obtain ⟨targetHost', targetPort', ⟨host', port', username', authMode'⟩, secrets'⟩ := r'
  simp only [fields, List.cons.injEq, and_true] at h
  obtain ⟨hhost, hport, husername, hmode, hpassword, hkey, hpassphrase, htarget, htport⟩ := h
  have hsecrets : secrets = secrets' := by
    cases secrets
    cases secrets'
    simp only [SshSecrets.mk.injEq]
    exact ⟨hpassword, hkey, hpassphrase⟩
  rw [hhost, display_injective hport, husername, hmode, hsecrets, htarget,
    display_injective htport]

theorem canonical_eq_iff (r r' : Request) :
    r.canonical = r'.canonical ↔ Joined.pieces '|' r.fields = Joined.pieces '|' r'.fields :=
  Joined.join_eq_join_iff (List.cons_ne_nil _ _) (List.cons_ne_nil _ _)

theorem pieces_fields (r : Request) :
    Joined.pieces '|' r.fields = (r.config.host.splitOn '|' ++ display r.config.port ::
      Joined.pieces '|' r.middle) ++ [display r.targetPort] := by
  have hports : r.fields = r.config.host :: ([display r.config.port] ++
      (r.middle ++ [display r.targetPort])) := rfl
  have hport : ∀ n, Joined.pieces '|' [display n] = [display n] := fun n =>
    Joined.pieces_of_bare fun piece hpiece => List.mem_singleton.mp hpiece ▸ bare_display n
  rw [hports, Joined.pieces_cons, Joined.pieces_append, Joined.pieces_append, hport, hport,
    List.singleton_append, List.append_assoc, List.cons_append]

theorem canonical_eq_of_middle {r r' : Request} (hhost : r'.config.host = r.config.host)
    (hport : r'.config.port = r.config.port) (htarget : r'.targetPort = r.targetPort)
    (h : Joined.pieces '|' r'.middle = Joined.pieces '|' r.middle) :
    r'.canonical = r.canonical := by
  rw [canonical_eq_iff, pieces_fields, pieces_fields, hhost, hport, htarget, h]

end Request

theorem sameCuts_iff (r r' : Request) :
    SameCuts r r' ↔ (r.canonical = r'.canonical → r = r') := by
  have hjoin : (r.canonical = r'.canonical → r.fields = r'.fields) ↔ SameCuts r r' :=
    Joined.eq_of_join_iff (List.cons_ne_nil _ _) (List.cons_ne_nil _ _)
  rw [← hjoin]
  constructor
  · intro h hcanonical
    exact Request.eq_of_fields (h hcanonical)
  · intro h hcanonical
    rw [h hcanonical]

theorem SameCuts.symm {r r' : Request} (h : SameCuts r r') : SameCuts r' r :=
  fun hpieces => (h hpieces.symm).symm

/-! ## Plain requests -/

theorem Plain.eq_of_canonical {r r' : Request} (h : Plain r)
    (hcanonical : r'.canonical = r.canonical) : r' = r := by
  have hmiddle : Joined.pieces '|' r.middle = r.middle := by
    apply Joined.pieces_of_bare
    simp only [Request.middle, List.forall_mem_cons]
    exact ⟨h.username, h.authMode, h.password, h.privateKey, h.passphrase, h.targetHost,
      fun _ hnil => absurd hnil List.not_mem_nil⟩
  have hpieces := (Request.canonical_eq_iff r' r).mp hcanonical
  rw [Request.pieces_fields, Request.pieces_fields, hmiddle] at hpieces
  obtain ⟨hfront, htarget⟩ := List.append_inj' hpieces
    (by rw [List.length_singleton, List.length_singleton])
  have hlength : r.middle.length ≤ (Joined.pieces '|' r'.middle).length :=
    Joined.length_le_length_pieces r'.middle
  obtain ⟨hhost, hport, hrest⟩ := Joined.append_cons_inj (List.splitOn_ne_nil '|' r'.config.host)
    (fun hmem => h.host _ hmem r'.config.port rfl) hlength hfront
  have hfields : r'.middle = r.middle := Joined.eq_of_pieces_eq hrest rfl
  apply Request.eq_of_fields
  show r'.config.host :: display r'.config.port :: (r'.middle ++ [display r'.targetPort]) =
    r.config.host :: display r.config.port :: (r.middle ++ [display r.targetPort])
  rw [Joined.splitOn_injective hhost, hport, hfields, htarget]

theorem Plain.sameCuts {r : Request} (h : Plain r) (r' : Request) : SameCuts r r' := by
  rw [sameCuts_iff]
  intro hcanonical
  exact (h.eq_of_canonical hcanonical.symm).symm

/-- No other request has the text of this one. -/
def Unique (r : Request) : Prop := ∀ r' : Request, r'.canonical = r.canonical → r' = r

theorem Unique.host_notMem {r : Request} (h : Unique r) {piece : List Char}
    (hpiece : piece ∈ (r.config.host.splitOn '|').tail) (n : Int64) : piece ≠ display n := by
  intro hport
  obtain ⟨first, tail, hsplit⟩ := List.exists_cons_of_ne_nil
    (List.splitOn_ne_nil '|' r.config.host)
  rw [hsplit, List.tail_cons] at hpiece
  obtain ⟨front, back, htail⟩ := List.append_of_mem hpiece
  have hbare : ∀ part ∈ (first :: front) ++ display n :: back, '|' ∉ part := by
    intro part hpart
    have hmem : part ∈ r.config.host.splitOn '|' := by
      rw [hsplit, htail, hport]
      exact hpart
    exact notMem_of_mem_splitOn hmem
  have hfront : Joined.pieces '|' (first :: front) = first :: front :=
    Joined.pieces_of_bare fun part hpart => hbare part (List.mem_append_left _ hpart)
  have hback : Joined.pieces '|' back = back := Joined.pieces_of_bare fun part hpart =>
    hbare part (List.mem_append_right _ (List.mem_cons_of_mem _ hpart))
  -- the port is read earlier, and the user takes what stood between the two
  have hsame := h
    { r with
      config := { r.config with
        host := Joined.join '|' (first :: front)
        port := n
        username := Joined.join '|' (back ++ [display r.config.port, r.config.username]) } }
    (by
      rw [Request.canonical_eq_iff, Request.pieces_fields, Request.pieces_fields]
      simp only [Request.middle, Joined.pieces_cons, Joined.pieces_append, hsplit, htail, hport,
        Joined.splitOn_join (List.cons_ne_nil _ _), hfront, hback,
        Joined.splitOn_join (List.append_ne_nil_of_right_ne_nil back (List.cons_ne_nil _ _)),
        List.splitOn_eq_singleton (bare_display _), Joined.pieces_nil]
      simp)
  have hlength := congrArg (fun r : Request => (r.config.host.splitOn '|').length) hsame
  simp only [Joined.splitOn_join (List.cons_ne_nil _ _), hfront, hsplit, htail,
    List.length_cons, List.length_append] at hlength
  omega

theorem Unique.middle_notMem {r : Request} (h : Unique r) : ∀ field ∈ r.middle, '|' ∉ field := by
  apply Joined.notMem_of_unique (by rw [Request.length_middle]; omega)
  intro fields' hlength hpieces
  match fields', hlength with
  | [username, authMode, password, privateKey, passphrase, targetHost], _ =>
    have hsame := h
      { r with
        targetHost := targetHost
        config := { r.config with username := username, authMode := authMode }
        secrets := ⟨password, privateKey, passphrase⟩ }
      (Request.canonical_eq_of_middle rfl rfl rfl hpieces)
    rw [← hsame]
    rfl

theorem Unique.plain {r : Request} (h : Unique r) : Plain r := by
  have hmiddle := h.middle_notMem
  simp only [Request.middle, List.forall_mem_cons] at hmiddle
  obtain ⟨husername, hmode, hpassword, hkey, hpassphrase, htarget, -⟩ := hmiddle
  exact ⟨fun piece hpiece n => h.host_notMem hpiece n, husername, hmode, hpassword, hkey,
    hpassphrase, htarget⟩

/-- A request has its text for itself just where it is plain. -/
theorem unique_iff_plain (r : Request) : Unique r ↔ Plain r := by
  constructor
  · exact Unique.plain
  · intro h r' hcanonical
    exact h.eq_of_canonical hcanonical

/-! ## Keys -/

section Digest

variable {sha256 : List Char → List UInt8} {r r' : Request}

theorem tunnelKey_eq_iff (hno : NoCollision sha256 r r') :
    tunnelKey sha256 r = tunnelKey sha256 r' ↔ r.canonical = r'.canonical := by
  unfold tunnelKey
  constructor
  · intro h
    apply hno
    apply Option.some.inj
    rw [← Hex.decode_encode, h, Hex.decode_encode]
  · intro h
    rw [h]

theorem tunnelKey_tells_iff (hno : NoCollision sha256 r r') :
    (tunnelKey sha256 r = tunnelKey sha256 r' → r = r') ↔ SameCuts r r' := by
  rw [tunnelKey_eq_iff hno, sameCuts_iff]

end Digest

end Dbmaster.Ssh
