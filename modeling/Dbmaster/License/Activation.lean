import Dbmaster.Lib.Files
import Dbmaster.Lib.Transition
import Dbmaster.Lib.Utf8
import Dbmaster.License.Expiry
/-!
# Activation

`POST /api/license` step by step, with the licence file, the boot that reads it and the gates.
Calls interleave, and the process can be stopped between any two steps; what it has written is
kept, and the files it had open are lost.
-/

namespace Dbmaster.License.Activation

open Dbmaster.Lib Dbmaster.Lib.Files Dbmaster.Lib.Transition
open Dbmaster.License.Format Dbmaster.License.Codec Dbmaster.License.Entitlement
open Dbmaster.License.Expiry

/-! ## The licence file -/

/-- `.dbmlicense` and, next to it, the same with `.tmp`. -/
inductive FileName
  | license
  | tmp
  deriving DecidableEq

abbrev Disk := Directory FileName UInt8

/-- `fs::read_to_string`, which fails on bytes that are no UTF-8. -/
def readToString (bytes : List UInt8) : Option (List Char) :=
  bytes.toByteArray.utf8Decode?.map Array.toList

/-- What cannot be read counts as no file. -/
def readLicenseFile (d : Disk) (readable : Bool) : Option (List Char) :=
  if readable then (d.read .license).bind readToString else none

theorem readToString_encode (text : List Char) : readToString (Utf8.encode text) = some text := by
  show (List.utf8Encode text).utf8Decode?.map Array.toList = some text
  rw [List.utf8Decode?_utf8Encode]
  rfl

theorem readLicenseFile_of_read {d : Disk} {text : List Char}
    (h : d.read .license = some (Utf8.encode text)) : readLicenseFile d true = some text := by
  rw [readLicenseFile, if_pos rfl, h]
  exact readToString_encode text

/-! ## The installation -/

structure Installation (Key Signature : Type) where
  dalek : Dalek Key Signature
  parseFromRfc3339 : List Char → Option Int
  trusted : Option Key
  installUuid : List Char
  embeddedMode : Bool
  /-- `DBMASTER_SERVER_ADMIN_TOKEN` -/
  adminTokenVar : Option (List Char)

/-- What a call answers. -/
inductive Answer
  | refused (status : Nat) (code message : String)
  | licensed (licenseType : List Char) (expiresAt : Option Int) (schedulerNote : String)
  | trial (expiresAt : Int) (schedulerNote : String)
  | parserPanicked
  | unreachablePanicked
  deriving DecidableEq

def schedulerNote : String := "restart_required_for_schedulers"

def GatedReason.code : GatedReason → String
  | .trialExpired => "TRIAL_EXPIRED"
  | .licenseInvalid => "INVALID_LICENSE"
  | .instanceMismatch => "INSTANCE_MISMATCH"
  | .licenseExpired => "EXPIRED"

def GatedReason.debug : GatedReason → String
  | .trialExpired => "TrialExpired"
  | .licenseInvalid => "LicenseInvalid"
  | .instanceMismatch => "InstanceMismatch"
  | .licenseExpired => "LicenseExpired"

section Installation

variable {Key Signature : Type} (inst : Installation Key Signature)

def Installation.adminToken : Option (List Char) := inst.adminTokenVar.filter (· ≠ [])

/-- `HeaderValue::to_str` fails on a byte that is not visible. -/
def toStr (header : List UInt8) : Option (List UInt8) :=
  if header.all fun b => b == 9 || (32 ≤ b && b < 127) then some header else none

def provided (header : Option (List UInt8)) : List UInt8 := (header.bind toStr).getD []

/-- The checks before the licence is looked at. -/
def Installation.admit (header : Option (List UInt8)) : Except Answer Unit :=
  if inst.embeddedMode then
    .error (.refused 200 "FORBIDDEN"
      "embedded mode is always Licensed; POST /api/license not applicable")
  else
    match inst.adminToken with
    | none => .error (.refused 403 "FORBIDDEN"
        ("POST /api/license requires DBMASTER_SERVER_ADMIN_TOKEN to be configured" ++
          " on remote servers"))
    | some expected =>
      if provided header = Utf8.encode expected then .ok ()
      else .error (.refused 401 "UNAUTHORIZED" "invalid admin token")

def Installation.resolve (dbOk : Bool) (trial : Option TrialStatus) (now : Int)
    (licenseText : Option (List Char)) : Option EntitlementState :=
  resolveEntitlementWithText inst.dalek inst.parseFromRfc3339 inst.trusted
    (if dbOk then some inst.installUuid else none) trial now licenseText

/-- The lifetime licence of the embedded mode. -/
def Installation.embeddedLicense (issuedAt : List Char) : LicenseV2 where
  email := "embedded@local".toList
  expiresAt := none
  instanceId := inst.installUuid
  issuedAt := issuedAt
  licenseType := "embedded".toList

/-- What the text is granted at some time. -/
def Installation.Grants (text : List Char) (st : EntitlementState) : Prop :=
  st.isGated = false ∧ ∃ now, inst.resolve true none now (some text) = some st

end Installation

/-! ## Calls -/

/-- How far a call is. -/
inductive Phase
  | admitted
  | resolved (st : EntitlementState)
  /-- the bytes up to the offset are written through the open file -/
  | writing (st : EntitlementState) (inode offset : Nat)
  | renamed (st : EntitlementState)
  | swapped
  | answered (answer : Answer)

def Phase.isWriting : Phase → Bool
  | .writing _ _ _ => true
  | _ => false

structure Post where
  license : List Char
  phase : Phase

/-- `core` is the entitlement of the routes of the core, `automation` that of the automation
routes and the MCP tools. -/
structure Server where
  core : EntitlementState
  automation : EntitlementState
  schedulers : Bool
  posts : List Post

structure World where
  disk : Disk
  server : Option Server

def Server.setPhase (s : Server) (i : Nat) (license : List Char) (phase : Phase) : Server :=
  { s with posts := s.posts.set i ⟨license, phase⟩ }

def gateBlocked (s : Server) : Bool := s.automation.isGated

def writeGateBlocked (s : Server) : Bool := s.automation.isGated

/-- The field `state` of `GET /api/entitlement`. -/
def entitlementState (s : Server) : String :=
  match s.core with
  | .licensed _ _ => "licensed"
  | .trial _ => "trial"
  | .gated _ => "gated"

inductive Action
  | boot (readable dbOk : Bool) (trial : Option TrialStatus) (now : Int) (issuedAt : List Char)
  | crash
  | post (header : Option (List UInt8)) (license : List Char)
  | resolve (i : Nat) (dbOk : Bool) (now : Int)
  | create (i : Nat)
  | write (i count : Nat)
  | rename (i : Nat)
  /-- opening, writing or renaming fails -/
  | fail (i : Nat) (message : String)
  | swap (i : Nat)
  | answer (i : Nat)

section Step

variable {Key Signature : Type} (inst : Installation Key Signature)

def booted (st : EntitlementState) : Server := ⟨st, st, !st.isGated, []⟩

/-- The entitlement at startup; a startup without one is aborted. -/
def Installation.entitlementAtBoot (d : Disk) (readable dbOk : Bool) (trial : Option TrialStatus)
    (now : Int) (issuedAt : List Char) : Option EntitlementState :=
  if inst.embeddedMode then some (.licensed (inst.embeddedLicense issuedAt) none)
  else inst.resolve dbOk trial now (readLicenseFile d readable)

def Installation.admitted (header : Option (List UInt8)) : Phase :=
  match inst.admit header with
  | .ok () => .admitted
  | .error answer => .answered answer

/-- A licence that is not granted is answered, and not written. -/
def Installation.judged (license : List Char) (dbOk : Bool) (now : Int) : Phase :=
  if dbOk then
    match inst.resolve true none now (some license) with
    | none => .answered .parserPanicked
    | some (.gated reason) =>
        .answered (.refused 200 (GatedReason.code reason)
          ("license rejected: " ++ GatedReason.debug reason))
    | some st => .resolved st
  else .answered (.refused 422 "INVALID_LICENSE" "ensure instance_meta")

/-- What is answered after the swap is read from the shared entitlement. -/
def answerOf : EntitlementState → Answer
  | .licensed license expiresAt => .licensed license.licenseType expiresAt schedulerNote
  | .trial expiresAt => .trial expiresAt schedulerNote
  | .gated _ => .unreachablePanicked

/-- The part of the text that is written next. -/
def chunk (license : List Char) (offset count : Nat) : List UInt8 :=
  ((Utf8.encode license).drop offset).take count

/-- A step of a call that is under way. -/
def advance (d : Disk) (s : Server) : Action → Option World
  | .post header license =>
    some ⟨d, some { s with posts := s.posts ++ [⟨license, inst.admitted header⟩] }⟩
  | .resolve i dbOk now =>
    match s.posts[i]? with
    | some ⟨license, .admitted⟩ =>
      some ⟨d, some (s.setPhase i license (inst.judged license dbOk now))⟩
    | _ => none
  | .create i =>
    match s.posts[i]? with
    | some ⟨license, .resolved st⟩ =>
      some ⟨d.create .tmp, some (s.setPhase i license (.writing st (d.target .tmp) 0))⟩
    | _ => none
  | .write i count =>
    match s.posts[i]? with
    | some ⟨license, .writing st inode offset⟩ =>
      some ⟨d.writeAt inode offset (chunk license offset count),
        some (s.setPhase i license
          (.writing st inode (offset + (chunk license offset count).length)))⟩
    | _ => none
  | .rename i =>
    match s.posts[i]? with
    | some ⟨license, .writing st _ offset⟩ =>
      -- all of the text is written, and the temporary file is still there
      if offset = (Utf8.encode license).length && (d.names .tmp).isSome then
        some ⟨d.rename .tmp .license, some (s.setPhase i license (.renamed st))⟩
      else none
    | _ => none
  | .fail i message =>
    match s.posts[i]? with
    | some ⟨license, .resolved _⟩ =>
      some ⟨d, some (s.setPhase i license (.answered (.refused 500 "FILE_WRITE_FAILED" message)))⟩
    | some ⟨license, .writing _ _ _⟩ =>
      some ⟨d, some (s.setPhase i license (.answered (.refused 500 "FILE_WRITE_FAILED" message)))⟩
    | _ => none
  | .swap i =>
    match s.posts[i]? with
    | some ⟨license, .renamed st⟩ =>
      some ⟨d, some { s.setPhase i license .swapped with core := st }⟩
    | _ => none
  | .answer i =>
    match s.posts[i]? with
    | some ⟨license, .swapped⟩ =>
      some ⟨d, some (s.setPhase i license (.answered (answerOf s.core)))⟩
    | _ => none
  | .boot _ _ _ _ _ => none
  | .crash => some ⟨d, none⟩

def step (w : World) (a : Action) : Option World :=
  match w.server with
  | some s => advance inst w.disk s a
  | none =>
    match a with
    | .boot readable dbOk trial now issuedAt =>
      (inst.entitlementAtBoot w.disk readable dbOk trial now issuedAt).map fun st =>
        ⟨w.disk, some (booted st)⟩
    | _ => none

end Step

/-! ## What a step does -/

section Steps

variable {Key Signature : Type} {inst : Installation Key Signature}
variable {d d' : Disk} {s s' : Server} {w w' : World} {a : Action} {as : List Action}
variable {i : Nat} {core core' st : EntitlementState} {license : List Char} {old new : Phase}

/-- The action moves the call from one phase to the next; the disk and the entitlement of the
core are those before and after. -/
inductive Moves (inst : Installation Key Signature) (i : Nat) (d : Disk) (core : EntitlementState)
    (license : List Char) : Action → Phase → Phase → Disk → EntitlementState → Prop
  | resolve (dbOk : Bool) (now : Int) :
      Moves inst i d core license (.resolve i dbOk now) .admitted
        (inst.judged license dbOk now) d core
  | create (st : EntitlementState) :
      Moves inst i d core license (.create i) (.resolved st) (.writing st (d.target .tmp) 0)
        (d.create .tmp) core
  | write (count : Nat) (st : EntitlementState) (inode offset : Nat) :
      Moves inst i d core license (.write i count) (.writing st inode offset)
        (.writing st inode (offset + (chunk license offset count).length))
        (d.writeAt inode offset (chunk license offset count)) core
  | rename (st : EntitlementState) (inode : Nat) :
      Moves inst i d core license (.rename i) (.writing st inode (Utf8.encode license).length)
        (.renamed st) (d.rename .tmp .license) core
  | fail (message : String) (old : Phase) :
      Moves inst i d core license (.fail i message) old
        (.answered (.refused 500 "FILE_WRITE_FAILED" message)) d core
  | swap (st : EntitlementState) :
      Moves inst i d core license (.swap i) (.renamed st) .swapped d st
  | answer :
      Moves inst i d core license (.answer i) .swapped (.answered (answerOf core)) d core

/-- A running server takes a call, moves one on, or stops. -/
theorem advance_cases (h : advance inst d s a = some w') :
    (∃ header license, a = .post header license ∧
      w' = ⟨d, some { s with posts := s.posts ++ [⟨license, inst.admitted header⟩] }⟩) ∨
    (∃ i license old new d' core', s.posts[i]? = some ⟨license, old⟩ ∧
      Moves inst i d s.core license a old new d' core' ∧
      w' = ⟨d', some { s.setPhase i license new with core := core' }⟩) ∨
    (a = .crash ∧ w' = ⟨d, none⟩) := by
  cases a with
  | boot readable dbOk trial now issuedAt => cases h
  | crash => exact Or.inr (Or.inr ⟨rfl, (Option.some.inj h).symm⟩)
  | post header license => exact Or.inl ⟨header, license, rfl, (Option.some.inj h).symm⟩
  | resolve i dbOk now =>
      unfold advance at h
      dsimp only at h
      split at h
      case h_2 => cases h
      case h_1 license hpost =>
        exact Or.inr (Or.inl ⟨i, license, _, _, d, s.core, hpost, .resolve dbOk now,
          (Option.some.inj h).symm⟩)
  | create i =>
      unfold advance at h
      dsimp only at h
      split at h
      case h_2 => cases h
      case h_1 license st hpost =>
        exact Or.inr (Or.inl ⟨i, license, _, _, d.create .tmp, s.core, hpost, .create st,
          (Option.some.inj h).symm⟩)
  | write i count =>
      unfold advance at h
      dsimp only at h
      split at h
      case h_2 => cases h
      case h_1 license st inode offset hpost =>
        exact Or.inr (Or.inl ⟨i, license, _, _, _, s.core, hpost, .write count st inode offset,
          (Option.some.inj h).symm⟩)
  | rename i =>
      unfold advance at h
      dsimp only at h
      split at h
      case h_2 => cases h
      case h_1 license st inode offset hpost =>
        split_ifs at h with hready
        rw [Bool.and_eq_true, decide_eq_true_eq] at hready
        obtain ⟨rfl, -⟩ := hready
        exact Or.inr (Or.inl ⟨i, license, _, _, _, s.core, hpost, .rename st inode,
          (Option.some.inj h).symm⟩)
  | fail i message =>
      unfold advance at h
      dsimp only at h
      split at h
      case h_3 => cases h
      case h_1 license st hpost =>
        exact Or.inr (Or.inl ⟨i, license, _, _, d, s.core, hpost, .fail message _,
          (Option.some.inj h).symm⟩)
      case h_2 license st inode offset hpost =>
        exact Or.inr (Or.inl ⟨i, license, _, _, d, s.core, hpost, .fail message _,
          (Option.some.inj h).symm⟩)
  | swap i =>
      unfold advance at h
      dsimp only at h
      split at h
      case h_2 => cases h
      case h_1 license st hpost =>
        exact Or.inr (Or.inl ⟨i, license, _, _, d, st, hpost, .swap st,
          (Option.some.inj h).symm⟩)
  | answer i =>
      unfold advance at h
      dsimp only at h
      split at h
      case h_2 => cases h
      case h_1 license hpost =>
        exact Or.inr (Or.inl ⟨i, license, _, _, d, s.core, hpost, .answer,
          (Option.some.inj h).symm⟩)

/-! ## The entitlement of the core -/

theorem refused_ne {status : Nat} {code message : String} :
    Answer.refused status code message ≠ .unreachablePanicked := by rintro ⟨⟩

theorem judged_cases (license : List Char) (dbOk : Bool) (now : Int) :
    (∃ st, inst.judged license dbOk now = .resolved st ∧ inst.Grants license st) ∨
      ∃ answer, inst.judged license dbOk now = .answered answer ∧
        answer ≠ .unreachablePanicked := by
  cases dbOk with
  | false => exact Or.inr ⟨_, rfl, refused_ne⟩
  | true =>
      cases hresolve : inst.resolve true none now (some license) with
      | none =>
          refine Or.inr ⟨.parserPanicked, by simp [Installation.judged, hresolve], ?_⟩
          rintro ⟨⟩
      | some st =>
          cases st with
          | gated reason =>
              refine Or.inr ⟨.refused 200 (GatedReason.code reason)
                ("license rejected: " ++ GatedReason.debug reason), ?_, refused_ne⟩
              simp [Installation.judged, hresolve]
          | licensed granted expiresAt =>
              exact Or.inl ⟨_, by simp [Installation.judged, hresolve], rfl, now, hresolve⟩
          | trial expiresAt =>
              exact Or.inl ⟨_, by simp [Installation.judged, hresolve], rfl, now, hresolve⟩

theorem admitted_cases (header : Option (List UInt8)) :
    (inst.admitted header = .admitted ∧ inst.admit header = .ok ()) ∨
      ∃ answer, inst.admitted header = .answered answer ∧ answer ≠ .unreachablePanicked := by
  unfold Installation.admitted Installation.admit
  split_ifs with hembedded
  · exact Or.inr ⟨_, rfl, refused_ne⟩
  · cases inst.adminToken with
    | none => exact Or.inr ⟨_, rfl, refused_ne⟩
    | some expected =>
        by_cases hprovided : provided header = Utf8.encode expected
        · exact Or.inl ⟨by simp [hprovided], by simp [hprovided]⟩
        · exact Or.inr ⟨.refused 401 "UNAUTHORIZED" "invalid admin token", by simp [hprovided],
            refused_ne⟩

theorem answerOf_ne (h : st.isGated = false) : answerOf st ≠ .unreachablePanicked := by
  cases st with
  | gated reason => cases h
  | licensed license expiresAt => rintro ⟨⟩
  | trial expiresAt => rintro ⟨⟩

/-- `Q` is what is known of the texts that were let in. -/
def PostSound (inst : Installation Key Signature) (Q : List Char → Prop) (core : EntitlementState)
    (license : List Char) : Phase → Prop
  | .admitted => Q license
  | .resolved st => Q license ∧ inst.Grants license st
  | .writing st _ _ => Q license ∧ inst.Grants license st
  | .renamed st => Q license ∧ inst.Grants license st
  | .swapped => core.isGated = false
  | .answered answer => answer ≠ .unreachablePanicked

/-- The entitlement of the core is the one of the boot, or was granted to a text. -/
structure Sound (inst : Installation Key Signature) (Q : List Char → Prop) (s : Server) : Prop where
  posts : ∀ post ∈ s.posts, PostSound inst Q s.core post.license post.phase
  core : s.core = s.automation ∨ ∃ license, Q license ∧ inst.Grants license s.core
  schedulers : s.schedulers = !s.automation.isGated

theorem Moves.sound {Q : List Char → Prop}
    (h : Moves inst i d core license a old new d' core') :
    (PostSound inst Q core license old → PostSound inst Q core' license new) ∧
      (core' = core ∨
        (PostSound inst Q core license old → Q license ∧ inst.Grants license core')) := by
  cases h with
  | resolve dbOk now =>
      refine ⟨?_, Or.inl rfl⟩
      intro hold
      rcases @judged_cases _ _ inst license dbOk now with ⟨st, hjudged, hgrants⟩ | hanswer
      · rw [hjudged]
        exact ⟨hold, hgrants⟩
      · obtain ⟨answer, hjudged, hne⟩ := hanswer
        rw [hjudged]
        exact hne
  | create st => exact ⟨id, Or.inl rfl⟩
  | write count st inode offset => exact ⟨id, Or.inl rfl⟩
  | rename st inode => exact ⟨id, Or.inl rfl⟩
  | fail message old => exact ⟨fun _ => refused_ne, Or.inl rfl⟩
  | swap st => exact ⟨fun hold => hold.2.1, Or.inr id⟩
  | answer => exact ⟨answerOf_ne, Or.inl rfl⟩

theorem PostSound.of_core {Q : List Char → Prop} {phase : Phase}
    (h : PostSound inst Q core license phase) (hcore : core' = core ∨ core'.isGated = false) :
    PostSound inst Q core' license phase := by
  cases phase with
  | swapped =>
      rcases hcore with rfl | hcore
      · exact h
      · exact hcore
  | admitted | resolved _ | writing _ _ _ | renamed _ | answered _ => exact h

theorem sound_booted (Q : List Char → Prop) (st : EntitlementState) :
    Sound inst Q (booted st) where
  posts post hpost := by cases hpost
  core := Or.inl rfl
  schedulers := rfl

theorem Sound.advance {Q : List Char → Prop} (hs : Sound inst Q s)
    (hQ : ∀ header license, a = .post header license → inst.admit header = .ok () → Q license)
    (h : advance inst d s a = some w') :
    ∀ s' ∈ w'.server, Sound inst Q s' ∧ s'.automation = s.automation := by
  intro s' hs'
  rcases advance_cases h with ⟨header, license, rfl, rfl⟩ |
    ⟨i, license, old, new, d', core', hpost, hmoves, rfl⟩ | ⟨rfl, rfl⟩
  · obtain rfl := Option.mem_some.mp hs'
    refine ⟨⟨?_, hs.core, hs.schedulers⟩, rfl⟩
    intro post hmem
    rcases List.mem_append.mp hmem with hkept | hnew
    · exact hs.posts post hkept
    · rw [List.mem_singleton.mp hnew]
      rcases @admitted_cases _ _ inst header with ⟨hadmitted, hok⟩ | ⟨answer, hadmitted, hne⟩
      · show PostSound inst Q s.core license (inst.admitted header)
        rw [hadmitted]
        exact hQ header license rfl hok
      · show PostSound inst Q s.core license (inst.admitted header)
        rw [hadmitted]
        exact hne
  · obtain rfl := Option.mem_some.mp hs'
    have hold := hs.posts _ (List.mem_of_getElem? hpost)
    obtain ⟨hnew, hcore⟩ := hmoves.sound (Q := Q)
    refine ⟨⟨?_, ?_, hs.schedulers⟩, rfl⟩
    · intro post hmem
      rcases List.mem_or_eq_of_mem_set hmem with hkept | rfl
      · refine (hs.posts post hkept).of_core ?_
        exact hcore.imp_right fun himp => (himp hold).2.1
      · exact hnew hold
    · show core' = s.automation ∨ _
      rcases hcore with rfl | himp
      · exact hs.core
      · exact Or.inr ⟨license, himp hold⟩
  · cases hs'

/-- The texts that a run posts with the admin token. -/
def LetIn (inst : Installation Key Signature) (as : List Action) (license : List Char) : Prop :=
  ∃ header, .post header license ∈ as ∧ inst.admit header = .ok ()

theorem step_cases (h : step inst w a = some w') :
    (∃ s, w.server = some s ∧ advance inst w.disk s a = some w') ∨
      (w.server = none ∧ ∃ st, w' = ⟨w.disk, some (booted st)⟩) := by
  unfold step at h
  split at h
  case h_1 s hs => exact Or.inl ⟨s, hs, h⟩
  case h_2 hs =>
    split at h
    case h_2 => cases h
    case h_1 readable dbOk trial now issuedAt =>
      obtain ⟨st, -, rfl⟩ := Option.map_eq_some_iff.mp h
      exact Or.inr ⟨hs, st, rfl⟩

theorem sound_of_step {Q : List Char → Prop} (hw : ∀ s ∈ w.server, Sound inst Q s)
    (hQ : ∀ header license, a = .post header license → inst.admit header = .ok () → Q license)
    (h : step inst w a = some w') : ∀ s ∈ w'.server, Sound inst Q s := by
  rcases step_cases h with ⟨s, hs, hadvance⟩ | ⟨-, st, rfl⟩
  · intro s' hs'
    exact ((hw s hs).advance hQ hadvance s' hs').1
  · intro s' hs'
    obtain rfl := Option.mem_some.mp hs'
    exact sound_booted Q st

theorem sound_of_run {allowed : World → Action → Prop}
    (hw : ∀ s ∈ w.server, Sound inst (LetIn inst as) s)
    (hrun : Run (step inst) allowed w as w') : ∀ s ∈ w'.server, Sound inst (LetIn inst as) s := by
  refine (hrun.restrict fun a ha => ha).invariant
    (I := fun w => ∀ s ∈ w.server, Sound inst (LetIn inst as) s) ?_ hw
  rintro w a w' ⟨-, ha⟩ hstep hs
  refine sound_of_step hs ?_ hstep
  rintro header license rfl hok
  exact ⟨header, ha, hok⟩

/-! ## The licence file in runs -/

/-- A file is opened for writing only when no other call has one open. -/
def Alone (w : World) : Action → Prop
  | .create _ => ∀ s ∈ w.server, ∀ post ∈ s.posts, post.phase.isWriting = false
  | _ => True

/-- The text that a call which writes has written is what the temporary file holds. -/
def Writes (d : Disk) (license : List Char) : Phase → Prop
  | .writing _ inode offset =>
      d.Holds .tmp inode ((Utf8.encode license).take offset) ∧
        offset ≤ (Utf8.encode license).length
  | _ => True

/-- No two calls write at the same time. -/
structure Tidy (d : Disk) (posts : List Post) : Prop where
  writes : ∀ (k : Nat) (post : Post), posts[k]? = some post → Writes d post.license post.phase
  single : ∀ (j k : Nat) (post post' : Post), posts[j]? = some post → posts[k]? = some post' →
    post.phase.isWriting = true → post'.phase.isWriting = true → j = k

theorem Writes.of_not_writing {phase : Phase} (h : phase.isWriting = false) :
    Writes d license phase := by
  cases phase with
  | writing _ _ _ => cases h
  | admitted | resolved _ | renamed _ | swapped | answered _ => trivial

theorem judged_not_writing (license : List Char) (dbOk : Bool) (now : Int) :
    (inst.judged license dbOk now).isWriting = false := by
  rcases @judged_cases _ _ inst license dbOk now with ⟨st, hjudged, -⟩ | ⟨answer, hjudged, -⟩
  · rw [hjudged]
    rfl
  · rw [hjudged]
    rfl

theorem admitted_not_writing (header : Option (List UInt8)) :
    (inst.admitted header).isWriting = false := by
  rcases @admitted_cases _ _ inst header with ⟨hadmitted, -⟩ | ⟨answer, hadmitted, -⟩
  · rw [hadmitted]
    rfl
  · rw [hadmitted]
    rfl

theorem Tidy.quiet {posts : List Post} (h : Tidy d posts) (hnew : new.isWriting = false) :
    Tidy d (posts.set i ⟨license, new⟩) where
  writes := by
    intro k post hk
    rcases of_getElem?_set hk with ⟨-, rfl⟩ | ⟨-, hkept⟩
    · exact Writes.of_not_writing hnew
    · exact h.writes k post hkept
  single := by
    intro j k post post' hj hk hpost hpost'
    rcases of_getElem?_set hj with ⟨-, rfl⟩ | ⟨-, hkept⟩
    · exact absurd (hnew.symm.trans hpost) Bool.false_ne_true
    rcases of_getElem?_set hk with ⟨-, rfl⟩ | ⟨-, hkept'⟩
    · exact absurd (hnew.symm.trans hpost') Bool.false_ne_true
    exact h.single j k post post' hkept hkept' hpost hpost'

theorem Tidy.append {posts : List Post} (h : Tidy d posts) (hnew : new.isWriting = false) :
    Tidy d (posts ++ [⟨license, new⟩]) where
  writes := by
    intro k post hk
    rcases of_getElem?_concat hk with ⟨-, rfl⟩ | hkept
    · exact Writes.of_not_writing hnew
    · exact h.writes k post hkept
  single := by
    intro j k post post' hj hk hpost hpost'
    rcases of_getElem?_concat hj with ⟨-, rfl⟩ | hkept
    · exact absurd (hnew.symm.trans hpost) Bool.false_ne_true
    rcases of_getElem?_concat hk with ⟨-, rfl⟩ | hkept'
    · exact absurd (hnew.symm.trans hpost') Bool.false_ne_true
    exact h.single j k post post' hkept hkept' hpost hpost'

theorem tidy_of_others {posts : List Post} (hnew : Writes d license new)
    (hothers : ∀ (k : Nat) (post : Post), k ≠ i → posts[k]? = some post →
      post.phase.isWriting = false) : Tidy d (posts.set i ⟨license, new⟩) where
  writes := by
    intro k post hk
    rcases of_getElem?_set hk with ⟨-, rfl⟩ | ⟨hne, hkept⟩
    · exact hnew
    · exact Writes.of_not_writing (hothers k post hne hkept)
  single := by
    intro j k post post' hj hk hpost hpost'
    have heq : ∀ (k : Nat) (post : Post), (posts.set i ⟨license, new⟩)[k]? = some post →
        post.phase.isWriting = true → k = i := by
      intro k post hk hpost
      rcases of_getElem?_set hk with ⟨hik, -⟩ | ⟨hne, hkept⟩
      · exact hik
      · exact absurd ((hothers k post hne hkept).symm.trans hpost) Bool.false_ne_true
    rw [heq j post hj hpost, heq k post' hk hpost']

theorem Tidy.others {posts : List Post} (h : Tidy d posts)
    (hpost : posts[i]? = some ⟨license, old⟩) (hold : old.isWriting = true) (k : Nat)
    (post : Post) (hk : k ≠ i) (hkept : posts[k]? = some post) :
    post.phase.isWriting = false := by
  by_contra hwriting
  exact hk (h.single k i post _ hkept hpost (eq_true_of_ne_false hwriting) hold)

theorem Tidy.moves (h : Tidy d s.posts) (hpost : s.posts[i]? = some ⟨license, old⟩)
    (hmoves : Moves inst i d core license a old new d' core') (halone : Alone ⟨d, some s⟩ a) :
    Tidy d' (s.posts.set i ⟨license, new⟩) := by
  cases hmoves with
  | resolve dbOk now => exact h.quiet (judged_not_writing license dbOk now)
  | fail message => exact h.quiet rfl
  | swap st => exact h.quiet rfl
  | answer => exact h.quiet rfl
  | create st =>
      refine tidy_of_others ⟨d.holds_create .tmp, Nat.zero_le _⟩ ?_
      intro k post _ hk
      exact halone s rfl post (List.mem_of_getElem? hk)
  | rename st inode => exact tidy_of_others trivial (h.others hpost rfl)
  | write count st inode offset =>
      obtain ⟨hholds, hle⟩ := h.writes i _ hpost
      refine tidy_of_others ⟨?_, Directory.next_le _ count hle⟩ (h.others hpost rfl)
      rw [chunk, ← Directory.overwrite_next _ count hle]
      exact hholds.writeAt _ _

theorem Tidy.read_license (h : Tidy d s.posts) (hpost : s.posts[i]? = some ⟨license, old⟩)
    (hmoves : Moves inst i d core license a old new d' core') :
    d'.read .license = d.read .license ∨
      (∃ st inode, old = .writing st inode (Utf8.encode license).length) ∧
        d'.read .license = some (Utf8.encode license) := by
  cases hmoves with
  | resolve dbOk now => exact Or.inl rfl
  | fail message => exact Or.inl rfl
  | swap st => exact Or.inl rfl
  | answer => exact Or.inl rfl
  | create st => exact Or.inl (d.read_create_ne (by decide))
  | rename st inode =>
      obtain ⟨hholds, -⟩ := h.writes i _ hpost
      rw [List.take_length] at hholds
      exact Or.inr ⟨⟨st, inode, rfl⟩, (hholds.rename .license).read⟩
  | write count st inode offset =>
      obtain ⟨hholds, -⟩ := h.writes i _ hpost
      refine Or.inl (Directory.read_writeAt_ne ?_ _ _)
      intro hlicense
      exact absurd (d.distinct _ _ _ hlicense hholds.named) (by decide)

/-- The licence file is what it was before, or a text that was let in and granted something. -/
structure Kept (inst : Installation Key Signature) (Q : List Char → Prop)
    (before : Option (List UInt8)) (w : World) : Prop where
  file : w.disk.read .license = before ∨ ∃ text st, Q text ∧ inst.Grants text st ∧
    w.disk.read .license = some (Utf8.encode text)
  sound : ∀ s ∈ w.server, Sound inst Q s
  tidy : ∀ s ∈ w.server, Tidy w.disk s.posts

theorem Kept.step {Q : List Char → Prop} {before : Option (List UInt8)}
    (hw : Kept inst Q before w) (halone : Alone w a)
    (hQ : ∀ header license, a = .post header license → inst.admit header = .ok () → Q license)
    (h : step inst w a = some w') : Kept inst Q before w' where
  sound := sound_of_step hw.sound hQ h
  file := by
    rcases step_cases h with ⟨s, hs, hadvance⟩ | ⟨-, st, rfl⟩
    · rcases advance_cases hadvance with ⟨header, license, -, rfl⟩ |
        ⟨i, license, old, new, d', core', hpost, hmoves, rfl⟩ | ⟨-, rfl⟩
      · exact hw.file
      · rcases (hw.tidy s hs).read_license hpost hmoves with hsame | ⟨⟨st, inode, rfl⟩, hnew⟩
        · rw [hsame]
          exact hw.file
        · obtain ⟨hQ', hgrants⟩ := (hw.sound s hs).posts _ (List.mem_of_getElem? hpost)
          exact Or.inr ⟨license, st, hQ', hgrants, hnew⟩
      · exact hw.file
    · exact hw.file
  tidy := by
    intro s' hs'
    rcases step_cases h with ⟨s, hs, hadvance⟩ | ⟨-, st, rfl⟩
    · rcases advance_cases hadvance with ⟨header, license, -, rfl⟩ |
        ⟨i, license, old, new, d', core', hpost, hmoves, rfl⟩ | ⟨-, rfl⟩
      · obtain rfl := Option.mem_some.mp hs'
        exact (hw.tidy s hs).append (admitted_not_writing header)
      · obtain rfl := Option.mem_some.mp hs'
        refine (hw.tidy s hs).moves hpost hmoves ?_
        rw [← hs]
        exact halone
      · cases hs'
    · obtain rfl := Option.mem_some.mp hs'
      exact ⟨by rintro k post ⟨⟩, by rintro j k post post' ⟨⟩⟩

theorem licenseState_ne_trial {now expiresAt : Int} {payload : LicenseV2}
    {parse : List Char → Option Int} {uuid : List Char} :
    licenseState parse now payload uuid ≠ .trial expiresAt := by
  unfold licenseState
  dsimp only
  split_ifs <;> rintro ⟨⟩

theorem resolve_of_trusted {publicKey : Key} (h : inst.trusted = some publicKey)
    (trial : Option TrialStatus) (now : Int) (text : List Char) :
    inst.resolve true trial now (some text) =
      resolveFromLicenseTextWithPk inst.dalek inst.parseFromRfc3339 now text inst.installUuid
        publicKey := by
  show resolveFromLicenseText inst.dalek inst.parseFromRfc3339 inst.trusted now text
    inst.installUuid = _
  rw [h]
  rfl

theorem verified_of_grants {text : List Char} (h : inst.Grants text st) :
    ∃ publicKey parsed payload expiresAt, inst.trusted = some publicKey ∧
      parseLicense text = some (.ok parsed) ∧
      verifyLicenseWithPk inst.dalek parsed publicKey = .ok payload ∧
      payload.instanceId = inst.installUuid ∧ st = .licensed payload expiresAt := by
  obtain ⟨hgated, now, hresolve⟩ := h
  cases htrusted : inst.trusted with
  | none =>
      replace hresolve : resolveFromLicenseText inst.dalek inst.parseFromRfc3339 inst.trusted now
        text inst.installUuid = some st := hresolve
      rw [htrusted] at hresolve
      cases hresolve
      cases hgated
  | some publicKey =>
      rw [resolve_of_trusted htrusted] at hresolve
      cases st with
      | gated reason => cases hgated
      | trial expiresAt =>
          obtain ⟨result, -, hresult⟩ := Option.map_eq_some_iff.mp hresolve
          split at hresult
          case h_1 => cases hresult
          case h_2 => cases hresult
          case h_3 parsed =>
            split at hresult
            case h_1 => exact absurd hresult licenseState_ne_trial
            case h_2 => cases hresult
      | licensed payload expiresAt =>
          obtain ⟨parsed, hparse, hverify, hstate⟩ := licensed_of_resolve hresolve
          exact ⟨publicKey, parsed, payload, expiresAt, rfl, hparse, hverify,
            (licenseState_licensed hstate).2.1, rfl⟩

theorem resolve_of_grants {text : List Char} (h : inst.Grants text st)
    (trial : Option TrialStatus) (now : Int) :
    ∃ st', inst.resolve true trial now (some text) = some st' ∧
      ((∃ license expiresAt, st' = .licensed license expiresAt) ∨
        st' = .gated .licenseExpired) := by
  obtain ⟨publicKey, parsed, payload, _, htrusted, hparse, hverify, hinstance, -⟩ :=
    verified_of_grants h
  refine ⟨licenseState inst.parseFromRfc3339 now payload inst.installUuid, ?_, ?_⟩
  · rw [resolve_of_trusted htrusted]
    unfold resolveFromLicenseTextWithPk
    rw [hparse, Option.map_some]
    simp only [hverify]
  · unfold licenseState
    rw [if_neg (not_not.mpr hinstance)]
    dsimp only
    split_ifs
    · exact Or.inr rfl
    · exact Or.inl ⟨_, _, rfl⟩

/-- The licence file is as it was, or it is all of a text that was posted with the admin token,
and every boot finds it a licence of this instance that may only have expired. -/
def LeftWhole (inst : Installation Key Signature) (d : Disk) (as : List Action) (d' : Disk) :
    Prop :=
  d'.read .license = d.read .license ∨
    ∃ header text, .post header text ∈ as ∧ inst.admit header = .ok () ∧
      d'.read .license = some (Utf8.encode text) ∧
      ∀ trial now, ∃ st, inst.resolve true trial now (readLicenseFile d' true) = some st ∧
        ((∃ license expiresAt, st = .licensed license expiresAt) ∨ st = .gated .licenseExpired)

/-- Wherever a run is cut off in which no two calls write at the same time. -/
theorem licence_file_whole (hrun : Run (step inst) Alone w as w') (hstopped : w.server = none) :
    LeftWhole inst w.disk as w'.disk := by
  have hstart : Kept inst (LetIn inst as) (w.disk.read .license) w := by
    refine ⟨Or.inl rfl, ?_, ?_⟩
    · intro s hs
      rw [hstopped] at hs
      cases hs
    · intro s hs
      rw [hstopped] at hs
      cases hs
  have hkept : Kept inst (LetIn inst as) (w.disk.read .license) w' := by
    refine (hrun.restrict fun a ha => ha).invariant ?_ hstart
    rintro w a w' ⟨halone, ha⟩ hstep hw
    refine hw.step halone ?_ hstep
    rintro header license rfl hok
    exact ⟨header, ha, hok⟩
  rcases hkept.file with hsame | ⟨text, st, ⟨header, hposted, hok⟩, hgrants, hfile⟩
  · exact Or.inl hsame
  · refine Or.inr ⟨header, text, hposted, hok, hfile, ?_⟩
    intro trial now
    rw [readLicenseFile_of_read hfile]
    exact resolve_of_grants hgrants trial now

/-! ## Runs of one and of two calls -/

theorem admitted_of_ok {header : Option (List UInt8)} (h : inst.admit header = .ok ()) :
    inst.admitted header = .admitted := by
  rw [Installation.admitted, h]

theorem exists_judged {text : List Char} (h : inst.Grants text st) :
    ∃ now, inst.judged text true now = .resolved st := by
  obtain ⟨hgated, now, hresolve⟩ := h
  refine ⟨now, ?_⟩
  unfold Installation.judged
  rw [if_pos rfl, hresolve]
  cases st with
  | gated reason => cases hgated
  | licensed license expiresAt => rfl
  | trial expiresAt => rfl

theorem chunk_all (text : List Char) :
    chunk text 0 (Utf8.encode text).length = Utf8.encode text := by
  rw [chunk, List.drop_zero, List.take_length]

theorem overwrite_nil (bytes : List UInt8) : Directory.overwrite [] 0 bytes = bytes :=
  Directory.overwrite_end [] bytes

theorem step_post {header : Option (List UInt8)} (hok : inst.admit header = .ok ()) :
    step inst ⟨d, some s⟩ (.post header license) =
      some ⟨d, some { s with posts := s.posts ++ [⟨license, .admitted⟩] }⟩ := by
  rw [← admitted_of_ok hok]
  rfl

theorem step_resolve {now : Int} (hpost : s.posts[i]? = some ⟨license, .admitted⟩)
    (hjudged : inst.judged license true now = .resolved st) :
    step inst ⟨d, some s⟩ (.resolve i true now) =
      some ⟨d, some (s.setPhase i license (.resolved st))⟩ := by
  rw [← hjudged]
  unfold step advance
  dsimp only
  rw [hpost]

theorem step_create (hpost : s.posts[i]? = some ⟨license, .resolved st⟩) :
    step inst ⟨d, some s⟩ (.create i) =
      some ⟨d.create .tmp, some (s.setPhase i license (.writing st (d.target .tmp) 0))⟩ := by
  unfold step advance
  dsimp only
  rw [hpost]

theorem step_write {inode offset : Nat} (count : Nat)
    (hpost : s.posts[i]? = some ⟨license, .writing st inode offset⟩) :
    step inst ⟨d, some s⟩ (.write i count) =
      some ⟨d.writeAt inode offset (chunk license offset count), some (s.setPhase i license
        (.writing st inode (offset + (chunk license offset count).length)))⟩ := by
  unfold step advance
  dsimp only
  rw [hpost]

theorem step_writeAll {inode : Nat}
    (hpost : s.posts[i]? = some ⟨license, .writing st inode 0⟩) :
    step inst ⟨d, some s⟩ (.write i (Utf8.encode license).length) =
      some ⟨d.writeAt inode 0 (Utf8.encode license), some (s.setPhase i license
        (.writing st inode (Utf8.encode license).length))⟩ := by
  have hwrite : step inst ⟨d, some s⟩ (.write i (Utf8.encode license).length) = _ :=
    step_write (Utf8.encode license).length hpost
  rwa [chunk_all, Nat.zero_add] at hwrite

theorem step_rename {inode : Nat}
    (hpost : s.posts[i]? = some ⟨license, .writing st inode (Utf8.encode license).length⟩)
    (hthere : (d.names .tmp).isSome = true) :
    step inst ⟨d, some s⟩ (.rename i) =
      some ⟨d.rename .tmp .license, some (s.setPhase i license (.renamed st))⟩ := by
  unfold step advance
  dsimp only
  rw [hpost]
  dsimp only
  rw [if_pos (by rw [hthere]; simp)]

theorem exists_run_activate (d : Disk) (core automation : EntitlementState) (schedulers : Bool)
    {header : Option (List UInt8)} {text : List Char} (hok : inst.admit header = .ok ())
    (hgrants : inst.Grants text st) :
    ∃ as d', .crash ∉ as ∧ .post header text ∈ as ∧
      Run (step inst) Alone ⟨d, some ⟨core, automation, schedulers, []⟩⟩ as
        ⟨d', some ⟨st, automation, schedulers, [⟨text, .answered (answerOf st)⟩]⟩⟩ ∧
      d'.read .license = some (Utf8.encode text) := by
  obtain ⟨now, hjudged⟩ := exists_judged hgrants
  have hholds := (d.holds_create .tmp).writeAt 0 (Utf8.encode text)
  rw [overwrite_nil] at hholds
  refine ⟨[.post header text, .resolve 0 true now, .create 0,
    .write 0 (Utf8.encode text).length, .rename 0, .swap 0, .answer 0], _, by simp, by simp, ?_,
    (hholds.rename .license).read⟩
  refine .cons trivial (step_post hok) (.cons trivial (step_resolve rfl hjudged)
    (.cons ?_ (step_create rfl) (.cons trivial (step_writeAll rfl)
      (.cons trivial (step_rename rfl ?_) (.cons trivial rfl (.cons trivial rfl (.nil _)))))))
  · intro s hs post hpost
    obtain rfl := Option.mem_some.mp hs
    rw [List.mem_singleton.mp hpost]
    rfl
  · rw [hholds.named]
    rfl

/-- Of two texts that would both be granted something, the file can be left with any beginning
of the second: with none of it, the next boot withholds the paid features. -/
theorem half_written (d : Disk) (core automation : EntitlementState) (schedulers : Bool)
    {header : Option (List UInt8)} {first second : List Char} {st' : EntitlementState}
    (hok : inst.admit header = .ok ()) (hfirst : inst.Grants first st)
    (hsecond : inst.Grants second st') (k : Nat) :
    ∃ as d', Run (step inst) anyStep ⟨d, some ⟨core, automation, schedulers, []⟩⟩ as ⟨d', none⟩ ∧
      d'.read .license = some ((Utf8.encode second).take k) ∧
      (k = 0 → ∀ trial now, inst.resolve true trial now (readLicenseFile d' true) =
        some (.gated .licenseInvalid)) := by
  obtain ⟨now, hjudged⟩ := exists_judged hfirst
  obtain ⟨now', hjudged'⟩ := exists_judged hsecond
  -- the second call cuts the file that the first has written, and the first renames it
  have hcut := (((d.create .tmp).writeAt (d.target .tmp) 0 (Utf8.encode first)).holds_create .tmp)
  have hleft := (hcut.rename .license).writeAt 0 (chunk second 0 k)
  rw [overwrite_nil] at hleft
  refine ⟨[.post header first, .post header second, .resolve 0 true now, .resolve 1 true now',
    .create 0, .write 0 (Utf8.encode first).length, .create 1, .rename 0, .write 1 k, .crash], _,
    ?_, hleft.read, ?_⟩
  · refine .cons trivial (step_post hok) (.cons trivial (step_post hok)
      (.cons trivial (step_resolve rfl hjudged) (.cons trivial (step_resolve rfl hjudged')
        (.cons trivial (step_create rfl) (.cons trivial (step_writeAll rfl)
          (.cons trivial (step_create rfl) (.cons trivial (step_rename rfl ?_)
            (.cons trivial (step_write k rfl) (.cons trivial rfl (.nil _))))))))))
    rw [hcut.named]
    rfl
  · rintro rfl trial now
    have hempty : readLicenseFile _ true = some [] := readLicenseFile_of_read hleft.read
    rw [hempty]
    show resolveFromLicenseText inst.dalek inst.parseFromRfc3339 inst.trusted now []
      inst.installUuid = _
    unfold resolveFromLicenseText
    cases inst.trusted with
    | none => rfl
    | some publicKey => rfl

/-! ## The gates -/

theorem automation_of_run {allowed : World → Action → Prop}
    (hrun : Run (step inst) allowed w as w') (hs : w.server = some s) (hcrash : .crash ∉ as) :
    ∃ s', w'.server = some s' ∧ s'.automation = s.automation ∧ s'.schedulers = s.schedulers := by
  refine (hrun.restrict fun a ha => (ne_of_mem_of_not_mem ha hcrash)).invariant
    (I := fun w => ∃ s', w.server = some s' ∧ s'.automation = s.automation ∧
      s'.schedulers = s.schedulers) ?_ ⟨s, hs, rfl, rfl⟩
  rintro w a w' ⟨-, hne⟩ hstep ⟨s', hs', hautomation, hschedulers⟩
  rcases step_cases hstep with ⟨s'', hs'', hadvance⟩ | ⟨hnone, -⟩
  · obtain rfl := Option.some.inj (hs'.symm.trans hs'')
    rcases advance_cases hadvance with ⟨header, license, -, rfl⟩ |
      ⟨i, license, old, new, d', core', -, -, rfl⟩ | ⟨rfl, -⟩
    · exact ⟨_, rfl, hautomation, hschedulers⟩
    · exact ⟨_, rfl, hautomation, hschedulers⟩
    · exact absurd rfl hne
  · rw [hnone] at hs'
    cases hs'

/-- A server that was started without an entitlement keeps its gates shut and its schedulers off
until it is started again, also when a licence that is posted is answered as in force. -/
theorem gate_unmoved (inst : Installation Key Signature) (d : Disk) (reason : GatedReason) :
    (∀ as w', .crash ∉ as → Run (step inst) anyStep ⟨d, some (booted (.gated reason))⟩ as w' →
      ∃ s', w'.server = some s' ∧ gateBlocked s' = true ∧ writeGateBlocked s' = true ∧
        s'.schedulers = false) ∧
      ∀ header text st, inst.admit header = .ok () → inst.Grants text st →
        ∃ as w' s' license expiresAt, .crash ∉ as ∧
          Run (step inst) anyStep ⟨d, some (booted (.gated reason))⟩ as w' ∧
          w'.server = some s' ∧ entitlementState s' = "licensed" ∧
          s'.posts = [⟨text, .answered (.licensed license expiresAt schedulerNote)⟩] ∧
          gateBlocked s' = true := by
  constructor
  · intro as w' hcrash hrun
    obtain ⟨s', hs', hautomation, hschedulers⟩ := automation_of_run hrun rfl hcrash
    refine ⟨s', hs', ?_, ?_, hschedulers⟩
    · rw [gateBlocked, hautomation]
      rfl
    · rw [writeGateBlocked, hautomation]
      rfl
  · intro header text st hok hgrants
    obtain ⟨_, _, license, expiresAt, -, -, -, -, rfl⟩ := verified_of_grants hgrants
    obtain ⟨as, d', hcrash, -, hrun, -⟩ := exists_run_activate d (.gated reason) (.gated reason)
      false hok hgrants
    exact ⟨as, _, _, license.licenseType, expiresAt, hcrash, hrun.free, rfl, rfl, rfl, rfl⟩

/-- The entitlement of the core is the one of the boot or was granted to a text that was posted
with the admin token, and no call has met the branch that is said to be unreachable. -/
def CoreEarned (inst : Installation Key Signature) (as : List Action) (s : Server) : Prop :=
  (s.core = s.automation ∨ ∃ header text, .post header text ∈ as ∧
      inst.admit header = .ok () ∧ inst.Grants text s.core) ∧
    ∀ post ∈ s.posts, ∀ answer, post.phase = .answered answer → answer ≠ .unreachablePanicked

/-- However calls interleave. -/
theorem core_of_run (hrun : Run (step inst) anyStep w as w') (hstopped : w.server = none) :
    ∀ s ∈ w'.server, CoreEarned inst as s := by
  have hstart : ∀ s ∈ w.server, Sound inst (LetIn inst as) s := by
    intro s hs
    rw [hstopped] at hs
    cases hs
  intro s hs
  have hsound := sound_of_run hstart hrun s hs
  refine ⟨hsound.core.imp_right ?_, ?_⟩
  · rintro ⟨text, ⟨header, hposted, hok⟩, hgrants⟩
    exact ⟨header, text, hposted, hok, hgrants⟩
  · intro post hpost answer hanswered
    have hkept := hsound.posts post hpost
    rw [hanswered] at hkept
    exact hkept

end Steps

/-! ## A licence that is posted -/

def fixtureInstallation : Installation Unit ByteArray where
  dalek := signedOnce fixtureNoOffset signatureHex64 signature64
  parseFromRfc3339 := parseUtc
  trusted := some ()
  installUuid := fixtureNoOffset.instanceId
  embeddedMode := false
  adminTokenVar := some "token".toList

def fixtureHeader : Option (List UInt8) := some (Utf8.encode "token".toList)

def fixtureText : List Char := renderPem fixtureNoOffset signatureHex64

theorem admit_fixture : fixtureInstallation.admit fixtureHeader = .ok () := by
  have htoken : fixtureInstallation.adminToken = some "token".toList := by decide
  have hprovided : provided fixtureHeader = Utf8.encode "token".toList := by decide
  unfold Installation.admit
  rw [if_neg (by decide), htoken]
  exact if_pos hprovided

theorem grants_fixture :
    fixtureInstallation.Grants fixtureText (.licensed fixtureNoOffset none) := by
  have hparse : parseLicense fixtureText =
      some (.ok (parsedOf fixtureNoOffset signatureHex64)) :=
    parseLicense_renderPem wellFormed_fixtureNoOffset
  have hnone : parseUtc "2027-08-05T00:00:00".toList = none := by decide +kernel
  have hgranted := resolve_unreadable hparse verify_fixtureNoOffset rfl rfl hnone 0
  exact ⟨rfl, 0, (resolve_of_trusted rfl none 0 fixtureText).trans hgranted⟩

theorem exists_run_fixture : ∃ as d' s',
    Run (step fixtureInstallation) Alone ⟨Directory.empty, none⟩ as ⟨d', some s'⟩ ∧
      d'.read .license = some (Utf8.encode fixtureText) := by
  obtain ⟨as, d', -, -, hrun, hfile⟩ := exists_run_activate Directory.empty (.gated .trialExpired)
    (.gated .trialExpired) false admit_fixture grants_fixture
  exact ⟨.boot true true (some .expired) 0 [] :: as, d', _, .cons trivial rfl hrun, hfile⟩

theorem licence_file_whole_fixture : ∃ as d' s',
    Run (step fixtureInstallation) Alone ⟨Directory.empty, none⟩ as ⟨d', some s'⟩ ∧
      d'.read .license = some (Utf8.encode fixtureText) ∧
      LeftWhole fixtureInstallation Directory.empty as d' := by
  obtain ⟨as, d', s', hrun, hfile⟩ := exists_run_fixture
  exact ⟨as, d', s', hrun, hfile, licence_file_whole hrun rfl⟩

theorem half_written_fixture : ∃ as d',
    Run (step fixtureInstallation) anyStep
      ⟨Directory.empty, some ⟨.gated .trialExpired, .gated .trialExpired, false, []⟩⟩ as
      ⟨d', none⟩ ∧
    d'.read .license = some ((Utf8.encode fixtureText).take 40) := by
  obtain ⟨as, d', hrun, hfile, -⟩ := half_written Directory.empty (.gated .trialExpired)
    (.gated .trialExpired) false admit_fixture grants_fixture grants_fixture 40
  exact ⟨as, d', hrun, hfile⟩

theorem core_of_run_fixture : ∃ as d' s',
    Run (step fixtureInstallation) anyStep ⟨Directory.empty, none⟩ as ⟨d', some s'⟩ ∧
      CoreEarned fixtureInstallation as s' := by
  obtain ⟨as, d', s', hrun, -⟩ := exists_run_fixture
  exact ⟨as, d', s', hrun.free, core_of_run hrun.free rfl s' rfl⟩

end Dbmaster.License.Activation
