import Dbmaster.Lib.Calls
import Dbmaster.Lib.Json
import Dbmaster.NativeCollector.Redis
import Dbmaster.QueryStats.Normalize
import Dbmaster.RateLimit.Gated
/-!
# The slow-query recorder

`QueryStatsRecorder::record`: the gate in the caller's thread, and the task it spawns, which looks
the kind of the connection up and inserts the row.  Any number of captures is under way, while
connections come and go and old rows are deleted.
-/

namespace Dbmaster.QueryStats.Recorder

open Dbmaster.Lib Dbmaster.Lib.Transition Dbmaster.Lib.Calls
open Dbmaster.RateLimit.Limiter Dbmaster.RateLimit.Gated
open Dbmaster.NativeCollector.Collector (truncateChars sqlTextMaxChars)
open Dbmaster.NativeCollector.Redis (normalizeRedis)
open Dbmaster.QueryStats.Normalize

/-! ## Captures -/

inductive CaptureEntry
  | gwSse | syncQuery | txnQuery | adminScript | mcpRead
  deriving DecidableEq

def CaptureEntry.asStr : CaptureEntry → String
  | .gwSse => "gw_sse"
  | .syncQuery => "sync_query"
  | .txnQuery => "txn_query"
  | .adminScript => "admin_script"
  | .mcpRead => "mcp_read"

inductive CaptureOutcome
  | ok
  | error (code : String)
  | cancelled

def CaptureOutcome.status : CaptureOutcome → String
  | .ok => "ok"
  | .error _ => "error"
  | .cancelled => "cancelled"

def CaptureOutcome.errorCode : CaptureOutcome → Option String
  | .error code => some code
  | _ => none

inductive CapturePayload
  | sql (text : List Char)
  | mongo (doc : Json)
  | redis (cmdline : List String)
  | redisPipeline (pipeline : List (List String))

/-- What `record` is called with. -/
structure Capture where
  elapsedMs : UInt64
  connId : String
  dbKind : Option String
  database : Option String
  userId : Option String
  entry : CaptureEntry
  outcome : CaptureOutcome
  payload : CapturePayload
  rowCount : Option UInt64
  affectedRows : Option UInt64

/-- The outcome of a stream: the counts of a complete one, or its error code. -/
def recordStream (elapsedMs : UInt64) (connId : String) (db : Option String)
    (payload : CapturePayload) (outcome : Except String (UInt64 × Option UInt64)) : Capture where
  elapsedMs := elapsedMs
  connId := connId
  dbKind := none
  database := db
  userId := none
  entry := .gwSse
  outcome :=
    match outcome with
    | .ok _ => .ok
    | .error code => if code = "CANCELLED" then .cancelled else .error code
  payload := payload
  rowCount :=
    match outcome with
    | .ok info => some info.1
    | .error _ => none
  affectedRows :=
    match outcome with
    | .ok info => info.2
    | .error _ => none

/-- `to_uppercase` of the standard library, and the text of a JSON document. -/
structure Texts where
  toUppercase : List Char → List Char
  jsonText : Json → List Char

section Texts

variable (texts : Texts)

def normalizeMongo : Json → List Char
  | .obj ((cmd, value) :: _) =>
    "mongo:".toList ++ cmd.toList ++ ":".toList ++ (value.asStr.getD "?").toList
  | _ => "mongo:?".toList

def normalizeRedisPipeline (pipeline : List (List String)) : List Char :=
  let cmds := pipeline.map fun c => texts.toUppercase ((c.head?.map String.toList).getD [])
  truncateChars ("redis:PIPELINE[".toList ++ (toString pipeline.length).toList ++ "]:".toList ++
    ['+'].intercalate cmds) digestMaxChars

def digestOf : CapturePayload → List Char
  | .sql text => normalizeDigest text
  | .mongo doc => normalizeMongo doc
  | .redis cmdline => normalizeRedis texts.toUppercase cmdline
  | .redisPipeline pipeline => normalizeRedisPipeline texts pipeline

def renderPlaintext : CapturePayload → List Char
  | .sql text => text
  | .mongo doc => texts.jsonText doc
  | .redis cmdline => (" ".intercalate cmdline).toList
  | .redisPipeline pipeline => (" ; ".intercalate (pipeline.map " ".intercalate)).toList

end Texts

/-! ## The recorder -/

structure Config where
  enabled : Bool
  thresholdMs : UInt32
  storeSql : Bool
  capPerHour : UInt32

def capWindowSecs : Nat := 3600

/-- A row of `query_stats`. -/
structure InsertRow where
  id : String
  source : String
  connId : String
  dbKind : String
  database : Option String
  digest : List Char
  sqlText : Option (List Char)
  elapsedMs : Int64
  rowCount : Option Int64
  affectedRows : Option Int64
  queryCount : Option Int64
  status : String
  errorCode : Option String
  userId : Option String
  entry : String
  capturedAt : String

/-- How far a capture is; the gate has let it through at a time. -/
inductive Stage
  | called
  | passedOver
  | dropped
  | spawned (gated : Int)
  | kindKnown (gated : Int) (dbKind : String)
  | stored (gated : Int) (row : InsertRow)
  | orphaned (gated : Int)
  | failed (gated : Int)

structure Phase where
  capture : Capture
  stage : Stage

/-- `rotated` are the rows that the retention has deleted, `warnings` the failures in the log;
`now` is the clock of the limiter. -/
structure Shared where
  rows : List InsertRow
  rotated : List InsertRow
  connections : String → Option String
  limiter : SlidingWindowLimiter
  dropped : UInt64
  warnings : Nat
  now : Int

def Shared.initial (connections : String → Option String) (now : Int) : Shared :=
  ⟨[], [], connections, .new, 0, 0, now⟩

inductive Event
  /-- whether the statement succeeds, with the UUID and the clock -/
  | meets (ok : Bool) (id capturedAt : String)
  | tick (nanos : Nat)
  | connect (connId dbKind : String)
  | disconnect (connId : String)
  | rotate (expired : InsertRow → Bool)

section Program

variable (texts : Texts) (config : Config)

def isSlow (c : Capture) : Bool :=
  config.enabled && decide (config.thresholdMs.toUInt64 ≤ c.elapsedMs)

/-- The key of the limiter. -/
def keyOf (c : Capture) : String := String.ofList (digestOf texts c.payload)

def gate (s : Shared) (c : Capture) : Shared × Stage :=
  if isSlow config c then
    let checked := checkAndRecord s.limiter (keyOf texts c) config.capPerHour.toNat
      capWindowSecs s.now
    if checked.2 then ({ s with limiter := checked.1 }, .spawned s.now)
    else ({ s with limiter := checked.1, dropped := s.dropped + 1 }, .dropped)
  else (s, .passedOver)

def rowOf (c : Capture) (dbKind id capturedAt : String) : InsertRow where
  id := id
  source := "gateway"
  connId := c.connId
  dbKind := dbKind
  database := c.database
  digest := digestOf texts c.payload
  sqlText :=
    if config.storeSql then some (truncateChars (renderPlaintext texts c.payload) sqlTextMaxChars)
    else none
  elapsedMs := c.elapsedMs.toInt64
  rowCount := c.rowCount.map UInt64.toInt64
  affectedRows := c.affectedRows.map UInt64.toInt64
  queryCount := none
  status := c.outcome.status
  errorCode := c.outcome.errorCode
  userId := c.userId
  entry := c.entry.asStr
  capturedAt := capturedAt

/-- The row of a stream says how the stream ended. -/
theorem rowOf_recordStream (elapsedMs : UInt64) (connId : String) (db : Option String)
    (payload : CapturePayload) (outcome : Except String (UInt64 × Option UInt64))
    (dbKind id capturedAt : String) :
    let row := rowOf texts config (recordStream elapsedMs connId db payload outcome) dbKind id
      capturedAt
    (row.status = "ok" ↔ row.rowCount.isSome = true) ∧
      (row.status = "cancelled" ↔ outcome = .error "CANCELLED") ∧
      ∀ code, row.errorCode = some code ↔ outcome = .error code ∧ code ≠ "CANCELLED" := by
  cases outcome with
  | ok info =>
      refine ⟨⟨fun _ => rfl, fun _ => rfl⟩, ⟨fun h => ?_, nofun⟩, fun code => ⟨nofun, nofun⟩⟩
      exact absurd h (by simp [rowOf, recordStream, CaptureOutcome.status])
  | error code =>
      by_cases hcancelled : code = "CANCELLED"
      · subst hcancelled
        simp [rowOf, recordStream, CaptureOutcome.status, CaptureOutcome.errorCode]
      · simp [rowOf, recordStream, CaptureOutcome.status, CaptureOutcome.errorCode, hcancelled]

def move (s : Shared) (phase : Phase) : Event → Option (Shared × Phase)
  | .meets ok id capturedAt =>
    match phase.stage with
    | .called =>
      let gated := gate texts config s phase.capture
      some (gated.1, ⟨phase.capture, gated.2⟩)
    | .spawned gated =>
      match phase.capture.dbKind with
      | some dbKind => some (s, ⟨phase.capture, .kindKnown gated dbKind⟩)
      | none =>
        if ok then
          match s.connections phase.capture.connId with
          | some dbKind => some (s, ⟨phase.capture, .kindKnown gated dbKind⟩)
          -- the connection has been deleted
          | none => some (s, ⟨phase.capture, .orphaned gated⟩)
        else some ({ s with warnings := s.warnings + 1 }, ⟨phase.capture, .failed gated⟩)
    | .kindKnown gated dbKind =>
      let row := rowOf texts config phase.capture dbKind id capturedAt
      if ok && !((s.rows.map InsertRow.id).contains id) then
        some ({ s with rows := s.rows ++ [row] }, ⟨phase.capture, .stored gated row⟩)
      else some ({ s with warnings := s.warnings + 1 }, ⟨phase.capture, .failed gated⟩)
    | _ => none
  | _ => none

def env (s : Shared) : Event → Option Shared
  | .meets _ _ _ => none
  | .tick nanos => some { s with now := s.now + nanos }
  | .connect connId dbKind =>
    some { s with connections := fun k => if k = connId then some dbKind else s.connections k }
  | .disconnect connId =>
    some { s with connections := fun k => if k = connId then none else s.connections k }
  | .rotate expired =>
    some { s with
      rows := s.rows.filter fun row => !expired row
      rotated := s.rotated ++ s.rows.filter expired }

def program : Program Shared Phase Capture Event where
  call c := ⟨c, .called⟩
  move := move texts config
  env := env

end Program

/-! ## What a step does -/

section Steps

variable {texts : Texts} {config : Config} {s s' : Shared} {e : Event} {c : Capture}
variable {phase phase' : Phase} {old new : Stage}

/-- A capture goes from one stage to the next. -/
inductive Moves (texts : Texts) (config : Config) (s : Shared) (c : Capture) :
    Stage → Stage → Shared → Prop
  | passOver (hslow : isSlow config c = false) : Moves texts config s c .called .passedOver s
  | letThrough (limiter : SlidingWindowLimiter) (hslow : isSlow config c = true)
      (hchecked : checkAndRecord s.limiter (keyOf texts c) config.capPerHour.toNat capWindowSecs
        s.now = (limiter, true)) :
      Moves texts config s c .called (.spawned s.now) { s with limiter := limiter }
  | drop (limiter : SlidingWindowLimiter) (hslow : isSlow config c = true)
      (hchecked : checkAndRecord s.limiter (keyOf texts c) config.capPerHour.toNat capWindowSecs
        s.now = (limiter, false)) :
      Moves texts config s c .called .dropped
        { s with limiter := limiter, dropped := s.dropped + 1 }
  | know (gated : Int) (dbKind : String)
      (hkind : c.dbKind = some dbKind ∨ c.dbKind = none ∧ s.connections c.connId = some dbKind) :
      Moves texts config s c (.spawned gated) (.kindKnown gated dbKind) s
  | orphan (gated : Int) (hgone : c.dbKind = none ∧ s.connections c.connId = none) :
      Moves texts config s c (.spawned gated) (.orphaned gated) s
  | failLookup (gated : Int) :
      Moves texts config s c (.spawned gated) (.failed gated)
        { s with warnings := s.warnings + 1 }
  | failInsert (gated : Int) (dbKind : String) :
      Moves texts config s c (.kindKnown gated dbKind) (.failed gated)
        { s with warnings := s.warnings + 1 }
  | store (gated : Int) (dbKind id capturedAt : String) :
      Moves texts config s c (.kindKnown gated dbKind)
        (.stored gated (rowOf texts config c dbKind id capturedAt))
        { s with rows := s.rows ++ [rowOf texts config c dbKind id capturedAt] }

theorem moves_gate (texts : Texts) (config : Config) (s : Shared) (c : Capture) :
    Moves texts config s c .called (gate texts config s c).2 (gate texts config s c).1 := by
  unfold gate
  cases hslow : isSlow config c with
  | false => exact .passOver hslow
  | true =>
      rw [if_pos rfl]
      dsimp only
      cases hchecked : checkAndRecord s.limiter (keyOf texts c) config.capPerHour.toNat
        capWindowSecs s.now with
      | mk limiter allowed =>
          cases allowed with
          | true => exact .letThrough limiter hslow hchecked
          | false => exact .drop limiter hslow hchecked

theorem move_moves (h : move texts config s ⟨c, old⟩ e = some (s', phase')) :
    ∃ new, phase' = ⟨c, new⟩ ∧ Moves texts config s c old new s' := by
  cases e with
  | tick _ => cases h
  | connect _ _ => cases h
  | disconnect _ => cases h
  | rotate _ => cases h
  | meets ok id capturedAt =>
      cases old with
      | called =>
          obtain ⟨rfl, rfl⟩ := Prod.mk.inj (Option.some.inj h)
          exact ⟨_, rfl, moves_gate texts config s c⟩
      | spawned gated =>
          unfold move at h
          dsimp only at h
          cases hkind : c.dbKind with
          | some dbKind =>
              rw [hkind] at h
              obtain ⟨rfl, rfl⟩ := Prod.mk.inj (Option.some.inj h)
              exact ⟨_, rfl, .know gated dbKind (Or.inl hkind)⟩
          | none =>
              rw [hkind] at h
              dsimp only at h
              split_ifs at h
              · cases hconnection : s.connections c.connId with
                | some dbKind =>
                    rw [hconnection] at h
                    obtain ⟨rfl, rfl⟩ := Prod.mk.inj (Option.some.inj h)
                    exact ⟨_, rfl, .know gated dbKind (Or.inr ⟨hkind, hconnection⟩)⟩
                | none =>
                    rw [hconnection] at h
                    obtain ⟨rfl, rfl⟩ := Prod.mk.inj (Option.some.inj h)
                    exact ⟨_, rfl, .orphan gated ⟨hkind, hconnection⟩⟩
              · obtain ⟨rfl, rfl⟩ := Prod.mk.inj (Option.some.inj h)
                exact ⟨_, rfl, .failLookup gated⟩
      | kindKnown gated dbKind =>
          unfold move at h
          dsimp only at h
          split_ifs at h
          · obtain ⟨rfl, rfl⟩ := Prod.mk.inj (Option.some.inj h)
            exact ⟨_, rfl, .store gated dbKind id capturedAt⟩
          · obtain ⟨rfl, rfl⟩ := Prod.mk.inj (Option.some.inj h)
            exact ⟨_, rfl, .failInsert gated dbKind⟩
      | passedOver => cases h
      | dropped => cases h
      | stored _ _ => cases h
      | orphaned _ => cases h
      | failed _ => cases h

/-! ## Every slow query is accounted for -/

/-- What a stage says of its capture: it has been found slow, and a row is the row of it. -/
def Known (texts : Texts) (config : Config) (phase : Phase) : Prop :=
  match phase.stage with
  | .called => True
  | .passedOver => isSlow config phase.capture = false
  | .stored _ row => isSlow config phase.capture = true ∧
      ∃ dbKind id capturedAt, row = rowOf texts config phase.capture dbKind id capturedAt
  | _ => isSlow config phase.capture = true

theorem Moves.known (h : Moves texts config s c old new s') (hold : Known texts config ⟨c, old⟩) :
    Known texts config ⟨c, new⟩ := by
  cases h with
  | passOver hslow => exact hslow
  | letThrough limiter hslow _ => exact hslow
  | drop limiter hslow _ => exact hslow
  | know gated dbKind _ => exact hold
  | orphan gated _ => exact hold
  | failLookup gated => exact hold
  | failInsert gated dbKind => exact hold
  | store gated dbKind id capturedAt => exact ⟨hold, dbKind, id, capturedAt, rfl⟩

theorem keeps_known : (program texts config).Keeps (fun _ => True) (fun _ => True)
    fun _ _ phase => Known texts config phase where
  call := by
    rintro s i c - -
    trivial
  move := by
    rintro s i ⟨c, old⟩ e s' phase' - hold - hmove
    obtain ⟨new, rfl, hmoves⟩ := move_moves hmove
    exact ⟨trivial, hmoves.known hold⟩
  stable s i phase e s' phase' k other _ _ _ _ _ hother := hother
  env s e s' _ _ _ := ⟨trivial, fun k other hother => hother⟩

def Phase.row : Phase → Option InsertRow
  | ⟨_, .stored _ row⟩ => some row
  | _ => none

def Stage.isDropped : Stage → Bool
  | .dropped => true
  | _ => false

def Stage.isFailed : Stage → Bool
  | .failed _ => true
  | _ => false

/-- The rows that are deleted join those that had been. -/
theorem perm_rotate (expired : InsertRow → Bool) (rows rotated : List InsertRow) :
    ((rows.filter fun row => !expired row) ++ (rotated ++ rows.filter expired)).Perm
      (rows ++ rotated) := by
  have hsplit : (rotated ++ rows.filter expired ++ rows.filter fun row => !expired row).Perm
      (rotated ++ rows) := by
    rw [List.append_assoc]
    exact (List.filter_append_perm expired rows).append_left rotated
  exact (List.perm_append_comm.trans hsplit).trans List.perm_append_comm

/-- Only captures are counted. -/
theorem counters_env (h : env s e = some s') :
    s'.dropped = s.dropped ∧ s'.warnings = s.warnings := by
  cases e with
  | meets _ _ _ => cases h
  | tick _ =>
      cases h
      exact ⟨rfl, rfl⟩
  | connect _ _ =>
      cases h
      exact ⟨rfl, rfl⟩
  | disconnect _ =>
      cases h
      exact ⟨rfl, rfl⟩
  | rotate _ =>
      cases h
      exact ⟨rfl, rfl⟩

theorem books_rows : (program texts config).KeepsBooks (fun _ => True) (fun _ => True)
    (fun _ _ phase => Known texts config phase) (fun s => s.rows ++ s.rotated) Phase.row where
  call _ := rfl
  move := by
    rintro s i ⟨c, old⟩ e s' phase' - - - hmove
    obtain ⟨new, rfl, hmoves⟩ := move_moves hmove
    cases hmoves with
    | store gated dbKind id capturedAt =>
        refine Or.inr ⟨_, rfl, rfl, ?_⟩
        dsimp only
        rw [List.append_assoc]
        exact List.perm_middle
    | passOver _ => exact Or.inl ⟨rfl, .refl _⟩
    | letThrough _ _ _ => exact Or.inl ⟨rfl, .refl _⟩
    | drop _ _ _ => exact Or.inl ⟨rfl, .refl _⟩
    | know _ _ _ => exact Or.inl ⟨rfl, .refl _⟩
    | orphan _ _ => exact Or.inl ⟨rfl, .refl _⟩
    | failLookup _ => exact Or.inl ⟨rfl, .refl _⟩
    | failInsert _ _ => exact Or.inl ⟨rfl, .refl _⟩
  env := by
    intro s e s' h
    cases e with
    | meets _ _ _ => cases h
    | tick _ =>
        cases h
        exact .refl _
    | connect _ _ =>
        cases h
        exact .refl _
    | disconnect _ =>
        cases h
        exact .refl _
    | rotate expired =>
        cases h
        exact perm_rotate expired s.rows s.rotated

theorem counts_dropped : (program texts config).KeepsCount Shared.dropped (· + 1)
    fun phase => phase.stage.isDropped where
  call _ := rfl
  move := by
    rintro s ⟨c, old⟩ e s' phase' hmove
    obtain ⟨new, rfl, hmoves⟩ := move_moves hmove
    cases hmoves with
    | drop _ _ _ => exact Or.inr ⟨rfl, rfl, rfl⟩
    | passOver _ => exact Or.inl ⟨rfl, rfl⟩
    | letThrough _ _ _ => exact Or.inl ⟨rfl, rfl⟩
    | know _ _ _ => exact Or.inl ⟨rfl, rfl⟩
    | orphan _ _ => exact Or.inl ⟨rfl, rfl⟩
    | failLookup _ => exact Or.inl ⟨rfl, rfl⟩
    | failInsert _ _ => exact Or.inl ⟨rfl, rfl⟩
    | store _ _ _ _ => exact Or.inl ⟨rfl, rfl⟩
  env s e s' h := (counters_env h).1

theorem counts_warnings : (program texts config).KeepsCount Shared.warnings (· + 1)
    fun phase => phase.stage.isFailed where
  call _ := rfl
  move := by
    rintro s ⟨c, old⟩ e s' phase' hmove
    obtain ⟨new, rfl, hmoves⟩ := move_moves hmove
    cases hmoves with
    | failLookup _ => exact Or.inr ⟨rfl, rfl, rfl⟩
    | failInsert _ _ => exact Or.inr ⟨rfl, rfl, rfl⟩
    | drop _ _ _ => exact Or.inl ⟨rfl, rfl⟩
    | passOver _ => exact Or.inl ⟨rfl, rfl⟩
    | letThrough _ _ _ => exact Or.inl ⟨rfl, rfl⟩
    | know _ _ _ => exact Or.inl ⟨rfl, rfl⟩
    | orphan _ _ => exact Or.inl ⟨rfl, rfl⟩
    | store _ _ _ _ => exact Or.inl ⟨rfl, rfl⟩
  env s e s' h := (counters_env h).2

/-- The counter of the drops is 64 bits wide and wraps. -/
theorem iterate_dropped (n : Nat) : (fun k : UInt64 => k + 1)^[n] 0 = UInt64.ofNat n := by
  induction n with
  | zero => rfl
  | succ n ih => rw [Function.iterate_succ_apply', ih, UInt64.ofNat_add]; rfl

theorem iterate_warnings (n : Nat) : (fun k : Nat => k + 1)^[n] 0 = n := by
  induction n with
  | zero => rfl
  | succ n ih => rw [Function.iterate_succ_apply', ih]

def Stage.isCalled : Stage → Bool
  | .called => true
  | _ => false

def Stage.isOrphaned : Stage → Bool
  | .orphaned _ => true
  | _ => false

/-- The task has been spawned and has not ended. -/
def Stage.isPending : Stage → Bool
  | .spawned _ => true
  | .kindKnown _ _ => true
  | _ => false

/-- The gate has met the capture, and it was slow. -/
def Phase.isSlow (config : Config) (phase : Phase) : Bool :=
  Recorder.isSlow config phase.capture && !phase.stage.isCalled

/-- A slow capture is in just one of the stages it can come to. -/
theorem one_stage {phase : Phase} (h : Known texts config phase) :
    (if Phase.isSlow config phase = true then 1 else 0) =
      (if phase.row.isSome = true then 1 else 0) +
        (if phase.stage.isDropped = true then 1 else 0) +
        (if phase.stage.isFailed = true then 1 else 0) +
        (if phase.stage.isOrphaned = true then 1 else 0) +
        (if phase.stage.isPending = true then 1 else 0) := by
  obtain ⟨c, stage⟩ := phase
  unfold Known at h
  cases stage with
  | called =>
      simp [Phase.isSlow, Phase.row, Stage.isDropped, Stage.isFailed, Stage.isCalled,
        Stage.isOrphaned, Stage.isPending]
  | passedOver =>
      dsimp only at h
      simp [Phase.isSlow, Phase.row, Stage.isDropped, Stage.isFailed, Stage.isOrphaned,
        Stage.isPending, h]
  | stored _ _ =>
      obtain ⟨hslow, -⟩ := h
      simp [Phase.isSlow, Phase.row, Stage.isDropped, Stage.isFailed, Stage.isCalled,
        Stage.isOrphaned, Stage.isPending, hslow]
  | dropped | spawned _ | kindKnown _ _ | orphaned _ | failed _ =>
      dsimp only at h
      simp [Phase.isSlow, Phase.row, Stage.isDropped, Stage.isFailed, Stage.isCalled,
        Stage.isOrphaned, Stage.isPending, h]

theorem count_slow {phases : List Phase} (h : ∀ phase ∈ phases, Known texts config phase) :
    phases.countP (Phase.isSlow config) =
      (phases.filterMap Phase.row).length +
        phases.countP (fun phase => phase.stage.isDropped) +
        phases.countP (fun phase => phase.stage.isFailed) +
        phases.countP (fun phase => phase.stage.isOrphaned) +
        phases.countP (fun phase => phase.stage.isPending) := by
  rw [List.length_filterMap_eq_countP]
  induction phases with
  | nil => rfl
  | cons phase phases ih =>
      obtain ⟨hphase, hrest⟩ := List.forall_mem_cons.mp h
      have htail := ih hrest
      have hone := one_stage hphase
      simp only [List.countP_cons]
      omega

/-- What the recorder has made of the captures it met. -/
structure Accounts (texts : Texts) (config : Config) (w : World Shared Phase) : Prop where
  rows : (w.shared.rows ++ w.shared.rotated).Perm (w.calls.filterMap Phase.row)
  faithful : ∀ c gated row, ⟨c, .stored gated row⟩ ∈ w.calls → isSlow config c = true ∧
    ∃ dbKind id capturedAt, row = rowOf texts config c dbKind id capturedAt
  dropped : w.shared.dropped =
    UInt64.ofNat (w.calls.countP fun phase => phase.stage.isDropped)
  slow : w.calls.countP (Phase.isSlow config) =
    w.shared.rows.length + w.shared.rotated.length +
      w.calls.countP (fun phase => phase.stage.isDropped) + w.shared.warnings +
      w.calls.countP (fun phase => phase.stage.isOrphaned) +
      w.calls.countP (fun phase => phase.stage.isPending)

/-- Every row, kept or deleted since, is the row of one slow capture of its own, and every slow
capture is a row, or counted as dropped, or warned of, or of a connection that was gone, or under
way. -/
theorem captures_accounted {connections : String → Option String} {now : Int}
    {as : List (Action Capture Event)} {w : World Shared Phase}
    (hrun : (program texts config).Runs (fun _ => True) (.initial (.initial connections now)) as w) :
    Accounts texts config w := by
  have hstart : Program.Holds (fun _ => True) (fun _ _ phase => Known texts config phase)
      (World.initial (Shared.initial connections now)) := ⟨trivial, by rintro i phase ⟨⟩⟩
  have hknown : ∀ phase ∈ w.calls, Known texts config phase := by
    intro phase hphase
    obtain ⟨i, hi⟩ := List.getElem?_of_mem hphase
    exact (keeps_known.run hrun hstart).calls i phase hi
  have hrows := books_rows.run keeps_known hrun hstart (.refl _)
  have hdropped : w.shared.dropped =
      UInt64.ofNat (w.calls.countP fun phase => phase.stage.isDropped) :=
    (counts_dropped.run hrun rfl).trans (iterate_dropped _)
  have hwarnings : w.calls.countP (fun phase => phase.stage.isFailed) = w.shared.warnings :=
    ((counts_warnings.run hrun rfl).trans (iterate_warnings _)).symm
  refine ⟨hrows, ?_, hdropped, ?_⟩
  · intro c gated row hstored
    exact hknown _ hstored
  · rw [count_slow hknown, ← hrows.length_eq, List.length_append, hwarnings]

/-! ## The cap of a digest -/

/-- When the gate let the capture through. -/
def Stage.gated : Stage → Option Int
  | .spawned gated => some gated
  | .kindKnown gated _ => some gated
  | .stored gated _ => some gated
  | .orphaned gated => some gated
  | .failed gated => some gated
  | _ => none

def admission (texts : Texts) (phase : Phase) : Option (String × Int) :=
  phase.stage.gated.map fun t => (keyOf texts phase.capture, t)

theorem asksLimiter : AsksLimiter (program texts config) Shared.limiter Shared.now
    config.capPerHour.toNat capWindowSecs (admission texts) where
  call _ := rfl
  move := by
    rintro s ⟨c, old⟩ e s' phase' hmove
    obtain ⟨new, rfl, hmoves⟩ := move_moves hmove
    cases hmoves with
    | letThrough limiter _ hchecked =>
        exact ⟨rfl, Or.inr (Or.inr ⟨keyOf texts c, rfl, rfl, hchecked⟩)⟩
    | drop limiter _ hchecked => exact ⟨rfl, Or.inr (Or.inl ⟨keyOf texts c, rfl, hchecked⟩)⟩
    | passOver _ => exact ⟨rfl, Or.inl ⟨rfl, rfl⟩⟩
    | know _ _ _ => exact ⟨rfl, Or.inl ⟨rfl, rfl⟩⟩
    | orphan _ _ => exact ⟨rfl, Or.inl ⟨rfl, rfl⟩⟩
    | failLookup _ => exact ⟨rfl, Or.inl ⟨rfl, rfl⟩⟩
    | failInsert _ _ => exact ⟨rfl, Or.inl ⟨rfl, rfl⟩⟩
    | store _ _ _ _ => exact ⟨rfl, Or.inl ⟨rfl, rfl⟩⟩
  env s e s' h := by
    cases e with
    | meets _ _ _ => cases h
    | tick nanos =>
        cases h
        exact ⟨rfl, by dsimp only; omega⟩
    | connect _ _ | disconnect _ | rotate _ =>
        cases h
        exact ⟨rfl, le_rfl⟩

/-- Of the captures of one digest that the gate met in any hour, no more than the cap have become
rows or still can. -/
theorem digest_capped {connections : String → Option String} {now : Int}
    {as : List (Action Capture Event)} {w : World Shared Phase}
    (hrun : (program texts config).Runs (fun _ => True) (.initial (.initial connections now)) as w)
    (key : String) (start : Int) :
    (w.calls.filter fun phase => decide (keyOf texts phase.capture = key) &&
      phase.stage.gated.any fun t => decide (start ≤ t ∧ t < start + secs capWindowSecs)).length ≤
        config.capPerHour.toNat := by
  have hcapped := asksLimiter.run hrun rfl key start
  refine le_trans (le_of_eq ?_) hcapped
  congr 1
  apply List.filter_congr
  intro phase _
  unfold admittedWithin admission
  cases phase.stage.gated with
  | none => rw [Option.any_none, Bool.and_false, Option.map_none]
  | some t => rw [Option.any_some, Option.map_some]

end Steps

/-! ## A fixture -/

def fixtureTexts : Texts := ⟨fun text => text.map Char.toUpper, fun _ => []⟩

/-- Slow from half a second on, one row an hour for a digest. -/
def fixtureConfig : Config := ⟨true, 500, true, 1⟩

def fixtureCapture (elapsedMs : UInt64) (dbKind : Option String) : Capture where
  elapsedMs := elapsedMs
  connId := "c1"
  dbKind := dbKind
  database := none
  userId := some "u1"
  entry := .syncQuery
  outcome := .ok
  payload := .redis ["GET", "k"]
  rowCount := some 1
  affectedRows := none

def fixtureActions : List (Action Capture Event) :=
  [.call (recordStream 900 "c1" none (.redis ["GET", "k"]) (.error "CANCELLED")),
    .call (fixtureCapture 20 none), .call (fixtureCapture 700 (some "redis")),
    .env (.connect "c1" "redis"),
    .move 0 (.meets true "" ""), .move 1 (.meets true "" ""), .move 2 (.meets true "" ""),
    .move 0 (.meets true "" ""), .move 0 (.meets true "r1" "2026-01-01T00:00:00+00:00")]

theorem run_fixtureActions : ∃ w,
    (program fixtureTexts fixtureConfig).Runs (fun _ => True)
      (.initial (.initial (fun _ => none) 0)) fixtureActions w ∧
    (w.shared.rows.map fun row => (row.id, row.status)) = [("r1", "cancelled")] ∧
    w.shared.dropped = 1 := by
  refine ⟨_, .cons trivial rfl (.cons trivial rfl (.cons trivial rfl (.cons trivial rfl
    (.cons trivial rfl (.cons trivial rfl (.cons trivial rfl (.cons trivial rfl
      (.cons trivial rfl (.nil _))))))))), ?_⟩
  exact ⟨rfl, rfl⟩

theorem captures_accounted_fixture : ∃ w,
    (program fixtureTexts fixtureConfig).Runs (fun _ => True)
      (.initial (.initial (fun _ => none) 0)) fixtureActions w ∧
    (w.shared.rows.map fun row => (row.id, row.status)) = [("r1", "cancelled")] ∧
    w.shared.dropped = 1 ∧ Accounts fixtureTexts fixtureConfig w := by
  obtain ⟨w, hrun, hrows, hdropped⟩ := run_fixtureActions
  exact ⟨w, hrun, hrows, hdropped, captures_accounted hrun⟩

theorem digest_capped_fixture : ∃ w,
    (program fixtureTexts fixtureConfig).Runs (fun _ => True)
      (.initial (.initial (fun _ => none) 0)) fixtureActions w ∧
    (w.calls.filter fun phase => decide (keyOf fixtureTexts phase.capture = "redis:GET:2") &&
      phase.stage.gated.any fun t => decide (0 ≤ t ∧ t < 0 + secs capWindowSecs)).length ≤
        fixtureConfig.capPerHour.toNat := by
  obtain ⟨w, hrun, -⟩ := run_fixtureActions
  exact ⟨w, hrun, digest_capped hrun "redis:GET:2" 0⟩

end Dbmaster.QueryStats.Recorder
