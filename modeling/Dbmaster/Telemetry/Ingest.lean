import Dbmaster.Lib.Json
import Dbmaster.RateLimit.Gated
import Dbmaster.Telemetry.ClientIp
import Mathlib.Data.List.Nodup
/-!
# The ingestion of telemetry events

`POST /api/telemetry/event`: the limiter of an installation, and the insert that the unique index
of the idempotency keys refuses a second time.  Clients send an event again until they are told
that it was taken, so any number of calls for one event is in progress at once.
-/

namespace Dbmaster.Telemetry.Ingest

open Dbmaster.Lib Dbmaster.Lib.Transition Dbmaster.Lib.Calls
open Dbmaster.RateLimit.Limiter Dbmaster.RateLimit.Gated
open Dbmaster.Telemetry.ClientIp (redactClientIp)

/-! ## Events -/

def validEventTypes : List String :=
  ["app_first_launch", "db_connected", "session_reopen", "feature_used", "feature_failure",
    "server_started", "task_executed", "touchpoint_exposed", "touchpoint_clicked",
    "server_download_clicked", "server_connected", "trial_started", "trial_activated"]

structure TelemetryPayload where
  eventType : String
  eventPayload : Json
  dbType : Option String

/-- A row of `telemetry_events`. -/
structure TelemetryEvent where
  installUuid : String
  eventType : String
  eventPayload : List Char
  dbType : Option String
  appVersion : Option String
  idempotencyKey : Option String
  clientIpRedacted : List Char

/-- What the unique index is on; events without an idempotency key are not in it. -/
def TelemetryEvent.dedupKey (row : TelemetryEvent) : Option (String × String × String) :=
  row.idempotencyKey.map fun key => (row.installUuid, row.eventType, key)

/-- `none` where the unique index refuses the row. -/
def insertEvent (rows : List TelemetryEvent) (row : TelemetryEvent) :
    Option (List TelemetryEvent) :=
  match row.dedupKey with
  | some key =>
    if key ∈ rows.filterMap TelemetryEvent.dedupKey then none else some (rows ++ [row])
  | none => some (rows ++ [row])

/-- A body, with the value of `X-Forwarded-For`. -/
structure Request (Value : Type) where
  body : TelemetryPayload
  forwarded : Option Value

section Request

variable {Value : Type}

def Request.text (req : Request Value) (member : String) : Option String :=
  (req.body.eventPayload.get member).bind Json.asStr

def Request.installUuid (req : Request Value) : String := (req.text "install_uuid").getD "unknown"

def Request.row (toStr : Value → Option (List Char)) (jsonText : Json → List Char)
    (req : Request Value) : TelemetryEvent where
  installUuid := req.installUuid
  eventType := req.body.eventType
  eventPayload := jsonText req.body.eventPayload
  dbType := req.body.dbType
  appVersion := req.text "app_version"
  idempotencyKey := req.text "idempotency_key"
  clientIpRedacted := redactClientIp toStr req.forwarded

end Request

/-! ## Calls -/

def rateLimitMax : Nat := 60

def rateLimitWindowSecs : Nat := 60

def rateLimitCheck (counters : SlidingWindowLimiter) (installUuid : String) (now : Int) :
    SlidingWindowLimiter × Bool :=
  checkAndRecord counters installUuid rateLimitMax rateLimitWindowSecs now

inductive Answer
  | invalidType (message : String)
  | rateLimited
  | ingested
  | deduplicated
  | internal (message : String)
  deriving DecidableEq

/-- How far a call is; one that the limiter let through has the time of it. -/
inductive Phase (Value : Type)
  | received (req : Request Value)
  | inserting (req : Request Value) (admitted : Int)
  | ended (req : Request Value) (admitted : Option Int) (answer : Answer)

structure Shared where
  rows : List TelemetryEvent
  rateLimits : SlidingWindowLimiter
  now : Int

def Shared.initial (now : Int) : Shared := ⟨[], .new, now⟩

inductive Event
  /-- whether the database works -/
  | meets (ok : Bool)
  | tick (nanos : Nat)

section Program

variable {Value : Type} (toStr : Value → Option (List Char)) (jsonText : Json → List Char)

def move (s : Shared) (phase : Phase Value) : Event → Option (Shared × Phase Value)
  | .meets ok =>
    match phase with
    | .received req =>
      if req.body.eventType ∈ validEventTypes then
        let checked := rateLimitCheck s.rateLimits req.installUuid s.now
        some ({ s with rateLimits := checked.1 },
          if checked.2 then .inserting req s.now else .ended req none .rateLimited)
      else some (s, .ended req none (.invalidType ("Unknown: " ++ req.body.eventType)))
    | .inserting req admitted =>
      if ok then
        match insertEvent s.rows (req.row toStr jsonText) with
        | some rows => some ({ s with rows := rows }, .ended req (some admitted) .ingested)
        | none => some (s, .ended req (some admitted) .deduplicated)
      else some (s, .ended req (some admitted) (.internal "telemetry ingest failed"))
    | .ended _ _ _ => none
  | .tick _ => none

def env (s : Shared) : Event → Option Shared
  | .meets _ => none
  | .tick nanos => some { s with now := s.now + nanos }

def program : Program Shared (Phase Value) (Request Value) Event where
  call := .received
  move := move toStr jsonText
  env := env

end Program

/-! ## What a step does -/

section Steps

variable {Value : Type} {toStr : Value → Option (List Char)} {jsonText : Json → List Char}
variable {s s' : Shared} {e : Event} {phase phase' : Phase Value} {rows rows' : List TelemetryEvent}
variable {row : TelemetryEvent}

inductive Moves (toStr : Value → Option (List Char)) (jsonText : Json → List Char) (s : Shared) :
    Phase Value → Phase Value → Shared → Prop
  | refuseType (req : Request Value) (message : String) :
      Moves toStr jsonText s (.received req) (.ended req none (.invalidType message)) s
  | limit (req : Request Value) (limiter : SlidingWindowLimiter)
      (hchecked : rateLimitCheck s.rateLimits req.installUuid s.now = (limiter, false)) :
      Moves toStr jsonText s (.received req) (.ended req none .rateLimited)
        { s with rateLimits := limiter }
  | passes (req : Request Value) (limiter : SlidingWindowLimiter)
      (htype : req.body.eventType ∈ validEventTypes)
      (hchecked : rateLimitCheck s.rateLimits req.installUuid s.now = (limiter, true)) :
      Moves toStr jsonText s (.received req) (.inserting req s.now) { s with rateLimits := limiter }
  | ingest (req : Request Value) (admitted : Int) (rows : List TelemetryEvent)
      (hrows : insertEvent s.rows (req.row toStr jsonText) = some rows) :
      Moves toStr jsonText s (.inserting req admitted) (.ended req (some admitted) .ingested)
        { s with rows := rows }
  | deduplicate (req : Request Value) (admitted : Int)
      (hnone : insertEvent s.rows (req.row toStr jsonText) = none) :
      Moves toStr jsonText s (.inserting req admitted) (.ended req (some admitted) .deduplicated) s
  | fail (req : Request Value) (admitted : Int) (message : String) :
      Moves toStr jsonText s (.inserting req admitted)
        (.ended req (some admitted) (.internal message)) s

theorem move_moves (h : move toStr jsonText s phase e = some (s', phase')) :
    Moves toStr jsonText s phase phase' s' := by
  cases e with
  | tick nanos => cases h
  | meets ok =>
      unfold move at h
      dsimp only at h
      cases phase with
      | received req =>
          dsimp only at h
          split_ifs at h with htype hallowed
          · obtain ⟨rfl, rfl⟩ := Prod.mk.inj (Option.some.inj h)
            exact .passes req _ htype (Prod.ext rfl hallowed)
          · obtain ⟨rfl, rfl⟩ := Prod.mk.inj (Option.some.inj h)
            exact .limit req _ (Prod.ext rfl (Bool.eq_false_of_not_eq_true hallowed))
          · obtain ⟨rfl, rfl⟩ := Prod.mk.inj (Option.some.inj h)
            exact .refuseType req _
      | inserting req admitted =>
          dsimp only at h
          split_ifs at h
          · cases hrows : insertEvent s.rows (req.row toStr jsonText) with
            | some rows =>
                rw [hrows] at h
                obtain ⟨rfl, rfl⟩ := Prod.mk.inj (Option.some.inj h)
                exact .ingest req admitted rows hrows
            | none =>
                rw [hrows] at h
                obtain ⟨rfl, rfl⟩ := Prod.mk.inj (Option.some.inj h)
                exact .deduplicate req admitted hrows
          · obtain ⟨rfl, rfl⟩ := Prod.mk.inj (Option.some.inj h)
            exact .fail req admitted _
      | ended req admitted answer => cases h

/-! ## The unique index -/

def keysOf (rows : List TelemetryEvent) : List (String × String × String) :=
  rows.filterMap TelemetryEvent.dedupKey

theorem insertEvent_some (h : insertEvent rows row = some rows') :
    rows' = rows ++ [row] ∧ ∀ key, row.dedupKey = some key → key ∉ keysOf rows := by
  unfold insertEvent at h
  split at h
  case h_1 key hkey =>
    split_ifs at h with hmem
    refine ⟨(Option.some.inj h).symm, ?_⟩
    intro k hk
    rw [hkey] at hk
    obtain rfl := Option.some.inj hk
    exact hmem
  case h_2 hnone =>
    refine ⟨(Option.some.inj h).symm, ?_⟩
    intro k hk
    rw [hnone] at hk
    cases hk

theorem insertEvent_none (h : insertEvent rows row = none) :
    ∃ key ∈ keysOf rows, row.dedupKey = some key := by
  unfold insertEvent at h
  split at h
  case h_1 key hkey =>
    split_ifs at h with hmem
    exact ⟨key, hmem, hkey⟩
  case h_2 => cases h

theorem nodup_keysOf_snoc (hnodup : (keysOf rows).Nodup)
    (hfresh : ∀ key, row.dedupKey = some key → key ∉ keysOf rows) :
    (keysOf (rows ++ [row])).Nodup := by
  unfold keysOf at hnodup hfresh ⊢
  rw [List.filterMap_append]
  cases hkey : row.dedupKey with
  | none =>
      rw [List.filterMap_cons_none hkey, List.filterMap_nil, List.append_nil]
      exact hnodup
  | some key =>
      rw [List.filterMap_cons_some hkey, List.filterMap_nil]
      refine List.nodup_append.mpr ⟨hnodup, List.nodup_singleton key, ?_⟩
      intro k hk other hother
      rw [List.mem_singleton.mp hother]
      exact ne_of_mem_of_not_mem hk (hfresh key hkey)

/-! ## Every event once -/

/-- No idempotency key is there twice, and the types are known ones. -/
structure WellFormed (s : Shared) : Prop where
  keys : (keysOf s.rows).Nodup
  types : ∀ row ∈ s.rows, row.eventType ∈ validEventTypes

/-- A call that was told of a duplicate has a row with its key in the table. -/
def Told (toStr : Value → Option (List Char)) (jsonText : Json → List Char) (s : Shared) :
    Phase Value → Prop
  | .received _ => True
  | .inserting req _ => req.body.eventType ∈ validEventTypes
  | .ended req _ .ingested => req.row toStr jsonText ∈ s.rows
  | .ended req _ .deduplicated => ∃ key ∈ keysOf s.rows, (req.row toStr jsonText).dedupKey = some key
  | .ended _ _ _ => True

theorem Told.mono (h : Told toStr jsonText s phase) (hsub : s.rows ⊆ s'.rows) :
    Told toStr jsonText s' phase := by
  cases phase with
  | received req => trivial
  | inserting req admitted => exact h
  | ended req admitted answer =>
      cases answer with
      | ingested => exact hsub h
      | deduplicated =>
          obtain ⟨key, hmem, hkey⟩ := h
          obtain ⟨row, hrow, hrowkey⟩ := List.mem_filterMap.mp hmem
          exact ⟨key, List.mem_filterMap.mpr ⟨row, hsub hrow, hrowkey⟩, hkey⟩
      | invalidType _ | rateLimited | internal _ => trivial

theorem Moves.subset (h : Moves toStr jsonText s phase phase' s') : s.rows ⊆ s'.rows := by
  cases h with
  | ingest req admitted rows hrows =>
      dsimp only
      rw [(insertEvent_some hrows).1]
      exact List.subset_append_left s.rows _
  | refuseType _ _ => exact List.Subset.refl _
  | limit _ _ _ => exact List.Subset.refl _
  | passes _ _ _ _ => exact List.Subset.refl _
  | deduplicate _ _ _ => exact List.Subset.refl _
  | fail _ _ _ => exact List.Subset.refl _

theorem Moves.keeps (h : Moves toStr jsonText s phase phase' s') (hs : WellFormed s)
    (hphase : Told toStr jsonText s phase) : WellFormed s' ∧ Told toStr jsonText s' phase' := by
  cases h with
  | refuseType req message => exact ⟨hs, trivial⟩
  | limit req limiter hchecked => exact ⟨⟨hs.keys, hs.types⟩, trivial⟩
  | passes req limiter htype hchecked => exact ⟨⟨hs.keys, hs.types⟩, htype⟩
  | ingest req admitted rows hrows =>
      obtain ⟨rfl, hfresh⟩ := insertEvent_some hrows
      refine ⟨⟨nodup_keysOf_snoc hs.keys hfresh, ?_⟩, List.mem_concat_self⟩
      intro row hrow
      rcases List.mem_append.mp hrow with hold | hnew
      · exact hs.types row hold
      · rw [List.mem_singleton.mp hnew]
        exact hphase
  | deduplicate req admitted hnone => exact ⟨hs, insertEvent_none hnone⟩
  | fail req admitted message => exact ⟨hs, trivial⟩

theorem keeps_told : (program toStr jsonText).Keeps (fun _ => True) WellFormed
    fun _ => Told toStr jsonText where
  call _ _ _ _ _ := trivial
  move _ _ _ _ _ _ hs hphase _ hmove := (move_moves hmove).keeps hs hphase
  stable _ _ _ _ _ _ _ _ _ _ _ hmove _ hother := hother.mono (move_moves hmove).subset
  env s e s' hs _ henv := by
    cases e with
    | meets ok => cases henv
    | tick nanos =>
        cases henv
        exact ⟨⟨hs.keys, hs.types⟩, fun k other hother => hother.mono (List.Subset.refl _)⟩

def Phase.ingestedRow (toStr : Value → Option (List Char)) (jsonText : Json → List Char) :
    Phase Value → Option TelemetryEvent
  | .ended req _ .ingested => some (req.row toStr jsonText)
  | _ => none

theorem books_rows : (program toStr jsonText).KeepsBooks (fun _ => True) WellFormed
    (fun _ => Told toStr jsonText) Shared.rows (Phase.ingestedRow toStr jsonText) where
  call _ := rfl
  move s i phase e s' phase' _ _ _ hmove := by
    cases move_moves hmove with
    | ingest req admitted rows hrows =>
        refine Or.inr ⟨req.row toStr jsonText, rfl, rfl, ?_⟩
        dsimp only
        rw [(insertEvent_some hrows).1]
        exact List.perm_append_singleton _ _
    | refuseType _ _ => exact Or.inl ⟨rfl, .refl _⟩
    | limit _ _ _ => exact Or.inl ⟨rfl, .refl _⟩
    | passes _ _ _ _ => exact Or.inl ⟨rfl, .refl _⟩
    | deduplicate _ _ _ => exact Or.inl ⟨rfl, .refl _⟩
    | fail _ _ _ => exact Or.inl ⟨rfl, .refl _⟩
  env s e s' henv := by
    cases e with
    | meets ok => cases henv
    | tick nanos =>
        cases henv
        exact .refl _

/-- The event with the key that a call was told has been taken, now or before. -/
def Phase.taken (toStr : Value → Option (List Char)) (jsonText : Json → List Char) :
    Phase Value → Option (String × String × String)
  | .ended req _ .ingested => (req.row toStr jsonText).dedupKey
  | .ended req _ .deduplicated => (req.row toStr jsonText).dedupKey
  | _ => none

/-- The rows are those of the calls that were told of one, with a known type each, and an event
with a key that anyone was told has been taken is there once. -/
structure TakenOnce (toStr : Value → Option (List Char)) (jsonText : Json → List Char)
    (w : World Shared (Phase Value)) : Prop where
  rows : w.shared.rows.Perm (w.calls.filterMap (Phase.ingestedRow toStr jsonText))
  types : ∀ row ∈ w.shared.rows, row.eventType ∈ validEventTypes
  once : ∀ key, (∃ phase ∈ w.calls, phase.taken toStr jsonText = some key) →
    w.shared.rows.countP (fun row => decide (row.dedupKey = some key)) = 1

theorem countP_keysOf (key : String × String × String) (rows : List TelemetryEvent) :
    rows.countP (fun row => decide (row.dedupKey = some key)) = (keysOf rows).count key := by
  unfold keysOf
  rw [List.count_filterMap]
  apply List.countP_congr
  intro row _
  rw [decide_eq_true_iff, beq_iff_eq]

theorem taken_mem (hphase : Told toStr jsonText s phase) {key : String × String × String}
    (htaken : phase.taken toStr jsonText = some key) : key ∈ keysOf s.rows := by
  cases phase with
  | received req => cases htaken
  | inserting req admitted => cases htaken
  | ended req admitted answer =>
      cases answer with
      | ingested => exact List.mem_filterMap.mpr ⟨_, hphase, htaken⟩
      | deduplicated =>
          obtain ⟨k, hmem, hk⟩ := hphase
          have hkey : k = key := Option.some.inj (hk.symm.trans htaken)
          exact hkey ▸ hmem
      | invalidType _ | rateLimited | internal _ => cases htaken

theorem taken_once {now : Int} {as : List (Action (Request Value) Event)}
    {w : World Shared (Phase Value)}
    (hrun : (program toStr jsonText).Runs (fun _ => True) (.initial (.initial now)) as w) :
    TakenOnce toStr jsonText w := by
  have hstart : Program.Holds WellFormed (fun _ => Told toStr jsonText)
      (World.initial (Shared.initial now)) :=
    ⟨⟨List.nodup_nil, by rintro row ⟨⟩⟩, by rintro i phase ⟨⟩⟩
  have hholds := keeps_told.run hrun hstart
  refine ⟨books_rows.run keeps_told hrun hstart (.refl _), hholds.shared.types, ?_⟩
  rintro key ⟨phase, hphase, htaken⟩
  obtain ⟨i, hi⟩ := List.getElem?_of_mem hphase
  rw [countP_keysOf]
  exact List.nodup_iff_count_eq_one.mp hholds.shared.keys key
    (taken_mem (hholds.calls i phase hi) htaken)

/-! ## The limit of an installation -/

def Phase.admission : Phase Value → Option (String × Int)
  | .received _ => none
  | .inserting req admitted => some (req.installUuid, admitted)
  | .ended req admitted _ => admitted.map fun t => (req.installUuid, t)

theorem asksLimiter : AsksLimiter (program toStr jsonText) Shared.rateLimits Shared.now
    rateLimitMax rateLimitWindowSecs Phase.admission where
  call _ := rfl
  move s phase e s' phase' hmove := by
    cases move_moves hmove with
    | passes req limiter htype hchecked =>
        exact ⟨rfl, Or.inr (Or.inr ⟨req.installUuid, rfl, rfl, hchecked⟩)⟩
    | limit req limiter hchecked => exact ⟨rfl, Or.inr (Or.inl ⟨req.installUuid, rfl, hchecked⟩)⟩
    | refuseType _ _ => exact ⟨rfl, Or.inl ⟨rfl, rfl⟩⟩
    | ingest _ _ _ _ => exact ⟨rfl, Or.inl ⟨rfl, rfl⟩⟩
    | deduplicate _ _ _ => exact ⟨rfl, Or.inl ⟨rfl, rfl⟩⟩
    | fail _ _ _ => exact ⟨rfl, Or.inl ⟨rfl, rfl⟩⟩
  env s e s' henv := by
    cases e with
    | meets ok => cases henv
    | tick nanos =>
        cases henv
        exact ⟨rfl, by dsimp only; omega⟩

/-- Of the calls of an installation in any minute no more than the limit reach the database. -/
theorem install_limited {now : Int} {as : List (Action (Request Value) Event)}
    {w : World Shared (Phase Value)}
    (hrun : (program toStr jsonText).Runs (fun _ => True) (.initial (.initial now)) as w)
    (installUuid : String) (start : Int) :
    (w.calls.filter
      (admittedWithin Phase.admission rateLimitWindowSecs installUuid start)).length ≤ 60 :=
  asksLimiter.run hrun rfl installUuid start

end Steps

/-! ## An event that is sent twice -/

def fixtureJsonText (_ : Json) : List Char := []

def fixtureRequest (key : String) : Request (List Char) where
  body :=
    { eventType := "db_connected"
      eventPayload := .obj [("install_uuid", .str "u1"), ("idempotency_key", .str key)]
      dbType := some "mysql" }
  forwarded := some "203.0.113.45, 10.0.0.1".toList

/-- The second call is sent while the first is under way. -/
def fixtureActions : List (Action (Request (List Char)) Event) :=
  [.call (fixtureRequest "k1"), .call (fixtureRequest "k1"), .call (fixtureRequest "k2"),
    .move 0 (.meets true), .move 1 (.meets true), .env (.tick 1000000000), .move 2 (.meets true),
    .move 1 (.meets true), .move 0 (.meets true), .move 2 (.meets true)]

theorem run_fixtureActions : ∃ w,
    (program some fixtureJsonText).Runs (fun _ => True) (.initial (.initial 0)) fixtureActions w ∧
      w.calls[0]? = some (.ended (fixtureRequest "k1") (some 0) .deduplicated) := by
  refine ⟨_, .cons trivial rfl (.cons trivial rfl (.cons trivial rfl (.cons trivial rfl
    (.cons trivial rfl (.cons trivial rfl (.cons trivial rfl (.cons trivial rfl
      (.cons trivial rfl (.cons trivial rfl (.nil _)))))))))), ?_⟩
  rfl

theorem taken_once_fixture : ∃ w,
    (program some fixtureJsonText).Runs (fun _ => True) (.initial (.initial 0)) fixtureActions w ∧
      w.shared.rows.countP
        (fun row => decide (row.dedupKey = some ("u1", "db_connected", "k1"))) = 1 := by
  obtain ⟨w, hrun, htold⟩ := run_fixtureActions
  exact ⟨w, hrun, (taken_once hrun).once _ ⟨_, List.mem_of_getElem? htold, rfl⟩⟩

theorem install_limited_fixture : ∃ w,
    (program some fixtureJsonText).Runs (fun _ => True) (.initial (.initial 0)) fixtureActions w ∧
      (w.calls.filter
        (admittedWithin Phase.admission rateLimitWindowSecs "u1" 0)).length ≤ 60 := by
  obtain ⟨w, hrun, -⟩ := run_fixtureActions
  exact ⟨w, hrun, install_limited hrun "u1" 0⟩

end Dbmaster.Telemetry.Ingest
