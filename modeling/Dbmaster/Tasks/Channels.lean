import Dbmaster.Tasks.Handler
/-!
# Webhook channels of a task

The first URL of a task's `notify_channels`, as each runner reads it, against the list that the
handlers have written.
-/

namespace Dbmaster.Tasks.Channels

open Dbmaster.Lib Dbmaster.Tasks.Handler

/-! ## The readers -/

/-- The first item of the array, read by `entry`. -/
def firstItem (serde : SerdeJson) (entry : Json → Option String) (text : String) :
    Option String := do
  let document ← serde.fromStr text
  let items ← document.asArray
  let first ← items.head?
  entry first

namespace Drift

def firstWebhookUrl (serde : SerdeJson) : String → Option String := firstItem serde Json.asStr

end Drift

namespace DataSync

def firstWebhookUrl (serde : SerdeJson) : String → Option String :=
  firstItem serde fun first => (first.get "url").bind Json.asStr

end DataSync

namespace HealthCheck

def firstWebhookUrl (serde : SerdeJson) : String → Option String :=
  firstItem serde fun first => (first.get "url").bind Json.asStr

end HealthCheck

/-- The reader of the runner that executes tasks of this type; other types are not run. -/
def readerOf : String → Option (SerdeJson → String → Option String)
  | "schema_drift" => some Drift.firstWebhookUrl
  | "data_sync" => some DataSync.firstWebhookUrl
  | "health_check" => some HealthCheck.firstWebhookUrl
  | _ => none

/-! ## What should hold -/

/-- The runner of the task finds the first of the URLs. -/
def Found (serde : SerdeJson) (task : ScheduledTask) (urls : List String) : Prop :=
  ∀ reader, readerOf task.taskType = some reader →
    reader serde task.notifyChannels = urls.head?

/-- The text of the list is read as the list. -/
def ReadsBack (serde : SerdeJson) (urls : List String) : Prop :=
  ∃ text, serde.toString (channelsJson urls) = some text ∧
    serde.fromStr text = some (channelsJson urls)

/-! ## What is stored is read -/

variable {serde : SerdeJson} {urls : List String} {task : ScheduledTask}

theorem fromStr_notifyChannels (hserde : ReadsBack serde urls)
    (h : WrittenWith serde urls task) :
    serde.fromStr task.notifyChannels = some (channelsJson urls) := by
  obtain ⟨text, hprint, hparse⟩ := hserde
  cases h with
  | created tasks env body hgiven =>
      simp only [createdRow, hgiven, Option.getD_some, hprint]
      exact hparse
  | updated tasks env id body old hold hid hgiven =>
      simp only [UpdateTaskRequest.apply, hgiven, hprint, Option.getD_some]
      exact hparse

theorem firstItem_notifyChannels (hserde : ReadsBack serde urls)
    (h : WrittenWith serde urls task) (entry : Json → Option String) :
    firstItem serde entry task.notifyChannels = urls.head?.bind fun url => entry (.str url) := by
  rw [firstItem, fromStr_notifyChannels hserde h]
  show (urls.map Json.str).head?.bind entry = _
  rw [List.head?_map]
  cases urls.head? with
  | none => rfl
  | some url => rfl

/-- A non-empty list of URLs is found if and only if the task is none of those whose runner
looks for objects. -/
theorem found_iff (hserde : ReadsBack serde urls) (hne : urls ≠ [])
    (h : WrittenWith serde urls task) :
    Found serde task urls ↔ task.taskType ≠ "data_sync" ∧ task.taskType ≠ "health_check" := by
  obtain ⟨url, rest, rfl⟩ := List.exists_cons_of_ne_nil hne
  have hobject : firstItem serde (fun first => (first.get "url").bind Json.asStr)
      task.notifyChannels = none := firstItem_notifyChannels hserde h _
  constructor
  · intro hfound
    constructor
    · intro htype
      have hread := hfound DataSync.firstWebhookUrl (by rw [htype]; rfl)
      rw [DataSync.firstWebhookUrl, hobject] at hread
      cases hread
    · intro htype
      have hread := hfound HealthCheck.firstWebhookUrl (by rw [htype]; rfl)
      rw [HealthCheck.firstWebhookUrl, hobject] at hread
      cases hread
  · rintro ⟨hsync, hhealth⟩ reader hreader
    unfold readerOf at hreader
    split at hreader
    case h_1 =>
      cases hreader
      exact firstItem_notifyChannels hserde h _
    case h_2 htype => exact absurd htype hsync
    case h_3 htype => exact absurd htype hhealth
    case h_4 => cases hreader

/-! ## A list of one URL -/

/-- The texts of lists of one string that has nothing to escape. -/
def oneString : SerdeJson where
  toString
    | .arr [.str s] => some ("[\"" ++ s ++ "\"]")
    | _ => none
  fromStr text :=
    let inner := (text.toList.drop 2).dropLast.dropLast
    some (.arr [.str (String.ofList inner)])

def sampleUrls : List String := ["https://hooks.example.com/a"]

theorem oneString_readsBack : ReadsBack oneString sampleUrls := by
  have hinner : String.ofList
      (("[\"https://hooks.example.com/a\"]".toList.drop 2).dropLast.dropLast) =
        "https://hooks.example.com/a" := by decide +kernel
  refine ⟨"[\"https://hooks.example.com/a\"]", by decide +kernel, ?_⟩
  show some (Json.arr [.str (String.ofList _)]) = _
  rw [hinner]
  rfl

def sampleEnv : Env where
  gated := false
  embeddedMode := false
  uuid := "t1"
  now := "2026-01-01T00:00:00+00:00"
  connectionExists := fun _ => .ok true
  written := .ok ()
  refetched := .ok ()

def sampleBody (taskType : String) : CreateTaskRequest where
  name := "nightly"
  taskType := taskType
  cronExpr := "0 3 * * *"
  config := .obj []
  sourceDbId := "c1"
  targetDbId := none
  notifyChannels := some sampleUrls

theorem sample_written (taskType : String) :
    WrittenWith oneString sampleUrls (createdRow oneString sampleEnv (sampleBody taskType)) :=
  .created [] sampleEnv (sampleBody taskType) rfl rfl

theorem found_drift :
    Found oneString (createdRow oneString sampleEnv (sampleBody "schema_drift")) sampleUrls :=
  (found_iff oneString_readsBack (by decide) (sample_written "schema_drift")).mpr
    ⟨by decide, by decide⟩

/-- The channel of a task that synchronises data is not found. -/
theorem data_sync_channel_missed :
    ¬ ∀ serde urls task, ReadsBack serde urls → urls ≠ [] → WrittenWith serde urls task →
      Found serde task urls := by
  intro hall
  have hfound := hall oneString sampleUrls _ oneString_readsBack (by decide)
    (sample_written "data_sync") DataSync.firstWebhookUrl rfl
  revert hfound
  decide +kernel

end Dbmaster.Tasks.Channels
