import Dbmaster.License.Trial
import Dbmaster.Lib.Table
import Dbmaster.Lib.Transition
/-!
# Instances that are created at the same time

`get_or_create_instance` and `ensure_trial_status` statement by statement, with any number of
calls in progress.  A SELECT without an order comes back with any of the rows.
-/

namespace Dbmaster.License.Instance

open Dbmaster.Lib.Table Dbmaster.Lib.Transition
open Dbmaster.License.Entitlement Dbmaster.License.Trial

/-! ## The calls -/

/-- How far a call of `get_or_create_instance` is; it returns no row when it fails. -/
inductive Phase
  | selecting
  | inserting (installUuid : String) (createdAt : List Char)
  | rereading
  | returned (instanceMeta : Option InstanceMeta)

/-- How far a call of `ensure_trial_status` is; there is no status when it fails. -/
inductive TrialPhase
  | reading
  | starting
  | reported (status : Option TrialStatus)

structure World where
  table : List InstanceMeta
  calls : List Phase
  trials : List TrialPhase

def World.initial : World := ⟨[], [], []⟩

def World.setCall (w : World) (i : Nat) (phase : Phase) : World :=
  { w with calls := w.calls.set i phase }

/-- `ok` is whether the statement succeeds, and `pick` decides between the rows. -/
inductive Action
  | getOrCreateInstance
  | select (i : Nat) (ok : Bool) (pick : Nat) (installUuid : String) (now : Int)
  | insert (i : Nat) (ok : Bool)
  | reread (i : Nat) (ok : Bool) (pick : Nat)
  | ensureTrialStatus
  | readTrial (j : Nat) (ok : Bool) (pick : Nat) (now : Int)
  | startTrial (j : Nat) (ok : Bool) (now : Int)

/-- `SELECT … LIMIT 1` -/
def anyRow (table : List InstanceMeta) (pick : Nat) : Option InstanceMeta :=
  fetchAny (fun _ => true) table pick

/-- `INSERT OR IGNORE`; the UUID is the primary key. -/
def insertOrIgnore (table : List InstanceMeta) (installUuid : String) (createdAt : List Char) :
    List InstanceMeta :=
  if installUuid ∈ table.map InstanceMeta.installUuid then table
  else table ++ [⟨installUuid, createdAt, none, none⟩]

section Steps

variable (chrono : Chrono)

/-- What follows the first SELECT; without a row, a UUID is drawn. -/
def selected (row : Option InstanceMeta) (installUuid : String) (now : Int) : Phase :=
  match row with
  | some row => .returned (some row)
  | none => .inserting installUuid (chrono.toRfc3339 now)

def trialRead (row : Option InstanceMeta) (now : Int) : TrialPhase :=
  match row with
  | none => .reported (some .notStarted)
  | some row =>
    match row.trialStartedAt, row.trialExpiresAt with
    | some startedRaw, some expiresRaw => .reported (classify chrono startedRaw expiresRaw now)
    | none, none => .starting
    -- a partly written row is initialised again
    | _, _ => .starting

def step (w : World) : Action → Option World
  | .getOrCreateInstance => some { w with calls := w.calls ++ [.selecting] }
  | .select i ok pick installUuid now =>
    match w.calls[i]? with
    | some .selecting =>
      some (w.setCall i
        (if ok then selected chrono (anyRow w.table pick) installUuid now else .returned none))
    | _ => none
  | .insert i ok =>
    match w.calls[i]? with
    | some (.inserting installUuid createdAt) =>
      if ok then
        some { w with
          table := insertOrIgnore w.table installUuid createdAt
          calls := w.calls.set i .rereading }
      else some (w.setCall i (.returned none))
    | _ => none
  | .reread i ok pick =>
    match w.calls[i]? with
    | some .rereading =>
      some (w.setCall i (.returned (if ok then anyRow w.table pick else none)))
    | _ => none
  | .ensureTrialStatus => some { w with trials := w.trials ++ [.reading] }
  | .readTrial j ok pick now =>
    match w.trials[j]? with
    | some .reading =>
      some { w with
        trials := w.trials.set j
          (if ok then trialRead chrono (anyRow w.table pick) now else .reported none) }
    | _ => none
  | .startTrial j ok now =>
    match w.trials[j]? with
    | some .starting =>
      if ok then
        let started := Trial.startTrial chrono w.table now
        some { w with table := started.2, trials := w.trials.set j (.reported started.1) }
      else some { w with trials := w.trials.set j (.reported none) }
    | _ => none

end Steps

/-! ## What should hold -/

def World.uuids (w : World) : List String := w.table.map InstanceMeta.installUuid

/-- At most one row is stored; what the calls have returned is its UUID, and what is written
to the trial columns is written to it. -/
structure Converged (w : World) : Prop where
  one : w.table.length ≤ 1
  returned : ∀ instanceMeta, .returned (some instanceMeta) ∈ w.calls →
    w.uuids = [instanceMeta.installUuid]
  trial : ∀ row ∈ w.table, row.trialStartedAt.isSome ∨ row.trialExpiresAt.isSome →
    ∀ instanceMeta, .returned (some instanceMeta) ∈ w.calls →
      row.installUuid = instanceMeta.installUuid

/-- An INSERT meets an empty table, or a row with the UUID that it brings. -/
def timely (w : World) : Action → Bool
  | .insert i true =>
    match w.calls[i]? with
    | some (.inserting installUuid _) => w.uuids.all fun uuid => uuid == installUuid
    | _ => true
  | _ => true

/-! ## One step -/

/-- All that a step can do to the UUIDs and to what has been returned. -/
inductive Effect (w : World) (a : Action) (w' : World) : Prop
  | quiet (huuids : w'.uuids = w.uuids)
      (hreturned : ∀ instanceMeta, .returned (some instanceMeta) ∈ w'.calls →
        .returned (some instanceMeta) ∈ w.calls ∨ instanceMeta ∈ w.table)
  | inserted (i : Nat) (installUuid : String) (createdAt : List Char)
      (haction : a = .insert i true)
      (hphase : w.calls[i]? = some (.inserting installUuid createdAt))
      (hnew : installUuid ∉ w.uuids) (huuids : w'.uuids = w.uuids ++ [installUuid])
      (hreturned : ∀ instanceMeta, .returned (some instanceMeta) ∈ w'.calls →
        .returned (some instanceMeta) ∈ w.calls)

theorem anyRow_mem {table : List InstanceMeta} {pick : Nat} {row : InstanceMeta}
    (h : anyRow table pick = some row) : row ∈ table := List.mem_of_mem_filter (fetchAny_mem h)

theorem Effect.setCall {w : World} {a : Action} {i : Nat} {phase : Phase}
    (hphase : ∀ instanceMeta, phase = .returned (some instanceMeta) → instanceMeta ∈ w.table) :
    Effect w a (w.setCall i phase) := by
  refine .quiet rfl fun instanceMeta hmem => ?_
  rcases List.mem_or_eq_of_mem_set hmem with hkept | heq
  · exact Or.inl hkept
  · exact Or.inr (hphase instanceMeta heq.symm)

theorem map_installUuid_startTrial (chrono : Chrono) (table : List InstanceMeta) (now : Int) :
    (Trial.startTrial chrono table now).2.map InstanceMeta.installUuid =
      table.map InstanceMeta.installUuid := by
  unfold Trial.startTrial
  cases chrono.checkedAdd now trialLength with
  | none => rfl
  | some expires =>
      simp only []
      split
      case isTrue => rfl
      case isFalse =>
        rw [List.map_map]
        rfl

variable {chrono : Chrono} {w w' : World} {a : Action}

theorem effect_insert {i : Nat} {installUuid : String} {createdAt : List Char}
    (hphase : w.calls[i]? = some (.inserting installUuid createdAt)) :
    Effect w (.insert i true)
      { w with
        table := insertOrIgnore w.table installUuid createdAt
        calls := w.calls.set i .rereading } := by
  have hreturned : ∀ instanceMeta,
      Phase.returned (some instanceMeta) ∈ w.calls.set i .rereading →
        Phase.returned (some instanceMeta) ∈ w.calls := by
    intro instanceMeta hmem
    rcases List.mem_or_eq_of_mem_set hmem with hkept | heq
    · exact hkept
    · cases heq
  by_cases htaken : installUuid ∈ w.table.map InstanceMeta.installUuid
  · refine .quiet ?_ fun instanceMeta hmem => Or.inl (hreturned instanceMeta hmem)
    show (insertOrIgnore w.table installUuid createdAt).map _ = _
    rw [insertOrIgnore, if_pos htaken]
    rfl
  · refine .inserted i installUuid createdAt rfl hphase htaken ?_ hreturned
    show (insertOrIgnore w.table installUuid createdAt).map _ = _
    rw [insertOrIgnore, if_neg htaken, List.map_append]
    rfl

theorem effect_of_step (h : step chrono w a = some w') : Effect w a w' := by
  cases a with
  | getOrCreateInstance =>
      cases h
      refine .quiet rfl fun instanceMeta hmem => ?_
      rcases List.mem_append.mp hmem with hkept | hnew
      · exact Or.inl hkept
      · cases List.mem_singleton.mp hnew
  | select i ok pick installUuid now =>
      simp only [step] at h
      split at h
      case h_1 =>
        cases h
        apply Effect.setCall
        intro instanceMeta hphase
        cases ok with
        | false => cases hphase
        | true =>
            rw [if_pos rfl] at hphase
            cases hrow : anyRow w.table pick with
            | none =>
                rw [hrow] at hphase
                cases hphase
            | some row =>
                rw [hrow] at hphase
                cases hphase
                exact anyRow_mem hrow
      case h_2 => cases h
  | insert i ok =>
      simp only [step] at h
      split at h
      case h_1 installUuid createdAt hphase =>
        cases ok with
        | false =>
            cases h
            exact .setCall nofun
        | true =>
            cases h
            exact effect_insert hphase
      case h_2 => cases h
  | reread i ok pick =>
      simp only [step] at h
      split at h
      case h_1 =>
        cases h
        apply Effect.setCall
        intro instanceMeta hphase
        cases ok with
        | false => cases hphase
        | true => exact anyRow_mem (Phase.returned.inj hphase)
      case h_2 => cases h
  | ensureTrialStatus =>
      cases h
      exact .quiet rfl fun _ hmem => Or.inl hmem
  | readTrial j ok pick now =>
      simp only [step] at h
      split at h
      case h_1 =>
        cases h
        exact .quiet rfl fun _ hmem => Or.inl hmem
      case h_2 => cases h
  | startTrial j ok now =>
      simp only [step] at h
      split at h
      case h_1 =>
        cases ok with
        | false =>
            cases h
            exact .quiet rfl fun _ hmem => Or.inl hmem
        | true =>
            cases h
            exact .quiet (map_installUuid_startTrial chrono w.table now) fun _ hmem => Or.inl hmem
      case h_2 => cases h

/-! ## Whole runs -/

/-- There is at most one UUID, and it is the one that has been returned. -/
structure Inv (w : World) : Prop where
  one : w.uuids.length ≤ 1
  returned : ∀ instanceMeta, .returned (some instanceMeta) ∈ w.calls →
    w.uuids = [instanceMeta.installUuid]

theorem Inv.initial : Inv .initial where
  one := Nat.zero_le 1
  returned := nofun

theorem Inv.converged (hinv : Inv w) : Converged w where
  one := by
    rw [← List.length_map (f := InstanceMeta.installUuid)]
    exact hinv.one
  returned := hinv.returned
  trial := by
    intro row hrow _ instanceMeta hreturned
    have hmem : row.installUuid ∈ w.uuids := List.mem_map_of_mem hrow
    rw [hinv.returned instanceMeta hreturned] at hmem
    exact List.mem_singleton.mp hmem

theorem Inv.uuids_of_mem (hinv : Inv w) {row : InstanceMeta} (hrow : row ∈ w.table) :
    w.uuids = [row.installUuid] := by
  have hmem : row.installUuid ∈ w.uuids := List.mem_map_of_mem hrow
  obtain ⟨uuid, huuid⟩ := List.length_eq_one_iff.mp
    (Nat.le_antisymm hinv.one (List.length_pos_of_mem hmem))
  rw [huuid] at hmem ⊢
  rw [List.mem_singleton.mp hmem]

theorem Inv.step (htimely : timely w a = true) (h : step chrono w a = some w') (hinv : Inv w) :
    Inv w' := by
  cases effect_of_step h with
  | quiet huuids hreturned =>
      constructor
      · rw [huuids]
        exact hinv.one
      · intro instanceMeta hmem
        rw [huuids]
        rcases hreturned instanceMeta hmem with hkept | hrow
        · exact hinv.returned instanceMeta hkept
        · exact hinv.uuids_of_mem hrow
  | inserted i installUuid createdAt haction hphase hnew huuids hreturned =>
      -- no other row is stored, so nothing has been returned yet
      have hempty : w.uuids = [] := by
        subst haction
        rw [timely, hphase] at htimely
        apply List.eq_nil_iff_forall_not_mem.mpr
        intro uuid huuid
        have hsame := beq_iff_eq.mp (List.all_eq_true.mp htimely uuid huuid)
        exact hnew (hsame ▸ huuid)
      rw [hempty, List.nil_append] at huuids
      constructor
      · rw [huuids]
        exact Nat.le_refl 1
      · intro instanceMeta hmem
        have hbefore := hinv.returned instanceMeta (hreturned instanceMeta hmem)
        rw [hempty] at hbefore
        cases hbefore

/-- Where every INSERT meets no row of another call, the calls converge. -/
theorem converged_of_timely (chrono : Chrono) (acts : List Action) (w : World)
    (hrun : Run (step chrono) (fun w a => timely w a = true) .initial acts w) : Converged w :=
  (hrun.invariant (fun _ _ _ => Inv.step) Inv.initial).converged

/-- A call that creates the row, one that finds it, and a trial. -/
def oneAfterOther : List Action :=
  [.getOrCreateInstance, .select 0 true 0 "a" 0, .insert 0 true, .reread 0 true 0,
    .getOrCreateInstance, .select 1 true 0 "b" 1, .ensureTrialStatus, .readTrial 0 true 0 2,
    .startTrial 0 true 2]

theorem oneAfterOther_converged :
    ∃ w, execChecked (step civil) timely .initial oneAfterOther = some w ∧
      w.uuids = ["a"] ∧ Converged w := by
  have hrun : ((execChecked (step civil) timely .initial oneAfterOther).map World.uuids) =
      some ["a"] := by
    decide +kernel
  obtain ⟨w, hw, huuids⟩ := Option.map_eq_some_iff.mp hrun
  exact ⟨w, hw, huuids, converged_of_timely civil _ w (run_of_execChecked (fun _ _ h => h) hw)⟩

/-- Both calls have found no row before either has inserted its own. -/
def bothSelected : List Action :=
  [.getOrCreateInstance, .getOrCreateInstance, .select 0 true 0 "a" 0, .select 1 true 0 "b" 0,
    .insert 0 true, .insert 1 true]

theorem two_instances_stored :
    ¬ ∀ chrono acts w, Run (step chrono) anyStep .initial acts w → Converged w := by
  intro hall
  have hrun : ((exec (step civil) .initial bothSelected).map World.uuids) = some ["a", "b"] := by
    decide +kernel
  obtain ⟨w, hw, huuids⟩ := Option.map_eq_some_iff.mp hrun
  have hone := (hall civil _ w (run_of_exec hw)).one
  rw [← List.length_map (f := InstanceMeta.installUuid)] at hone
  change w.uuids.length ≤ 1 at hone
  rw [huuids] at hone
  exact absurd hone (by decide)

end Dbmaster.License.Instance
