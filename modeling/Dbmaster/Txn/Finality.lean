import Dbmaster.Txn.Invariant
/-!
# What the callers of the store can rely on

For every interleaving a session is finished at most once and is dead once it was taken
out of the store.  A `COMMIT` is answered with success whatever the database said, so
that a reported commit happened is true only of runs in which every `COMMIT` of the store
is acknowledged.
-/

namespace Dbmaster.Txn.Finality

open Dbmaster.Txn.Store Dbmaster.Txn.Session Dbmaster.Txn.Invariant Dbmaster.Lib.Lifecycle
  Dbmaster.Lib.Transition

variable {strict : Prop} {shard : String → Nat} {s : State} {acts : List Action}
  {stageOf : String → Stage}

/-- The calls of one client, who begins a transaction and commits it. -/
def commitCalls (outcome : Outcome) : List Action :=
  [.begin 0 false none, .register 0 "s" 0, .remove 1 "s" .commit, .send 1, .answer 1 outcome]

def commitLog (outcome : Outcome) : List Event :=
  [.registered "s", .replied 0 .begin .ok, .removed 1 "s", .finished 1 "s" .commit] ++
    outcome.events "s" .commit ++ [.replied 1 (.finish "s" .commit) .ok]

theorem Tracks.life_of_split (h : Tracks strict shard s stageOf) {id : String} {e : Event}
    {before after : List Event} (hlog : s.log = before ++ e :: after)
    (habout : about id e = true) :
    ∃ t t', Lives strict id before t ∧ Next strict t e t' ∧
      Life (Next strict) t' (after.filter (about id)) (stageOf id) := by
  have hlives := h.lives id
  unfold Lives at hlives
  rw [hlog, List.filter_append, List.filter_cons_of_pos habout] at hlives
  exact hlives.exists_stage

theorem dead_of_removed (h : Tracks strict shard s stageOf) {id : String} {c : Nat}
    {before after : List Event} (hlog : s.log = before ++ .removed c id :: after) :
    s.sessions id = none ∧ ∀ e ∈ after, about id e = true → Dead c e := by
  obtain ⟨t, t', -, hnext, hlife⟩ := Tracks.life_of_split h hlog (decide_eq_true rfl)
  have htaken : TakenBy c t' := by
    cases hnext
    rfl
  obtain ⟨hlast, hdead⟩ := dead_after_removal htaken hlife
  constructor
  · have hgone : ¬ (s.sessions id).isSome = true := by
      rw [h.present id]
      intro hlive
      rw [hlive] at hlast
      exact hlast
    simpa using hgone
  · intro e he habout
    exact hdead e (List.mem_filter.mpr ⟨he, habout⟩)

/-- Each session is finished at most once, and once it was taken out it is gone from the
store, nothing is executed on it, and whoever asks for it hears an error, but for the
answer to the call that finished it. -/
theorem sessions_end_once (h : Run (step shard) anyStep State.init acts s) :
    (∀ id, (s.log.filter (about id)).countP isFinish ≤ 1) ∧
    ∀ id c before after, s.log = before ++ .removed c id :: after →
      s.sessions id = none ∧
      (∀ c' sql, .executed c' id sql ∉ after) ∧
      (∀ c' reply, .replied c' (.executeInTxn id) reply ∈ after →
        ∃ message, reply = .error message) ∧
      ∀ c' control reply, .replied c' (.finish id control) reply ∈ after → c' ≠ c →
        ∃ message, reply = .error message := by
  obtain ⟨stageOf, htracks⟩ := @tracks_run False shard s acts (h.weaken fun _ _ _ => False.elim)
  constructor
  · intro id
    rw [countP_isFinish (htracks.lives id)]
    exact finishes_le_one _
  · intro id c before after hlog
    obtain ⟨hgone, hdead⟩ := dead_of_removed htracks hlog
    refine ⟨hgone, ?_, ?_, ?_⟩
    · intro c' sql hin
      exact (hdead _ hin (decide_eq_true rfl)).executed c' id sql rfl
    · intro c' reply hin
      rcases (hdead _ hin (decide_eq_true rfl)).replied c' _ reply rfl with herror | ⟨-, _, _, hm⟩
      · exact herror
      · cases hm
    · intro c' control reply hin hne
      rcases (hdead _ hin (decide_eq_true rfl)).replied c' _ reply rfl with herror | ⟨hc, -⟩
      · exact herror
      · exact absurd hc hne

theorem sessions_end_once_commit :
    ∃ s, exec (step fun _ => 0) State.init (commitCalls .acknowledged) = some s ∧
      s.log = commitLog .acknowledged ∧ s.sessions "s" = none := by
  have hrun : Run (step fun _ => 0) anyStep State.init (commitCalls .acknowledged) _ :=
    run_of_exec rfl
  have hgone := ((sessions_end_once hrun).2 "s" 1 [.registered "s", .replied 0 .begin .ok] _ rfl).1
  exact ⟨_, rfl, rfl, hgone⟩

/-! ## Reported commits -/

/-- In a run in which every `COMMIT` of the store is acknowledged and no statement of a
session commits, a reported commit was acknowledged and a reported rollback follows no
commit. -/
theorem reported_outcome_happened (h : Run (step shard) Sound State.init acts s) :
    (∀ id c before after, s.log = before ++ .replied c (.finish id .commit) .ok :: after →
      .acknowledged id .commit ∈ before) ∧
    ∀ id c before after, s.log = before ++ .replied c (.finish id .rollback) .ok :: after →
      .committed id ∉ before := by
  obtain ⟨stageOf, htracks⟩ := @tracks_run True shard s acts (h.weaken fun _ _ hs _ => hs)
  constructor
  · intro id c before after hlog
    obtain ⟨t, t', hbefore, hnext, -⟩ := Tracks.life_of_split htracks hlog (decide_eq_true rfl)
    have hack := acknowledged_of_life hbefore
    cases hnext with
    | closed hstrict =>
        obtain ⟨id', hin⟩ := hack (hstrict trivial rfl)
        obtain ⟨hmem, habout⟩ := List.mem_filter.mp hin
        rw [of_decide_eq_true habout] at hmem
        exact hmem
  · intro id c before after hlog hin
    obtain ⟨t, t', hbefore, hnext, -⟩ := Tracks.life_of_split htracks hlog (decide_eq_true rfl)
    have honly := committedOnly_of_strict hbefore
      (List.mem_filter.mpr ⟨hin, decide_eq_true rfl⟩)
    cases hnext with
    | closed => cases honly

theorem reported_outcome_happened_commit :
    ∃ s, exec (step fun _ => 0) State.init (commitCalls .acknowledged) = some s ∧
      .replied 1 (.finish "s" .commit) .ok ∈ s.log ∧ .acknowledged "s" .commit ∈ s.log := by
  have hrun : Run (step fun _ => 0) Sound State.init (commitCalls .acknowledged) _ :=
    .cons trivial rfl (.cons trivial rfl (.cons trivial rfl (.cons trivial rfl
      (.cons (fun _ _ => rfl) rfl (.nil _)))))
  have hack := (reported_outcome_happened hrun).1 "s" 1
    [.registered "s", .replied 0 .begin .ok, .removed 1 "s", .finished 1 "s" .commit,
      .committed "s", .acknowledged "s" .commit] [] rfl
  have hin : Event.acknowledged "s" .commit ∈ commitLog .acknowledged :=
    List.mem_append_left _ hack
  exact ⟨_, rfl, by decide, hin⟩

/-- A commit that failed is reported as a success. -/
theorem failed_commit_reported :
    ∃ s, Run (step fun _ => 0) anyStep State.init (commitCalls .failed) s ∧
      s.log = [.registered "s", .replied 0 .begin .ok, .removed 1 "s", .finished 1 "s" .commit] ++
        .replied 1 (.finish "s" .commit) .ok :: [] ∧
      .acknowledged "s" .commit ∉ s.log :=
  ⟨_, run_of_exec rfl, rfl, by decide⟩

end Dbmaster.Txn.Finality
