import Dbmaster.Txn.Session
/-!
# Every run tells the life of every session

The invariant of the store: the log of each session is a life, a session is in the map
exactly while it is live, and a call that holds an entry, has taken one out or has sent
its control statement is at the stage that says so.  The read guards carry it: nothing is
taken out of a shard while a call holds an entry of it.
-/

namespace Dbmaster.Txn.Invariant

open Dbmaster.Txn.Store Dbmaster.Txn.Session Dbmaster.Lib.Lifecycle Dbmaster.Lib.Transition

/-- The session whose entry the call holds. -/
def entryOf : Phase → Option String
  | .waiting id _ => some id
  | .running id => some id
  | .executed id => some id
  | .scanning _ _ entry _ => entry
  | _ => none

/-- The session that the call has taken out and not finished. -/
def takenOf : Phase → Option String
  | .taken id _ _ => some id
  | .reclaiming _ _ id _ _ => some id
  | _ => none

/-- The session that the call is finishing. -/
def closingOf : Phase → Option (String × Control)
  | .sent id control => some (id, control)
  | .reclaimed _ _ id _ _ => some (id, .rollback)
  | _ => none

/-- What a call says of the stage of a session. -/
structure Tells (c : Nat) (p : Phase) (id : String) (t : Stage) : Prop where
  entry : entryOf p = some id → t = .live
  taken : takenOf p = some id → t = .taken c
  closing : ∀ control, closingOf p = some (id, control) → ∃ a, t = .closing c control a

structure Tracks (strict : Prop) (shard : String → Nat) (s : State) (stageOf : String → Stage) :
    Prop where
  lives : ∀ id, Lives strict id s.log (stageOf id)
  present : ∀ id, (s.sessions id).isSome = true ↔ stageOf id = .live
  guarded : ∀ c id, entryOf (s.calls c) = some id → c ∈ s.readers (shard id)
  tells : ∀ c id, Tells c (s.calls c) id (stageOf id)

/-- Only an acknowledged `COMMIT` of the store commits. -/
def Sound (s : State) : Action → Prop
  | .complete _ _ commits => commits = false
  | .answer c outcome => ∀ id, s.calls c = .sent id .commit → outcome = .acknowledged
  | .drop c commits => ∀ id, s.calls c = .running id → commits = false
  | _ => True

variable {strict : Prop} {shard : String → Nat} {s x : State} {stageOf : String → Stage}
  {c : Nat} {id : String} {p : Phase} {es : List Event}

theorem tracks_init (strict : Prop) (shard : String → Nat) :
    Tracks strict shard State.init fun _ => .unborn where
  lives _ := .nil
  present _ := by simp [State.init]
  guarded _ _ h := nomatch h
  tells _ _ := ⟨nofun, nofun, nofun⟩

/-! ## What a turn leaves alone -/

/-- Between the states only the session and the guards of the call differ. -/
structure Frame (s x : State) (c : Nat) (id : String) : Prop where
  calls : x.calls = s.calls
  log : x.log = s.log
  sessions : ∀ id', id' ≠ id → x.sessions id' = s.sessions id'
  readers : ∀ c', c' ≠ c → ∀ k, c' ∈ s.readers k → c' ∈ x.readers k

@[simp] theorem turn_calls (x : State) (c c' : Nat) (p : Phase) (es : List Event) :
    (x.turn c p es).calls c' = if c' = c then p else x.calls c' := by
  show Function.update x.calls c p c' = _
  by_cases hc : c' = c
  · rw [if_pos hc, hc, Function.update_self]
  · rw [if_neg hc, Function.update_of_ne hc]

theorem Frame.refl (s : State) (c : Nat) (id : String) : Frame s s c id :=
  ⟨rfl, rfl, fun _ _ => rfl, fun _ _ _ h => h⟩

theorem Frame.setSession (s : State) (c : Nat) (id : String) (session : Option TxnSession) :
    Frame s (s.setSession id session) c id := by
  refine ⟨rfl, rfl, ?_, fun _ _ _ h => h⟩
  intro id' hne
  exact Function.update_of_ne hne _ _

theorem Frame.hold (s : State) (c k : Nat) (id : String) : Frame s (s.hold c k) c id := by
  refine ⟨rfl, rfl, fun _ _ => rfl, ?_⟩
  intro c' _ k' h
  show c' ∈ Function.update s.readers k _ k'
  by_cases hk : k' = k
  · rw [hk, Function.update_self]
    rw [hk] at h
    exact List.mem_cons_of_mem c h
  · rw [Function.update_of_ne hk]
    exact h

theorem Frame.release (s : State) (c k : Nat) (id : String) : Frame s (s.release c k) c id := by
  refine ⟨rfl, rfl, fun _ _ => rfl, ?_⟩
  intro c' hne k' h
  show c' ∈ Function.update s.readers k _ k'
  by_cases hk : k' = k
  · rw [hk, Function.update_self]
    rw [hk] at h
    exact List.mem_filter.mpr ⟨h, decide_eq_true hne⟩
  · rw [Function.update_of_ne hk]
    exact h

theorem Frame.trans {y : State} (h : Frame s x c id) (h' : Frame x y c id) : Frame s y c id where
  calls := h'.calls.trans h.calls
  log := h'.log.trans h.log
  sessions id' hne := (h'.sessions id' hne).trans (h.sessions id' hne)
  readers c' hne k hin := h'.readers c' hne k (h.readers c' hne k hin)

theorem Frame.leave (s : State) (c : Nat) (id : String) : Frame s (s.leave shard c id) c id :=
  (Frame.setSession s c id _).trans (Frame.release _ c _ id)

@[simp] theorem isSome_setSession (s : State) (id : String) (session : Option TxnSession) :
    (s.setSession id session).sessions id = session := Function.update_self ..

@[simp] theorem sessions_leave (s : State) (c : Nat) (id : String) :
    ((s.leave shard c id).sessions id).isSome = (s.sessions id).isSome := by
  show (((s.setSession id _).sessions id)).isSome = _
  rw [isSome_setSession, Option.isSome_map]

theorem mem_hold (s : State) (c k : Nat) : c ∈ (s.hold c k).readers k := by
  show c ∈ Function.update s.readers k _ k
  rw [Function.update_self]
  exact List.mem_cons_self

/-- No event happens to another session. -/
def Concerns (id : String) (es : List Event) : Prop :=
  ∀ e ∈ es, ∀ id', about id' e = true → id' = id

theorem Concerns.nil : Concerns id [] := fun _ he => nomatch he

theorem Concerns.one {e : Event} (h : ∀ id', about id' e = true → id' = id) :
    Concerns id [e] := by
  intro e' he'
  rw [List.mem_singleton.mp he']
  exact h

theorem Concerns.self {e : Event} (h : ∀ id', about id' e = decide (id = id')) :
    Concerns id [e] := by
  apply Concerns.one
  intro id' habout
  rw [h id'] at habout
  exact (of_decide_eq_true habout).symm

theorem Concerns.append {es' : List Event} (h : Concerns id es) (h' : Concerns id es') :
    Concerns id (es ++ es') := by
  intro e he
  rcases List.mem_append.mp he with hleft | hright
  · exact h e hleft
  · exact h' e hright

/-! ## One turn of a call -/

/-- A call goes on, and with it the stage of at most one session. -/
theorem Tracks.turn (h : Tracks strict shard s stageOf) (hframe : Frame s x c id)
    (habout : Concerns id es) (t : Stage)
    (hlife : Life (Next strict) (stageOf id) (es.filter (about id)) t)
    (hpresent : (x.sessions id).isSome = true ↔ t = .live)
    (hguard : ∀ id', entryOf p = some id' → c ∈ x.readers (shard id'))
    (htells : ∀ id', Tells c p id' (if id' = id then t else stageOf id'))
    (hother : ∀ c', c' ≠ c → Tells c' (s.calls c') id t) :
    Tracks strict shard (x.turn c p es) fun id' => if id' = id then t else stageOf id' where
  lives := by
    intro id'
    show Lives strict id' (x.log ++ es) _
    rw [hframe.log]
    apply (h.lives id').append
    by_cases hid : id' = id
    · rw [if_pos hid, hid]
      exact hlife
    · have hnone : es.filter (about id') = [] := by
        apply List.filter_eq_nil_iff.mpr
        intro e he hsome
        exact hid (habout e he id' hsome)
      rw [if_neg hid, hnone]
      exact .nil
  present := by
    intro id'
    show (x.sessions id').isSome = true ↔ _
    by_cases hid : id' = id
    · rw [if_pos hid, hid]
      exact hpresent
    · rw [if_neg hid, hframe.sessions id' hid]
      exact h.present id'
  guarded := by
    intro c' id' hentry
    show c' ∈ x.readers (shard id')
    rw [turn_calls] at hentry
    by_cases hc : c' = c
    · rw [if_pos hc] at hentry
      rw [hc]
      exact hguard id' hentry
    · rw [if_neg hc, hframe.calls] at hentry
      exact hframe.readers c' hc _ (h.guarded c' id' hentry)
  tells := by
    intro c' id'
    rw [turn_calls]
    by_cases hc : c' = c
    · rw [if_pos hc, hc]
      exact htells id'
    · rw [if_neg hc, hframe.calls]
      by_cases hid : id' = id
      · rw [if_pos hid, hid]
        exact hother c' hc
      · rw [if_neg hid]
        exact h.tells c' id'

/-- The stage of no session changes. -/
theorem Tracks.stay (h : Tracks strict shard s stageOf) (hframe : Frame s x c id)
    (habout : Concerns id es)
    (hlife : Life (Next strict) (stageOf id) (es.filter (about id)) (stageOf id))
    (hsame : (x.sessions id).isSome = (s.sessions id).isSome)
    (hguard : ∀ id', entryOf p = some id' → c ∈ x.readers (shard id'))
    (htells : ∀ id', Tells c p id' (stageOf id')) :
    Tracks strict shard (x.turn c p es) stageOf := by
  have hstages : (fun id' => if id' = id then stageOf id else stageOf id') = stageOf := by
    funext id'
    by_cases hid : id' = id
    · rw [if_pos hid, hid]
    · rw [if_neg hid]
  have hturn := h.turn (p := p) hframe habout (stageOf id) hlife (by rw [hsame]; exact h.present id)
    hguard (by
      intro id'
      rw [congrFun hstages id']
      exact htells id') fun c' _ => h.tells c' id
  rw [hstages] at hturn
  exact hturn

/-- The call is left with no session. -/
structure Free (p : Phase) : Prop where
  entry : entryOf p = none
  taken : takenOf p = none
  closing : closingOf p = none

theorem Free.tells (h : Free p) (c : Nat) (id : String) (t : Stage) : Tells c p id t := by
  refine ⟨?_, ?_, ?_⟩
  · rw [h.entry]
    exact nofun
  · rw [h.taken]
    exact nofun
  · intro control
    rw [h.closing]
    exact nofun

theorem Tracks.free (h : Tracks strict shard s stageOf) (hframe : Frame s x c id)
    (habout : Concerns id es)
    (hidle : ∀ e ∈ es, about id e = true → Next strict (stageOf id) e (stageOf id))
    (hsame : (x.sessions id).isSome = (s.sessions id).isSome) (hfree : Free p) :
    Tracks strict shard (x.turn c p es) stageOf := by
  refine h.stay hframe habout (Life.idle ?_) hsame ?_ fun id' => hfree.tells c id' _
  · intro e he
    exact hidle e (List.mem_filter.mp he).1 (List.mem_filter.mp he).2
  · intro id' hentry
    rw [hfree.entry] at hentry
    cases hentry

/-- The call holds the entry of a live session. -/
theorem Tracks.holds (h : Tracks strict shard s stageOf) (hframe : Frame s x c id)
    (habout : Concerns id es)
    (hidle : ∀ e ∈ es, Next strict .live e .live) (hlive : stageOf id = .live)
    (hsame : (x.sessions id).isSome = (s.sessions id).isSome)
    (hguard : c ∈ x.readers (shard id)) (hentry : entryOf p = some id)
    (htaken : takenOf p = none) (hclosing : closingOf p = none) :
    Tracks strict shard (x.turn c p es) stageOf := by
  refine h.stay hframe habout (Life.idle ?_) hsame ?_ ?_
  · intro e he
    rw [hlive]
    exact hidle e (List.mem_filter.mp he).1
  · intro id' hid'
    rw [hentry, Option.some.injEq] at hid'
    rw [← hid']
    exact hguard
  · intro id'
    refine ⟨?_, ?_, ?_⟩
    · rw [hentry, Option.some.injEq]
      intro hid'
      rw [← hid']
      exact hlive
    · rw [htaken]
      exact nofun
    · intro control
      rw [hclosing]
      exact nofun

theorem Tracks.live_of_entry (h : Tracks strict shard s stageOf)
    (hentry : entryOf (s.calls c) = some id) : stageOf id = .live :=
  (h.tells c id).entry hentry

/-- Taking a session out, when no call holds an entry of its shard. -/
theorem Tracks.take (h : Tracks strict shard s stageOf) (hreaders : s.readers (shard id) = [])
    (hsome : (s.sessions id).isSome = true) (hentry : entryOf p = none)
    (htaken : ∀ id', takenOf p = some id' → id' = id) (hclosing : closingOf p = none) :
    ∃ stageOf', Tracks strict shard ((s.setSession id none).turn c p [.removed c id]) stageOf' := by
  have hlive : stageOf id = .live := (h.present id).mp hsome
  refine ⟨_, h.turn (Frame.setSession s c id none) ?_ (.taken c) ?_ ?_ ?_ ?_ ?_⟩
  · exact Concerns.self fun _ => rfl
  · rw [hlive, List.filter_cons_of_pos (by simp [about])]
    exact Life.one .removed
  · rw [isSome_setSession]
    exact ⟨nofun, nofun⟩
  · rw [hentry]
    exact fun _ hnone => nomatch hnone
  · intro id'
    refine ⟨?_, ?_, ?_⟩
    · rw [hentry]
      exact nofun
    · intro hid'
      rw [if_pos (htaken id' hid')]
    · intro control
      rw [hclosing]
      exact nofun
  · -- a call that holds the entry would be among the readers
    intro c' hne
    refine ⟨?_, ?_, ?_⟩
    · intro hheld
      have hin := h.guarded c' id hheld
      rw [hreaders] at hin
      cases hin
    · intro hother
      have hstage := (h.tells c' id).taken hother
      rw [hlive] at hstage
      cases hstage
    · intro control hother
      obtain ⟨a, hstage⟩ := (h.tells c' id).closing control hother
      rw [hlive] at hstage
      cases hstage

/-- Of a session that one call took out the others know nothing. -/
theorem Tracks.tells_other (h : Tracks strict shard s stageOf) {c' : Nat} (hne : c' ≠ c)
    (hstage : stageOf id = .taken c ∨ ∃ control a, stageOf id = .closing c control a)
    (t : Stage) : Tells c' (s.calls c') id t := by
  refine ⟨?_, ?_, ?_⟩
  · intro hother
    have hlive := h.live_of_entry hother
    rcases hstage with hstage | ⟨control, a, hstage⟩
    · rw [hstage] at hlive
      cases hlive
    · rw [hstage] at hlive
      cases hlive
  · intro hother
    have hboth := (h.tells c' id).taken hother
    rcases hstage with hstage | ⟨control, a, hstage⟩
    · rw [hstage, Stage.taken.injEq] at hboth
      exact absurd hboth.symm hne
    · rw [hstage] at hboth
      cases hboth
  · intro control' hother
    obtain ⟨b, hboth⟩ := (h.tells c' id).closing control' hother
    rcases hstage with hstage | ⟨control, a, hstage⟩
    · rw [hstage] at hboth
      cases hboth
    · rw [hstage, Stage.closing.injEq] at hboth
      exact absurd hboth.1.symm hne

/-- Sending the control statement for the session that the call took out. -/
theorem Tracks.send (h : Tracks strict shard s stageOf) {control : Control}
    (htook : takenOf (s.calls c) = some id) (hentry : entryOf p = none) (htaken : takenOf p = none)
    (hclosing : closingOf p = some (id, control)) :
    ∃ stageOf', Tracks strict shard (s.turn c p [.finished c id control]) stageOf' := by
  have hstage : stageOf id = .taken c := (h.tells c id).taken htook
  refine ⟨_, h.turn (Frame.refl s c id) ?_ (.closing c control False) ?_ ?_ ?_ ?_ ?_⟩
  · exact Concerns.self fun _ => rfl
  · rw [hstage, List.filter_cons_of_pos (by simp [about])]
    exact Life.one .finished
  · rw [h.present id, hstage]
    exact ⟨nofun, nofun⟩
  · rw [hentry]
    exact fun _ hnone => nomatch hnone
  · intro id'
    refine ⟨?_, ?_, ?_⟩
    · rw [hentry]
      exact nofun
    · rw [htaken]
      exact nofun
    · intro control' hclose
      rw [hclosing, Option.some.injEq, Prod.mk.injEq] at hclose
      rw [if_pos hclose.1.symm, ← hclose.2]
      exact ⟨False, rfl⟩
  · exact fun c' hne => h.tells_other hne (.inl hstage) _

/-- What comes of the control statement, and the answer. -/
theorem Tracks.close (h : Tracks strict shard s stageOf) (id : String) (control : Control)
    (hclosing : closingOf (s.calls c) = some (id, control))
    (habout : Concerns id es)
    (hlife : ∀ a, ∃ t, Life (Next strict) (.closing c control a) (es.filter (about id)) t ∧
      t ≠ .live) (hfree : Free p) :
    ∃ stageOf', Tracks strict shard (s.turn c p es) stageOf' := by
  obtain ⟨a, hstage⟩ := (h.tells c id).closing control hclosing
  obtain ⟨t, hlife, hdead⟩ := hlife a
  refine ⟨_, h.turn (Frame.refl s c id) habout t ?_ ?_ ?_ ?_ ?_⟩
  · rw [hstage]
    exact hlife
  · rw [h.present id, hstage]
    exact ⟨nofun, fun hlive => absurd hlive hdead⟩
  · rw [hfree.entry]
    exact fun _ hnone => nomatch hnone
  · exact fun id' => hfree.tells c id' _
  · exact fun c' hne => h.tells_other hne (.inr ⟨control, a, hstage⟩) t

/-- A session of a new id. -/
theorem Tracks.register (h : Tracks strict shard s stageOf) (session : TxnSession)
    (hnew : Event.registered id ∉ s.log) :
    ∃ stageOf', Tracks strict shard ((s.setSession id (some session)).turn c .returned
      [.registered id, .replied c .begin .ok]) stageOf' := by
  have hstage : stageOf id = .unborn := unborn_of_not_registered (h.lives id) hnew
  refine ⟨_, h.turn (Frame.setSession s c id _) ?_ .live ?_ ?_ ?_ ?_ ?_⟩
  · exact Concerns.append (Concerns.self fun _ => rfl) (Concerns.one nofun)
  · rw [hstage]
    have hevents : [Event.registered id, .replied c .begin .ok].filter (about id) =
        [.registered id] := by
      simp [about]
    rw [hevents]
    exact Life.one .registered
  · rw [isSome_setSession]
    exact ⟨fun _ => rfl, fun _ => rfl⟩
  · exact fun _ hnone => nomatch hnone
  · exact fun _ => ⟨nofun, nofun, nofun⟩
  · intro c' hne
    refine ⟨fun _ => rfl, ?_, ?_⟩
    · intro hother
      have hboth := (h.tells c' id).taken hother
      rw [hstage] at hboth
      cases hboth
    · intro control hother
      obtain ⟨a, hboth⟩ := (h.tells c' id).closing control hother
      rw [hstage] at hboth
      cases hboth

/-! ## Every step -/

theorem mem_commitIf {commits : Prop} [Decidable commits] {e : Event}
    (he : e ∈ commitIf commits id) : e = .committed id ∧ commits := by
  unfold commitIf at he
  split at he
  case isTrue hcommits => exact ⟨List.mem_singleton.mp he, hcommits⟩
  case isFalse => cases he

theorem concerns_commitIf (commits : Prop) [Decidable commits] :
    Concerns id (commitIf commits id) := by
  intro e he id' habout
  rw [(mem_commitIf he).1] at habout
  exact (of_decide_eq_true habout).symm

theorem mem_threadIdProbe {session : Option TxnSession} {e : Event}
    (he : e ∈ threadIdProbe c id session) : e = .executed c id threadIdSql := by
  unfold threadIdProbe at he
  split at he
  case isTrue => exact List.mem_singleton.mp he
  case isFalse => cases he

theorem mem_outcome {control : Control} {outcome : Outcome} {e : Event}
    (he : e ∈ outcome.events id control) : e = .committed id ∨ e = .acknowledged id control := by
  have hcommit : ∀ d ∈ (if control = .commit then [Event.committed id] else []),
      d = .committed id := by
    intro d hd
    split at hd
    case isTrue => exact List.mem_singleton.mp hd
    case isFalse => cases hd
  cases outcome with
  | acknowledged =>
      rcases List.mem_append.mp he with hleft | hright
      · exact Or.inl (hcommit e hleft)
      · exact Or.inr (List.mem_singleton.mp hright)
  | lost => exact Or.inl (hcommit e he)
  | failed => cases he

theorem about_outcome {control : Control} {outcome : Outcome} {e : Event}
    (he : e ∈ outcome.events id control) (id' : String) : about id' e = decide (id = id') := by
  rcases mem_outcome he with rfl | rfl
  · rfl
  · rfl

theorem concerns_outcome (control : Control) (outcome : Outcome) :
    Concerns id (outcome.events id control) := by
  intro e he id' habout
  rw [about_outcome he id'] at habout
  exact (of_decide_eq_true habout).symm

/-- What the database does with the control statement leaves the session closing. -/
theorem life_outcome (strict : Prop) (c : Nat) (id : String) (control : Control)
    (outcome : Outcome) (a : Prop) :
    ∃ b, Life (Next strict) (.closing c control a) ((outcome.events id control).filter (about id))
      (.closing c control b) ∧ (outcome = .acknowledged → b) := by
  have hcommit : ∀ a : Prop, Life (Next strict) (.closing c control a)
      (if control = .commit then [Event.committed id] else []) (.closing c control a) := by
    intro a
    split
    case isTrue hcontrol =>
      rw [hcontrol]
      exact Life.one .committed
    case isFalse => exact .nil
  have hall : (outcome.events id control).filter (about id) = outcome.events id control := by
    apply List.filter_eq_self.mpr
    intro e he
    rw [about_outcome he id]
    exact decide_eq_true rfl
  rw [hall]
  cases outcome with
  | acknowledged => exact ⟨True, (hcommit a).append (Life.one .acknowledged), fun _ => trivial⟩
  | lost => exact ⟨a, hcommit a, nofun⟩
  | failed => exact ⟨a, .nil, nofun⟩

/-- A statement that runs in a live session commits in no strict life. -/
theorem next_of_commitIf {commits : Bool} (hsound : strict → commits = false) {e : Event}
    (he : e ∈ commitIf (commits = true) id) : Next strict .live e .live := by
  obtain ⟨rfl, htrue⟩ := mem_commitIf he
  apply Next.committedBySql
  intro hstrict
  rw [hsound hstrict] at htrue
  cases htrue

section Steps

variable {s' : State}

/-- A call that does nothing with a session, or hears that there is none. -/
theorem Tracks.aside (h : Tracks strict shard s stageOf) (hfree : Free p) :
    Tracks strict shard (s.turn c p []) stageOf :=
  h.free (Frame.refl s c "") Concerns.nil nofun rfl hfree

theorem Tracks.refuse (h : Tracks strict shard s stageOf) (id : String) {method : Method}
    {message : String}
    (hmethod : ∀ id', about id' (.replied c method (.error message)) = decide (id = id')) :
    Tracks strict shard (s.reply c method (.error message)) stageOf := by
  refine h.free (Frame.refl s c id) (Concerns.self hmethod) ?_ rfl ⟨rfl, rfl, rfl⟩
  intro e he _
  rw [List.mem_singleton.mp he]
  exact .refused

/-- An answer about no session. -/
theorem Tracks.inform (h : Tracks strict shard s stageOf) {method : Method} {reply : Reply}
    (hmethod : ∀ id', about id' (.replied c method reply) = false) :
    Tracks strict shard (s.reply c method reply) stageOf := by
  refine h.free (Frame.refl s c "") (Concerns.one ?_) ?_ rfl ⟨rfl, rfl, rfl⟩
  · intro id' habout
    rw [hmethod id'] at habout
    cases habout
  · intro e he habout
    rw [List.mem_singleton.mp he, hmethod] at habout
    cases habout

theorem tracks_begin {mySqlFamily : Bool} {failure : Option String}
    (hstep : step shard s (.begin c mySqlFamily failure) = some s')
    (h : Tracks strict shard s stageOf) : ∃ stageOf', Tracks strict shard s' stageOf' := by
  unfold step at hstep
  dsimp only at hstep
  split at hstep
  case h_2 => cases hstep
  case h_1 =>
    split at hstep
    case h_1 e =>
      cases hstep
      exact ⟨stageOf, h.inform fun _ => rfl⟩
    case h_2 =>
      cases hstep
      exact ⟨stageOf, h.aside ⟨rfl, rfl, rfl⟩⟩

theorem tracks_register {now : Nat} (hstep : step shard s (.register c id now) = some s')
    (h : Tracks strict shard s stageOf) : ∃ stageOf', Tracks strict shard s' stageOf' := by
  unfold step at hstep
  dsimp only at hstep
  split at hstep
  case h_2 => cases hstep
  case h_1 mySqlFamily _ =>
    split at hstep
    case isFalse => cases hstep
    case isTrue hboth =>
      cases hstep
      exact h.register _ hboth.1

theorem tracks_get {sql : String} (hstep : step shard s (.get c id sql) = some s')
    (h : Tracks strict shard s stageOf) : ∃ stageOf', Tracks strict shard s' stageOf' := by
  unfold step at hstep
  dsimp only at hstep
  split at hstep
  case h_2 => cases hstep
  case h_1 =>
    split at hstep
    case h_1 =>
      cases hstep
      exact ⟨stageOf, h.refuse id fun _ => rfl⟩
    case h_2 session hsome =>
      cases hstep
      have hlive : stageOf id = .live := (h.present id).mp (by rw [hsome]; rfl)
      exact ⟨stageOf, h.holds (Frame.hold s c _ id) Concerns.nil nofun hlive rfl
        (mem_hold s c _) rfl rfl rfl⟩

theorem tracks_acquire (hstep : step shard s (.acquire c) = some s')
    (h : Tracks strict shard s stageOf) : ∃ stageOf', Tracks strict shard s' stageOf' := by
  unfold step at hstep
  dsimp only at hstep
  split at hstep
  case h_2 => cases hstep
  case h_1 id sql hcall =>
    have hentry : entryOf (s.calls c) = some id := by rw [hcall]; rfl
    split at hstep
    case h_2 => cases hstep
    case h_1 session hsome =>
      split at hstep
      case isFalse => cases hstep
      case isTrue =>
        cases hstep
        refine ⟨stageOf, h.holds (Frame.setSession s c id _) (Concerns.self fun _ => rfl) ?_
          (h.live_of_entry hentry) ?_ (h.guarded c id hentry) rfl rfl rfl⟩
        · intro e he
          rw [List.mem_singleton.mp he]
          exact .executed
        · rw [isSome_setSession, hsome]
          rfl

theorem tracks_complete {failure : Option String} {commits : Bool}
    (hsound : strict → commits = false)
    (hstep : step shard s (.complete c failure commits) = some s')
    (h : Tracks strict shard s stageOf) : ∃ stageOf', Tracks strict shard s' stageOf' := by
  unfold step at hstep
  dsimp only at hstep
  split at hstep
  case h_2 => cases hstep
  case h_1 id hcall =>
    have hentry : entryOf (s.calls c) = some id := by rw [hcall]; rfl
    have hlive := h.live_of_entry hentry
    split at hstep
    case h_1 message =>
      cases hstep
      refine ⟨stageOf, h.free (Frame.leave s c id)
        ((concerns_commitIf _).append (Concerns.self fun _ => rfl)) ?_ (sessions_leave s c id)
        ⟨rfl, rfl, rfl⟩⟩
      intro e he _
      rcases List.mem_append.mp he with hcommit | hreply
      · rw [hlive]
        exact next_of_commitIf hsound hcommit
      · rw [List.mem_singleton.mp hreply]
        exact .refused
    case h_2 =>
      cases hstep
      have hconcerns : Concerns id (threadIdProbe c id (s.sessions id)) := by
        intro e he id' habout
        rw [mem_threadIdProbe he] at habout
        exact (of_decide_eq_true habout).symm
      refine ⟨stageOf, h.holds (Frame.refl s c id) ((concerns_commitIf _).append hconcerns) ?_
        hlive rfl (h.guarded c id hentry) rfl rfl rfl⟩
      intro e he
      rcases List.mem_append.mp he with hcommit | hthread
      · exact next_of_commitIf hsound hcommit
      · rw [mem_threadIdProbe hthread]
        exact .executed

theorem tracks_refresh {now : Nat} (hstep : step shard s (.refresh c now) = some s')
    (h : Tracks strict shard s stageOf) : ∃ stageOf', Tracks strict shard s' stageOf' := by
  unfold step at hstep
  dsimp only at hstep
  split at hstep
  case h_2 => cases hstep
  case h_1 id hcall =>
    have hentry : entryOf (s.calls c) = some id := by rw [hcall]; rfl
    cases hstep
    refine ⟨stageOf, h.free ((Frame.setSession s c id _).trans (Frame.leave _ c id))
      (Concerns.self fun _ => rfl) ?_ ?_ ⟨rfl, rfl, rfl⟩⟩
    · intro e he _
      rw [List.mem_singleton.mp he, h.live_of_entry hentry]
      exact .answered
    · rw [sessions_leave, isSome_setSession, Option.isSome_map]

theorem tracks_remove {control : Control} (hstep : step shard s (.remove c id control) = some s')
    (h : Tracks strict shard s stageOf) : ∃ stageOf', Tracks strict shard s' stageOf' := by
  unfold step at hstep
  dsimp only at hstep
  split at hstep
  case h_2 => cases hstep
  case h_1 =>
    split at hstep
    case isFalse => cases hstep
    case isTrue hreaders =>
      split at hstep
      case h_1 =>
        cases hstep
        exact ⟨stageOf, h.refuse id fun _ => rfl⟩
      case h_2 session hsome =>
        cases hstep
        exact h.take hreaders (by rw [hsome]; rfl) rfl
          (fun id' hid' => (Option.some.inj hid').symm) rfl

theorem tracks_send (hstep : step shard s (.send c) = some s')
    (h : Tracks strict shard s stageOf) : ∃ stageOf', Tracks strict shard s' stageOf' := by
  unfold step at hstep
  dsimp only at hstep
  split at hstep
  case h_3 => cases hstep
  case h_1 id session control hcall =>
    split at hstep
    case isFalse => cases hstep
    case isTrue =>
      cases hstep
      exact h.send (by rw [hcall]; rfl) rfl rfl rfl
  case h_2 now ttl id victims reclaimed hcall =>
    cases hstep
    exact h.send (by rw [hcall]; rfl) rfl rfl rfl

theorem tracks_answer {outcome : Outcome}
    (hsound : strict → ∀ id, s.calls c = .sent id .commit → outcome = .acknowledged)
    (hstep : step shard s (.answer c outcome) = some s') (h : Tracks strict shard s stageOf) :
    ∃ stageOf', Tracks strict shard s' stageOf' := by
  unfold step at hstep
  dsimp only at hstep
  split at hstep
  case h_3 => cases hstep
  case h_1 id control hcall =>
    cases hstep
    refine h.close id control (by rw [hcall]; rfl)
      ((concerns_outcome control outcome).append (Concerns.self fun _ => rfl)) ?_ ⟨rfl, rfl, rfl⟩
    intro a
    obtain ⟨b, hlife, hack⟩ := life_outcome strict c id control outcome a
    refine ⟨.over c control, ?_, nofun⟩
    rw [List.filter_append]
    apply hlife.append
    rw [List.filter_cons_of_pos (by simp [about])]
    apply Life.one
    apply Next.closed
    intro hstrict hcommit
    exact hack (hsound hstrict id (by rw [hcall, hcommit]))
  case h_2 now ttl id victims reclaimed hcall =>
    cases hstep
    refine h.close id .rollback (by rw [hcall]; rfl) (concerns_outcome _ outcome) ?_
      ⟨rfl, rfl, rfl⟩
    intro a
    obtain ⟨b, hlife, -⟩ := life_outcome strict c id .rollback outcome a
    exact ⟨_, hlife, nofun⟩

theorem tracks_scan (hstep : step shard s (.scan c id) = some s')
    (h : Tracks strict shard s stageOf) : ∃ stageOf', Tracks strict shard s' stageOf' := by
  unfold step at hstep
  dsimp only at hstep
  split at hstep
  case h_2 => cases hstep
  case h_1 now ttl victims _ =>
    split at hstep
    case isFalse => cases hstep
    case isTrue hsome =>
      cases hstep
      exact ⟨stageOf, h.holds (Frame.hold s c _ id) Concerns.nil nofun ((h.present id).mp hsome)
        rfl (mem_hold s c _) rfl rfl rfl⟩

theorem tracks_reclaim (hstep : step shard s (.reclaim c) = some s')
    (h : Tracks strict shard s stageOf) : ∃ stageOf', Tracks strict shard s' stageOf' := by
  unfold step at hstep
  dsimp only at hstep
  split at hstep
  case h_3 => cases hstep
  case h_1 now ttl reclaimed _ =>
    cases hstep
    exact ⟨stageOf, h.inform fun _ => rfl⟩
  case h_2 now ttl id victims reclaimed _ =>
    split at hstep
    case isFalse => cases hstep
    case isTrue hreaders =>
      split at hstep
      case isFalse =>
        cases hstep
        exact ⟨stageOf, h.aside ⟨rfl, rfl, rfl⟩⟩
      case isTrue hexpired =>
        cases hstep
        have hsome : (s.sessions id).isSome = true := by
          cases hsession : s.sessions id with
          | none =>
              rw [hsession] at hexpired
              cases hexpired
          | some session => rfl
        exact h.take hreaders hsome rfl (fun id' hid' => (Option.some.inj hid').symm) rfl

/-- A dropped call gives back its guards; what it took out of the map is lost. -/
theorem tracks_drop {commits : Bool}
    (hsound : strict → ∀ id, s.calls c = .running id → commits = false)
    (hstep : step shard s (.drop c commits) = some s') (h : Tracks strict shard s stageOf) :
    ∃ stageOf', Tracks strict shard s' stageOf' := by
  have hleave : ∀ id, Tracks strict shard ((s.leave shard c id).turn c .returned []) stageOf :=
    fun id => h.free (Frame.leave s c id) Concerns.nil nofun (sessions_leave s c id)
      ⟨rfl, rfl, rfl⟩
  unfold step at hstep
  dsimp only at hstep
  split at hstep
  case h_1 => cases hstep
  case h_2 => cases hstep
  case h_3 id sql _ =>
    cases hstep
    exact ⟨stageOf, hleave id⟩
  case h_4 id _ =>
    cases hstep
    exact ⟨stageOf, hleave id⟩
  case h_5 id hcall =>
    cases hstep
    have hentry : entryOf (s.calls c) = some id := by rw [hcall]; rfl
    refine ⟨stageOf, h.free (Frame.leave s c id) (concerns_commitIf _) ?_ (sessions_leave s c id)
      ⟨rfl, rfl, rfl⟩⟩
    intro e he _
    rw [h.live_of_entry hentry]
    exact next_of_commitIf (fun hstrict => hsound hstrict id hcall) he
  case h_6 id control hcall =>
    cases hstep
    refine h.close id control (by rw [hcall]; rfl) (concerns_commitIf _) ?_ ⟨rfl, rfl, rfl⟩
    intro a
    refine ⟨.closing c control a, Life.idle ?_, nofun⟩
    intro e he
    obtain ⟨rfl, -, hcontrol⟩ := mem_commitIf (List.mem_filter.mp he).1
    rw [hcontrol]
    exact .committed
  case h_7 now ttl id victims _ =>
    cases hstep
    exact ⟨stageOf, h.free (Frame.release s c _ id) Concerns.nil nofun rfl ⟨rfl, rfl, rfl⟩⟩
  case h_8 =>
    cases hstep
    exact ⟨stageOf, h.aside ⟨rfl, rfl, rfl⟩⟩

theorem tracks_step {a : Action} (hsound : strict → Sound s a)
    (hstep : step shard s a = some s') (h : Tracks strict shard s stageOf) :
    ∃ stageOf', Tracks strict shard s' stageOf' := by
  cases a with
  | begin c mySqlFamily failure => exact tracks_begin hstep h
  | register c id now => exact tracks_register hstep h
  | get c id sql => exact tracks_get hstep h
  | acquire c => exact tracks_acquire hstep h
  | complete c failure commits => exact tracks_complete hsound hstep h
  | refresh c now => exact tracks_refresh hstep h
  | remove c id control => exact tracks_remove hstep h
  | send c => exact tracks_send hstep h
  | answer c outcome => exact tracks_answer hsound hstep h
  | scan c id => exact tracks_scan hstep h
  | reclaim c => exact tracks_reclaim hstep h
  | drop c commits => exact tracks_drop hsound hstep h
  | sweep c now ttl =>
      unfold step at hstep
      dsimp only at hstep
      split at hstep
      case h_2 => cases hstep
      case h_1 =>
        cases hstep
        exact ⟨stageOf, h.aside ⟨rfl, rfl, rfl⟩⟩
  | read c =>
      unfold step at hstep
      dsimp only at hstep
      split at hstep
      case h_2 => cases hstep
      case h_1 now ttl id victims _ =>
        cases hstep
        exact ⟨stageOf, h.free (Frame.release s c _ id) Concerns.nil nofun rfl ⟨rfl, rfl, rfl⟩⟩
  | endScan c =>
      unfold step at hstep
      dsimp only at hstep
      split at hstep
      case h_2 => cases hstep
      case h_1 now ttl victims _ =>
        cases hstep
        exact ⟨stageOf, h.aside ⟨rfl, rfl, rfl⟩⟩

end Steps

/-- The invariant holds in every run, the strict one when every step is sound. -/
theorem tracks_run {acts : List Action}
    (h : Run (step shard) (fun s a => strict → Sound s a) State.init acts s) :
    ∃ stageOf, Tracks strict shard s stageOf := by
  apply h.invariant (I := fun s => ∃ stageOf, Tracks strict shard s stageOf)
  · intro t a u hsound hstep htracks
    obtain ⟨stageOf, htracks⟩ := htracks
    exact tracks_step hsound hstep htracks
  · exact ⟨_, tracks_init strict shard⟩

end Dbmaster.Txn.Invariant
