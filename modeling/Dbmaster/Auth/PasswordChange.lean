import Dbmaster.Auth.Steps
/-!
# Sessions older than a password

`update_me` sets a new password in one statement and revokes the refresh tokens of the
user in the next.  A call that read the tables before the second may still store a token
after it.
-/

namespace Dbmaster.Auth

open Dbmaster.Lib.Transition

/-! ## What should hold -/

/-- After the end of the `update_me` that set a password, no token that descends from a
sign-in with an older one is exchanged. -/
def NoneOlder (earlier later : Event) : Prop :=
  ∀ c user version call jti session, earlier = .updateEnded c user version →
    later = .exchanged call jti session → session.user = user → version ≤ session.version

def EndsOlderSessions (passwords : Passwords) (allowed : State → Action → Prop) : Prop :=
  ∀ acts s, Run (step passwords) allowed .initial acts s → s.history.Pairwise NoneOlder

/-- The revoking UPDATE of `update_me` is executed, and a token is stored only if no such
UPDATE, for a password newer than its sign-in, ran since the call read the tables. -/
def RevokesInTime (s : State) : Action → Prop
  | .call _ => True
  | .drop i => ∀ sub now version, s.calls[i]? ≠ some (.revoking sub now version)
  | .statement i answer =>
      (∀ sub now version, s.calls[i]? = some (.revoking sub now version) → answer.ok = true) ∧
        ∀ grant session since, s.calls[i]? = some (.storing grant session since) →
          answer.ok = true → ∀ c version,
            .revokedAll c session.user version ∈ s.history.drop since →
              version ≤ session.version

/-! ## The invariant -/

/-- None of the events revoked the tokens of the session. -/
def Spared (history : List Event) (session : Session) : Prop :=
  ∀ c version, .revokedAll c session.user version ∈ history → version ≤ session.version

structure Sessions (s : State) : Prop where
  owner : ∀ row ∈ s.tokens, row.userId = row.session.user
  live : ∀ row ∈ s.tokens, row.Live → Spared s.history row.session
  rotating : ∀ (k : Nat) claims row now since,
    s.calls[k]? = some (.rotating claims row now since) →
      since ≤ s.history.length ∧ Spared (s.history.take since) row.session
  storing : ∀ (k : Nat) grant session since,
    s.calls[k]? = some (.storing grant session since) →
      grant.sub = session.user ∧ since ≤ s.history.length ∧
        Spared (s.history.take since) session
  set : ∀ (k : Nat) sub now version, s.calls[k]? = some (.revoking sub now version) →
    version ≤ versionOf s.history sub
  version : ∀ c user version, .revokedAll c user version ∈ s.history →
    version ≤ versionOf s.history user
  fetching : ∀ (k : Nat) sub version, s.calls[k]? = some (.fetching sub (some version)) →
    ∃ c, .revokedAll c sub version ∈ s.history
  ended : ∀ c user version, .updateEnded c user version ∈ s.history →
    ∃ c', .revokedAll c' user version ∈ s.history
  inOrder : s.history.Pairwise NoneOlder

theorem versionOf_append (history events : List Event) (user : String) :
    versionOf history user ≤ versionOf (history ++ events) user := by
  rw [versionOf, versionOf, List.countP_append]
  omega

theorem versionOf_set (history : List Event) (user : String) :
    versionOf (history ++ [.passwordSet user]) user = versionOf history user + 1 := by
  have hone : Event.setsPassword user (.passwordSet user) = true := decide_eq_true rfl
  rw [versionOf, versionOf, List.countP_append, List.countP_singleton, if_pos hone]

theorem Sessions.spared {s : State} (h : Sessions s) {i : Nat} {answer : Answer} {grant : Grant}
    {session : Session} {since : Nat} (hallowed : RevokesInTime s (.statement i answer))
    (hi : s.calls[i]? = some (.storing grant session since)) (hok : answer.ok = true) :
    Spared s.history session := by
  intro c version hmem
  rw [← List.take_append_drop since s.history] at hmem
  rcases List.mem_append.mp hmem with hbefore | hsince
  · exact (h.storing i grant session since hi).2.2 c version hbefore
  · exact hallowed.2 grant session since hi hok c version hsince

theorem noneOlder_of_not_exchange (earlier later : Event) (h : later.isExchange = false) :
    NoneOlder earlier later := by
  rintro c user version call jti session - rfl
  cases h

/-! ## One step -/

section Step

variable {s s' : State} {a : Action}

theorem Sessions.owner_step (heffect : Effect s a s') (h : Sessions s) :
    ∀ row ∈ s'.tokens, row.userId = row.session.user := by
  intro row hrow
  rcases row_of_effect heffect hrow with
    ⟨old, hold, hbecomes, -⟩ | ⟨i, answer, grant, session, since, -, -, hi, huser, hsession⟩
  · rw [hbecomes.userId, hbecomes.session]
    exact h.owner old hold
  · rw [huser, hsession]
    exact (h.storing i grant session since hi).1

/-- A live row was there before, and its session was spared, or its call has just stored
it; a revocation in this step would have found it. -/
theorem Sessions.live_step (heffect : Effect s a s') (hallowed : RevokesInTime s a)
    (h : Sessions s) : ∀ row ∈ s'.tokens, row.Live → Spared s'.history row.session := by
  intro row hrow hlive c version hmem
  obtain ⟨events, hhistory, hhappens, -⟩ := history_of_effect heffect
  rcases List.mem_append.mp (hhistory ▸ hmem) with hold | hnew
  · rcases row_of_effect heffect hrow with
      ⟨old, hin, -, hkept⟩ | ⟨i, answer, grant, session, since, rfl, hok, hi, -, rfl⟩
    · obtain rfl := hkept hlive
      exact h.live row hin hlive c version hold
    · exact h.spared hallowed hi hok c version hold
  · generalize heq : Event.revokedAll c row.session.user version = e at hnew
    have hevent := hhappens e hnew
    cases hevent with
    | revokedAll i sub now _ hi hall =>
        simp only [Event.revokedAll.injEq] at heq
        exact absurd hlive (hall row hrow ((h.owner_step heffect row hrow).trans heq.2.1))
    | _ => cases heq

theorem take_history (heffect : Effect s a s') {since : Nat} (hsince : since ≤ s.history.length) :
    since ≤ s'.history.length ∧ s'.history.take since = s.history.take since := by
  obtain ⟨events, hhistory, -⟩ := history_of_effect heffect
  rw [hhistory, List.length_append, List.take_append_of_le_length hsince]
  exact ⟨by omega, rfl⟩

theorem Sessions.rotating_step (heffect : Effect s a s') (h : Sessions s) {k : Nat}
    {claims : Claims} {row : RefreshTokenRow} {now : String} {since : Nat}
    (hk : s'.calls[k]? = some (.rotating claims row now since)) :
    since ≤ s'.history.length ∧ Spared (s'.history.take since) row.session := by
  have hbefore : since ≤ s.history.length ∧ Spared (s.history.take since) row.session := by
    rcases phase_of_effect heffect hk with hkept | hentered
    · exact h.rotating k claims row now since hkept
    · cases hentered with
      | plain hplain => cases hplain
      | checked answer _ _ _ hrow _ hlive =>
          refine ⟨le_rfl, ?_⟩
          rw [List.take_length]
          exact h.live row hrow hlive
  obtain ⟨hlength, htake⟩ := take_history heffect hbefore.1
  exact ⟨hlength, htake ▸ hbefore.2⟩

theorem Sessions.storing_step (heffect : Effect s a s') (hkeys : Keys s) (h : Sessions s)
    {k : Nat} {grant : Grant} {session : Session} {since : Nat}
    (hk : s'.calls[k]? = some (.storing grant session since)) :
    grant.sub = session.user ∧ since ≤ s'.history.length ∧
      Spared (s'.history.take since) session := by
  have hbefore : grant.sub = session.user ∧ since ≤ s.history.length ∧
      Spared (s.history.take since) session := by
    rcases phase_of_effect heffect hk with hkept | hentered
    · exact h.storing k grant session since hkept
    · cases hentered with
      | plain hplain => cases hplain
      | signedIn answer old user users _ _ =>
          refine ⟨rfl, le_rfl, ?_⟩
          rw [List.take_length]
          exact fun c version hmem => h.version c user.id version hmem
      | rotated answer claims row now _ hrotating _ =>
          obtain ⟨r, hr, -, hsub, -, hsession⟩ := hkeys.rotating k claims row now since hrotating
          refine ⟨?_, h.rotating k claims row now since hrotating⟩
          rw [← hsession, ← h.owner r hr, hsub]
          rfl
  obtain ⟨hlength, htake⟩ := take_history heffect hbefore.2.1
  exact ⟨hbefore.1, hlength, htake ▸ hbefore.2.2⟩

/-- An `update_me` that has set a password ends after its revoking UPDATE only. -/
theorem Sessions.ended_step (heffect : Effect s a s') (hallowed : RevokesInTime s a)
    (h : Sessions s) {c : Nat} {user : String} {version : Nat}
    (hmem : .updateEnded c user version ∈ s'.history) :
    ∃ c', .revokedAll c' user version ∈ s.history := by
  obtain ⟨events, hhistory, hhappens, -⟩ := history_of_effect heffect
  rcases List.mem_append.mp (hhistory ▸ hmem) with hold | hnew
  · exact h.ended c user version hold
  · have hevent := hhappens _ hnew
    cases hevent with
    | skipped _ _ now _ hi ha =>
        rcases ha with rfl | ⟨answer, rfl, hfailed⟩
        · exact absurd hi (hallowed user now version)
        · rw [hallowed.1 user now version hi] at hfailed
          cases hfailed
    | updateEnded _ _ _ hi => exact h.fetching c user version hi

theorem Sessions.inOrder_step (heffect : Effect s a s') (hallowed : RevokesInTime s a)
    (h : Sessions s) : s'.history.Pairwise NoneOlder := by
  obtain ⟨events, hhistory, hhappens, halone⟩ := history_of_effect heffect
  rw [hhistory]
  refine List.pairwise_append.mpr
    ⟨h.inOrder, pairwise_events noneOlder_of_not_exchange halone, ?_⟩
  rintro earlier hearlier later hlater c user version call jti session rfl rfl rfl
  have hevent := hhappens _ hlater
  cases hevent with
  | exchanged _ answer claims _ since hi hok _ =>
      obtain ⟨c', hc'⟩ := h.ended c session.user version hearlier
      exact h.spared hallowed hi hok c' version hc'

theorem sessions_step (heffect : Effect s a s') (hallowed : RevokesInTime s a)
    (hkeys : Keys s) (h : Sessions s) : Sessions s' := by
  obtain ⟨events, hhistory, hhappens, -⟩ := history_of_effect heffect
  have hkeeps : ∀ e ∈ s.history, e ∈ s'.history :=
    fun e he => hhistory ▸ List.mem_append_left _ he
  have hversion : ∀ user, versionOf s.history user ≤ versionOf s'.history user :=
    fun user => hhistory ▸ versionOf_append s.history events user
  refine ⟨h.owner_step heffect, h.live_step heffect hallowed,
    fun k claims row now since hk => h.rotating_step heffect hk,
    fun k grant session since hk => h.storing_step heffect hkeys hk, ?_, ?_, ?_, ?_,
    h.inOrder_step heffect hallowed⟩
  · intro k sub now version hk
    rcases phase_of_effect heffect hk with hkept | hentered
    · exact (h.set k sub now version hkept).trans (hversion sub)
    · cases hentered with
      | plain hplain => cases hplain
      | passwordSet answer _ password _ hash _ => exact le_of_eq (versionOf_set s.history sub).symm
  · intro c user version hmem
    rcases List.mem_append.mp (hhistory ▸ hmem) with hold | hnew
    · exact (h.version c user version hold).trans (hversion user)
    · have hevent := hhappens _ hnew
      cases hevent with
      | revokedAll _ _ now _ hi _ => exact (h.set c user now version hi).trans (hversion user)
  · intro k sub version hk
    rcases phase_of_effect heffect hk with hkept | hentered
    · obtain ⟨c, hc⟩ := h.fetching k sub version hkept
      exact ⟨c, hkeeps _ hc⟩
    · cases hentered with
      | plain hplain => cases hplain
      | revokedAll answer _ now _ _ =>
          exact ⟨k, List.mem_append_right _ (List.mem_append_right _ List.mem_cons_self)⟩
  · intro c user version hmem
    obtain ⟨c', hc'⟩ := h.ended_step heffect hallowed hmem
    exact ⟨c', hkeeps _ hc'⟩

end Step

/-! ## Every run -/

theorem sessions_run {passwords : Passwords} {acts : List Action} {s : State}
    (hrun : Run (step passwords) RevokesInTime .initial acts s) : Keys s ∧ Sessions s := by
  refine hrun.invariant (I := fun s => Keys s ∧ Sessions s) ?_
    ⟨keys_initial, nofun, nofun, nofun, nofun, nofun, nofun, nofun, nofun, .nil⟩
  intro t a t' hallowed hstep ⟨hkeys, h⟩
  have heffect := effect_of_step hstep
  exact ⟨keys_step heffect hkeys, sessions_step heffect hallowed hkeys h⟩

theorem endsOlderSessions_of_revokesInTime (passwords : Passwords) :
    EndsOlderSessions passwords RevokesInTime :=
  fun _ _ hrun => (sessions_run hrun).2.inOrder

/-- A refresh has revoked its token when the password is changed, and stores the next one
after `update_me` has answered. -/
def refreshAcrossChange : List Action :=
  [.call (.register "ann@example.com" "old password" "Ann"),
    .statement 0 (sampleAnswer "" ""), .statement 0 (sampleAnswer "ann" ""),
    .statement 0 (sampleAnswer "t0" "j0"),
    .call (.refreshToken ⟨"ann", "j0"⟩),
    .statement 1 (sampleAnswer "" ""), .statement 1 (sampleAnswer "" ""),
    .call (.updateMe "ann" none (some "new password") "2026-01-02T00:00:00+00:00"),
    .statement 2 (sampleAnswer "" ""), .statement 2 (sampleAnswer "" ""),
    .statement 2 (sampleAnswer "" ""),
    .statement 1 (sampleAnswer "t1" "j1")]

theorem refreshAcrossChange_exchanges : ¬ EndsOlderSessions plainPasswords anyStep := by
  intro hends
  have hrun : ∃ s, exec (step plainPasswords) .initial refreshAcrossChange = some s ∧
      s.history = [.revoked 1 "j0", .passwordSet "ann", .revokedAll 2 "ann" 1,
        .updateEnded 2 "ann" 1, .exchanged 1 "j0" ⟨"ann", 0, 0⟩] := ⟨_, rfl, rfl⟩
  obtain ⟨s, hexec, hhistory⟩ := hrun
  have horder := hends _ s (run_of_exec hexec)
  rw [hhistory] at horder
  have hlast := List.rel_of_pairwise_cons horder.of_cons.of_cons.of_cons List.mem_cons_self
  exact absurd (hlast 2 "ann" 1 1 "j0" _ rfl rfl rfl) (by decide)

end Dbmaster.Auth
