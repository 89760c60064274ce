import Dbmaster.Auth.Steps
/-!
# Rotation of refresh tokens

A refresh token is to be exchanged once.  Between the check of `revoked_at` and the
UPDATE of `refresh_token` the token may be revoked by another call; as long as it is not,
the token and its successors stay one chain with one live end.
-/

namespace Dbmaster.Auth

open Dbmaster.Lib.Transition

/-! ## What should hold -/

/-- An exchange comes after no exchange of its token, and after no revocation of it but the
one the exchange itself makes. -/
def InOrder (earlier later : Event) : Prop :=
  ∀ call jti session, later = .exchanged call jti session →
    (∀ c session', earlier ≠ .exchanged c jti session') ∧
      ∀ c, earlier = .revoked c jti → c = call

/-- In the states that the allowed steps lead to: every new pair is the exchange of a
token, the exchanges are in order, and a sign-in has one live token at most. -/
structure SingleUse (passwords : Passwords) (allowed : State → Action → Prop) : Prop where
  told : ∀ acts s, Run (step passwords) allowed .initial acts s →
    ∀ (k : Nat) refresh, s.calls[k]? = some (.ended (some (.ok (.tokenPair refresh)))) →
      ∃ jti session, .exchanged k jti session ∈ s.history
  inOrder : ∀ acts s, Run (step passwords) allowed .initial acts s →
    s.history.Pairwise InOrder
  oneLive : ∀ acts s, Run (step passwords) allowed .initial acts s →
    ∀ row ∈ s.tokens, ∀ row' ∈ s.tokens, row.Live → row'.Live →
      row.session.login = row'.session.login → row = row'

/-- The revoking UPDATE of `refresh_token` finds the token live. -/
def RotatesLive (s : State) : Action → Prop
  | .statement i answer => ∀ claims row now since,
      s.calls[i]? = some (.rotating claims row now since) → answer.ok = true →
        ∃ r ∈ s.tokens, r.id = row.id ∧ r.Live
  | _ => True

/-! ## Every pair is an exchange -/

def Told (s : State) : Prop :=
  ∀ (k : Nat) refresh, s.calls[k]? = some (.ended (some (.ok (.tokenPair refresh)))) →
    ∃ jti session, .exchanged k jti session ∈ s.history

theorem passwordPhase_ne_ended (sub : String) (password : Option String) (now : String)
    (reply : Option (Except AppError Reply)) : passwordPhase sub password now ≠ .ended reply := by
  cases password <;> exact nofun

theorem start_ne_ended (request : Request) (reply : Option (Except AppError Reply)) :
    request.start ≠ .ended reply := by
  cases request with
  | updateMe sub displayName password now =>
      cases displayName with
      | none => exact passwordPhase_ne_ended sub password now reply
      | some name => exact nofun
  | _ => exact nofun

theorem Moves.ne_ended {old phase : Phase} (h : Moves old phase)
    (reply : Option (Except AppError Reply)) : phase ≠ .ended reply := by
  cases h with
  | counted => exact nofun
  | named sub name password now => exact passwordPhase_ne_ended sub password now reply

theorem told_step {s s' : State} {a : Action} (heffect : Effect s a s') (h : Told s) :
    Told s' := by
  intro k refresh hk
  have hkept : s.calls[k]? = some (.ended (some (.ok (.tokenPair refresh)))) →
      ∃ jti session, .exchanged k jti session ∈ s'.history := by
    intro hbefore
    obtain ⟨jti, session, hmem⟩ := h k refresh hbefore
    obtain ⟨events, hhistory, -⟩ := history_of_effect heffect
    exact ⟨jti, session, hhistory ▸ List.mem_append_left _ hmem⟩
  cases heffect with
  | called request _ =>
      rcases of_getElem?_concat hk with ⟨-, hnew⟩ | hbefore
      · exact absurd hnew.symm (start_ne_ended request _)
      · exact hkept hbefore
  | left i answer old reply hi hpair _ =>
      rcases of_getElem?_set hk with ⟨rfl, hnew⟩ | ⟨-, hbefore⟩
      · simp only [Phase.ended.injEq, Option.some.injEq] at hnew
        exact absurd hnew.symm (hpair refresh)
      · exact hkept hbefore
  | moved i answer old phase users hi hmoves =>
      rcases of_getElem?_set hk with ⟨rfl, hnew⟩ | ⟨-, hbefore⟩
      · exact absurd hnew.symm (hmoves.ne_ended _)
      · exact hkept hbefore
  | stored i answer grant session since jti hi _ _ =>
      rcases of_getElem?_set hk with ⟨rfl, hnew⟩ | ⟨-, hbefore⟩
      · cases grant with
        | signIn user => cases hnew
        | rotation claims =>
            exact ⟨claims.jti, session, List.mem_append_right _ List.mem_cons_self⟩
      · exact hkept hbefore
  | _ =>
      rcases of_getElem?_set hk with ⟨rfl, hnew⟩ | ⟨-, hbefore⟩
      · cases hnew
      · exact hkept hbefore

/-! ## One live end per chain -/

/-- The call is about to store a token of the sign-in. -/
def Owes (calls : List Phase) (k login : Nat) : Prop :=
  ∃ grant session since, calls[k]? = some (.storing grant session since) ∧ session.login = login

/-- The sign-in has come to its token. -/
def Begun (calls : List Phase) (login : Nat) : Prop :=
  ∃ phase, calls[login]? = some phase ∧ ¬ phase.SigningIn

theorem owes_set {calls : List Phase} {i k login : Nat} {new : Phase}
    (h : Owes (calls.set i new) k login) :
    (k = i ∧ ∃ grant session since, new = .storing grant session since ∧ session.login = login) ∨
      (k ≠ i ∧ Owes calls k login) := by
  obtain ⟨grant, session, since, hk, hlogin⟩ := h
  rcases of_getElem?_set hk with ⟨rfl, hnew⟩ | ⟨hne, hbefore⟩
  · exact Or.inl ⟨rfl, grant, session, since, hnew.symm, hlogin⟩
  · exact Or.inr ⟨hne, grant, session, since, hbefore, hlogin⟩

theorem begun_set {calls : List Phase} {i login : Nat} {old new : Phase}
    (hi : calls[i]? = some old) (hnew : new.SigningIn → old.SigningIn)
    (h : Begun calls login) : Begun (calls.set i new) login := by
  obtain ⟨phase, hphase, hnot⟩ := h
  by_cases heq : i = login
  · subst heq
    rw [hi, Option.some.injEq] at hphase
    refine ⟨new, ?_, fun hsigning => hnot (hphase ▸ hnew hsigning)⟩
    rw [List.getElem?_set_self (List.getElem?_eq_some_iff.mp hi).1]
  · exact ⟨phase, by rw [List.getElem?_set_ne heq, hphase], hnot⟩

theorem Moves.signingIn {old phase : Phase} (h : Moves old phase) :
    phase.SigningIn → old.SigningIn := by
  cases h with
  | counted => exact fun _ => trivial
  | named sub name password now => cases password <;> exact nofun

theorem begun_of_effect {s s' : State} {a : Action} (heffect : Effect s a s') {login : Nat}
    (h : Begun s.calls login) : Begun s'.calls login := by
  cases heffect with
  | called request _ =>
      obtain ⟨phase, hphase, hnot⟩ := h
      refine ⟨phase, ?_, hnot⟩
      show (s.calls ++ [request.start])[login]? = some phase
      rw [List.getElem?_append_left (List.getElem?_eq_some_iff.mp hphase).1, hphase]
  | moved i answer old phase users hi hmoves => exact begun_set hi hmoves.signingIn h
  | dropped i old hi => exact begun_set hi nofun h
  | left i answer old reply hi _ _ => exact begun_set hi nofun h
  | signedIn i answer old user users hi _ => exact begun_set hi nofun h
  | passwordSet i answer sub password now hash hi => exact begun_set hi nofun h
  | revokedAll i answer sub now version hi => exact begun_set hi nofun h
  | checked i answer claims row hi _ _ _ => exact begun_set hi nofun h
  | rotated i answer claims row now since hi _ => exact begun_set hi nofun h
  | stored i answer grant session since jti hi _ _ => exact begun_set hi nofun h

/-- A sign-in has a live token, or a call that is about to store its next one, or
neither. -/
structure Chains (s : State) : Prop where
  one : ∀ row ∈ s.tokens, ∀ row' ∈ s.tokens, row.Live → row'.Live →
    row.session.login = row'.session.login → row = row'
  notBoth : ∀ row ∈ s.tokens, row.Live → ∀ k, ¬ Owes s.calls k row.session.login
  oneOwes : ∀ k k' login, Owes s.calls k login → Owes s.calls k' login → k = k'
  begun : ∀ row ∈ s.tokens, row.Live → Begun s.calls row.session.login
  begunOwes : ∀ k login, Owes s.calls k login → Begun s.calls login

theorem Chains.quiet {s s' : State} (h : Chains s) {a : Action} (heffect : Effect s a s')
    (hlive : ∀ row ∈ s'.tokens, row.Live → row ∈ s.tokens)
    (howes : ∀ k login, Owes s'.calls k login → Owes s.calls k login) : Chains s' where
  one row hrow row' hrow' hl hl' := h.one row (hlive row hrow hl) row' (hlive row' hrow' hl') hl hl'
  notBoth row hrow hl k hk := h.notBoth row (hlive row hrow hl) hl k (howes k _ hk)
  oneOwes k k' login hk hk' := h.oneOwes k k' login (howes k login hk) (howes k' login hk')
  begun row hrow hl := begun_of_effect heffect (h.begun row (hlive row hrow hl) hl)
  begunOwes k login hk := begun_of_effect heffect (h.begunOwes k login (howes k login hk))

theorem owes_of_plain {calls : List Phase} {i : Nat} {new : Phase}
    (hnew : ∀ grant session since, new ≠ .storing grant session since) (k login : Nat)
    (h : Owes (calls.set i new) k login) : Owes calls k login := by
  rcases owes_set h with ⟨-, grant, session, since, heq, -⟩ | ⟨-, hbefore⟩
  · exact absurd heq (hnew grant session since)
  · exact hbefore

theorem Phase.Plain.ne_storing {phase : Phase} (h : phase.Plain) (grant : Grant)
    (session : Session) (since : Nat) : phase ≠ .storing grant session since := by
  rintro rfl
  exact h

theorem Chains.eq_of_owes {s : State} (h : Chains s) {owes : Nat → Nat → Prop} {i new : Nat}
    (howes : ∀ k login, owes k login → (k = i ∧ login = new) ∨ Owes s.calls k login)
    (hnone : ∀ k, ¬ Owes s.calls k new) (k k' login : Nat) (hk : owes k login)
    (hk' : owes k' login) : k = k' := by
  rcases howes k login hk with ⟨rfl, rfl⟩ | hbefore
  · rcases howes k' _ hk' with ⟨rfl, -⟩ | hbefore'
    · rfl
    · exact absurd hbefore' (hnone k')
  · rcases howes k' login hk' with ⟨rfl, rfl⟩ | hbefore'
    · exact absurd hbefore (hnone k)
    · exact h.oneOwes k k' login hbefore hbefore'

theorem Chains.signedIn {s : State} (h : Chains s) {i : Nat} (answer : Answer) {old : Phase}
    {user : User} {users : List User} (hi : s.calls[i]? = some old) (hold : old.SigningIn) :
    Chains { s.signIn i user with users := users } := by
  have hnone : ¬ Begun s.calls i := by
    rintro ⟨phase, hphase, hnot⟩
    rw [hi, Option.some.injEq] at hphase
    exact hnot (hphase ▸ hold)
  have hgrows : ∀ login, Begun s.calls login →
      Begun ({ s.signIn i user with users := users } : State).calls login :=
    fun _ => begun_of_effect (.signedIn i answer old user users hi hold)
  have howes : ∀ k login, Owes ({ s.signIn i user with users := users } : State).calls k login →
      (k = i ∧ login = i) ∨ Owes s.calls k login := by
    intro k login hk
    rcases owes_set hk with ⟨rfl, _, _, _, heq, rfl⟩ | ⟨-, hbefore⟩
    · cases heq
      exact Or.inl ⟨rfl, rfl⟩
    · exact Or.inr hbefore
  refine ⟨h.one, ?_, ?_, fun row hrow hl => hgrows _ (h.begun row hrow hl), ?_⟩
  · intro row hrow hl k hk
    rcases howes k _ hk with ⟨-, hlogin⟩ | hbefore
    · exact hnone (hlogin ▸ h.begun row hrow hl)
    · exact h.notBoth row hrow hl k hbefore
  · exact h.eq_of_owes howes fun k hk => hnone (h.begunOwes k i hk)
  · intro k login hk
    rcases howes k login hk with ⟨rfl, rfl⟩ | hbefore
    · refine ⟨_, List.getElem?_set_self (List.getElem?_eq_some_iff.mp hi).1, ?_⟩
      exact fun hsigning => hsigning
    · exact hgrows login (h.begunOwes k login hbefore)

theorem Chains.rotated {s : State} (h : Chains s) (hkeys : Keys s) {i : Nat} {answer : Answer}
    {claims : Claims} {row : RefreshTokenRow} {now : String} {since : Nat}
    (hi : s.calls[i]? = some (.rotating claims row now since)) (hok : answer.ok = true)
    (hallowed : RotatesLive s (.statement i answer)) : Chains (s.rotate i claims row now since) := by
  obtain ⟨r, hr, hrid, hrlive⟩ := hallowed claims row now since hi hok
  obtain ⟨_, hr', hrid', -, -, hsession⟩ := hkeys.rotating i claims row now since hi
  obtain rfl := hkeys.eq_of_id hr hr' (hrid.trans hrid'.symm)
  have hlive : ∀ other ∈ (s.rotate i claims row now since).tokens, other.Live →
      other ∈ s.tokens ∧ other.id ≠ row.id := by
    intro other hother hl
    obtain ⟨old, hold, -, hkept⟩ := mem_revoke hother
    obtain ⟨rfl, hne⟩ := hkept hl
    exact ⟨hold, of_decide_eq_false hne⟩
  have hnone : ∀ other ∈ (s.rotate i claims row now since).tokens, other.Live →
      other.session.login ≠ row.session.login := by
    intro other hother hl heq
    obtain ⟨hin, hne⟩ := hlive other hother hl
    rw [h.one other hin r hr hl hrlive (by rw [heq, hsession])] at hne
    exact hne hrid
  have hgrows : ∀ login, Begun s.calls login →
      Begun (s.rotate i claims row now since).calls login :=
    fun _ => begun_of_effect (.rotated i answer claims row now since hi hok)
  have howes : ∀ k login, Owes (s.rotate i claims row now since).calls k login →
      (k = i ∧ login = row.session.login) ∨ Owes s.calls k login := by
    intro k login hk
    rcases owes_set hk with ⟨rfl, _, _, _, heq, rfl⟩ | ⟨-, hbefore⟩
    · cases heq
      exact Or.inl ⟨rfl, rfl⟩
    · exact Or.inr hbefore
  have howesNone : ∀ k, ¬ Owes s.calls k row.session.login := by
    intro k hk
    rw [← hsession] at hk
    exact h.notBoth r hr hrlive k hk
  refine ⟨?_, ?_, ?_, ?_, ?_⟩
  · intro other hother other' hother' hl hl'
    exact h.one other (hlive other hother hl).1 other' (hlive other' hother' hl').1 hl hl'
  · intro other hother hl k hk
    rcases howes k _ hk with ⟨-, hlogin⟩ | hbefore
    · exact hnone other hother hl hlogin
    · exact h.notBoth other (hlive other hother hl).1 hl k hbefore
  · exact h.eq_of_owes howes howesNone
  · exact fun other hother hl => hgrows _ (h.begun other (hlive other hother hl).1 hl)
  · intro k login hk
    rcases howes k login hk with ⟨-, rfl⟩ | hbefore
    · exact hgrows _ (hsession ▸ h.begun r hr hrlive)
    · exact hgrows login (h.begunOwes k login hbefore)

theorem Chains.stored {s : State} (h : Chains s) {i : Nat} {answer : Answer} {grant : Grant}
    {session : Session} {since : Nat} {jti : String}
    (hi : s.calls[i]? = some (.storing grant session since)) (hok : answer.ok = true)
    (hnew : newToken s.tokens (grant.row session answer.uuid jti) = true) :
    Chains (s.store i grant session answer.uuid jti) := by
  have hhad : Owes s.calls i session.login := ⟨grant, session, since, hi, rfl⟩
  have hgrows : ∀ login, Begun s.calls login →
      Begun (s.store i grant session answer.uuid jti).calls login :=
    fun _ => begun_of_effect (.stored i answer grant session since jti hi hok hnew)
  have hrows : ∀ row ∈ (s.store i grant session answer.uuid jti).tokens,
      row ∈ s.tokens ∨ row = grant.row session answer.uuid jti :=
    fun row hrow => (List.mem_append.mp hrow).imp (fun h => h) List.mem_singleton.mp
  have hbefore : ∀ row ∈ s.tokens, row.Live → row.session.login ≠ session.login :=
    fun row hrow hl heq => h.notBoth row hrow hl i (heq ▸ hhad)
  have howes : ∀ k login, Owes (s.store i grant session answer.uuid jti).calls k login →
      k ≠ i ∧ Owes s.calls k login := by
    intro k login hk
    rcases owes_set hk with ⟨-, _, _, _, heq, -⟩ | hkept
    · cases heq
    · exact hkept
  refine ⟨?_, ?_, ?_, ?_, ?_⟩
  · intro row hrow row' hrow' hl hl' heq
    rcases hrows row hrow with hin | rfl
    · rcases hrows row' hrow' with hin' | rfl
      · exact h.one row hin row' hin' hl hl' heq
      · exact absurd heq (hbefore row hin hl)
    · rcases hrows row' hrow' with hin' | rfl
      · exact absurd heq.symm (hbefore row' hin' hl')
      · rfl
  · intro row hrow hl k hk
    obtain ⟨hne, howe⟩ := howes k _ hk
    rcases hrows row hrow with hin | rfl
    · exact h.notBoth row hin hl k howe
    · exact hne (h.oneOwes k i session.login howe hhad)
  · exact fun k k' login hk hk' => h.oneOwes k k' login (howes k login hk).2 (howes k' login hk').2
  · intro row hrow hl
    rcases hrows row hrow with hin | rfl
    · exact hgrows _ (h.begun row hin hl)
    · exact hgrows _ (h.begunOwes i session.login hhad)
  · exact fun k login hk => hgrows login (h.begunOwes k login (howes k login hk).2)

theorem chains_step {s s' : State} {a : Action} (heffect : Effect s a s')
    (hallowed : RotatesLive s a) (hkeys : Keys s) (h : Chains s) : Chains s' := by
  have hquiet := h.quiet heffect
  cases heffect with
  | called request _ =>
      refine hquiet (fun _ hrow _ => hrow) fun k login hk => ?_
      obtain ⟨grant, session, since, hphase, hlogin⟩ := hk
      rcases of_getElem?_concat hphase with ⟨-, hstart⟩ | hbefore
      · rcases start_cases request with hplain | ⟨claims, rfl⟩
        · exact absurd hstart.symm (hplain.ne_storing grant session since)
        · cases hstart
      · exact ⟨grant, session, since, hbefore, hlogin⟩
  | dropped i old hi => exact hquiet (fun _ hrow _ => hrow) (owes_of_plain fun _ _ _ => nofun)
  | left i answer old reply hi _ _ =>
      exact hquiet (fun _ hrow _ => hrow) (owes_of_plain fun _ _ _ => nofun)
  | moved i answer old phase users hi hmoves =>
      exact hquiet (fun _ hrow _ => hrow) (owes_of_plain hmoves.plain.ne_storing)
  | signedIn i answer old user users hi hold => exact h.signedIn answer hi hold
  | passwordSet i answer sub password now hash hi =>
      exact hquiet (fun _ hrow _ => hrow) (owes_of_plain fun _ _ _ => nofun)
  | revokedAll i answer sub now version hi =>
      refine hquiet (fun row hrow hl => ?_) (owes_of_plain fun _ _ _ => nofun)
      obtain ⟨old, hold, -, hkept⟩ := mem_revoke hrow
      exact (hkept hl).1 ▸ hold
  | checked i answer claims row hi _ _ _ =>
      exact hquiet (fun _ hrow _ => hrow) (owes_of_plain fun _ _ _ => nofun)
  | rotated i answer claims row now since hi hok => exact h.rotated hkeys hi hok hallowed
  | stored i answer grant session since jti hi hok hnew => exact h.stored hi hok hnew

/-! ## One exchange per token -/

/-- The token is revoked. -/
def Revoked (tokens : List RefreshTokenRow) (jti : String) : Prop :=
  ∃ row ∈ tokens, row.jti = jti ∧ ¬ row.Live

theorem Revoked.persist {tokens tokens' : List RefreshTokenRow} {jti : String}
    (h : Revoked tokens jti) (hpersist : Persist tokens tokens') : Revoked tokens' jti := by
  obtain ⟨row, hrow, hjti, hnot⟩ := h
  obtain ⟨row', hrow', hbecomes⟩ := hpersist row hrow
  exact ⟨row', hrow', hbecomes.jti.trans hjti, hbecomes.revoked hnot⟩

/-- A call that has made way for its successor token: it alone revoked the old one, which
nobody has exchanged. -/
structure Due (s : State) (k : Nat) (claims : Claims) (session : Session) : Prop where
  revoked : ∃ row ∈ s.tokens, row.jti = claims.jti ∧ row.session = session ∧ ¬ row.Live
  unspent : ∀ c session', .exchanged c claims.jti session' ∉ s.history
  alone : ∀ c, .revoked c claims.jti ∈ s.history → c = k

structure Spent (s : State) : Prop where
  revoked : ∀ c jti, .revoked c jti ∈ s.history → Revoked s.tokens jti
  exchanged : ∀ c jti session, .exchanged c jti session ∈ s.history → Revoked s.tokens jti
  due : ∀ (k : Nat) claims session since,
    s.calls[k]? = some (.storing (.rotation claims) session since) → Due s k claims session
  inOrder : s.history.Pairwise InOrder

theorem inOrder_of_not_exchange (earlier later : Event) (h : later.isExchange = false) :
    InOrder earlier later := by
  rintro call jti session rfl
  cases h

theorem Due.step {s s' : State} {a : Action} (heffect : Effect s a s') (hkeys : Keys s)
    (hchains : Chains s) (h : Spent s) {k : Nat} {claims : Claims} {session : Session}
    {since : Nat} (hk : s.calls[k]? = some (.storing (.rotation claims) session since))
    (hk' : s'.calls[k]? = some (.storing (.rotation claims) session since)) :
    Due s' k claims session := by
  have hdue := h.due k claims session since hk
  obtain ⟨row, hrow, hjti, hsession, hnot⟩ := hdue.revoked
  obtain ⟨events, hhistory, hhappens, -⟩ := history_of_effect heffect
  obtain ⟨row', hrow', hbecomes⟩ := persist_of_effect heffect row hrow
  refine ⟨⟨row', hrow', hbecomes.jti.trans hjti, hbecomes.session.trans hsession,
    hbecomes.revoked hnot⟩, ?_, ?_⟩
  · intro c session' hmem
    rcases List.mem_append.mp (hhistory ▸ hmem) with hold | hnew
    · exact hdue.unspent c session' hold
    · generalize heq : Event.exchanged c claims.jti session' = e at hnew
      have hevent := hhappens e hnew
      cases hevent with
      | exchanged i answer claims' _ since' hi _ hended =>
          simp only [Event.exchanged.injEq] at heq
          obtain ⟨rfl, hsame, rfl⟩ := heq
          obtain ⟨other, hother, hjti', hsession', -⟩ := (h.due c claims' session' since' hi).revoked
          obtain rfl := hkeys.eq_of_jti hrow hother (hjti.trans (hsame.trans hjti'.symm))
          have hck : c = k := hchains.oneOwes c k session.login
            ⟨_, _, _, hi, by rw [← hsession', hsession]⟩ ⟨_, _, _, hk, rfl⟩
          obtain ⟨reply, hreply⟩ := hended
          rw [hck, hk'] at hreply
          cases hreply
      | _ => cases heq
  · intro c hmem
    rcases List.mem_append.mp (hhistory ▸ hmem) with hold | hnew
    · exact hdue.alone c hold
    · generalize heq : Event.revoked c claims.jti = e at hnew
      have hevent := hhappens e hnew
      cases hevent with
      | revoked i answer other _ hother hlive _ _ _ =>
          simp only [Event.revoked.injEq] at heq
          obtain rfl := hkeys.eq_of_jti hrow hother (hjti.trans heq.2)
          exact absurd hlive hnot
      | _ => cases heq

theorem due_rotate {s : State} (hkeys : Keys s) (h : Spent s) {k : Nat} {answer : Answer}
    {claims : Claims} {row : RefreshTokenRow} {now : String} {since : Nat}
    (hk : s.calls[k]? = some (.rotating claims row now since)) (hok : answer.ok = true)
    (hallowed : RotatesLive s (.statement k answer)) :
    Due (s.rotate k claims row now since) k claims row.session := by
  obtain ⟨r, hr, hrid, hrlive⟩ := hallowed claims row now since hk hok
  obtain ⟨_, hr', hrid', -, hjti, hsession⟩ := hkeys.rotating k claims row now since hk
  obtain rfl := hkeys.eq_of_id hr hr' (hrid.trans hrid'.symm)
  have hnotRevoked : ¬ Revoked s.tokens claims.jti := by
    rintro ⟨other, hother, hother', hnot⟩
    obtain rfl := hkeys.eq_of_jti hr hother (hjti.trans hother'.symm)
    exact hnot hrlive
  constructor
  · refine ⟨{ r with revokedAt := some now }, ?_, hjti, hsession, nofun⟩
    exact Lib.Table.mem_updateWhere.mpr ⟨r, hr, if_pos (decide_eq_true hrid)⟩
  · intro c session' hmem
    rcases List.mem_append.mp hmem with hold | hnew
    · exact hnotRevoked (h.exchanged c _ session' hold)
    · obtain ⟨_, _, _, heq, _⟩ := mem_revocations now hnew fun _ _ h => h
      cases heq
  · intro c hmem
    rcases List.mem_append.mp hmem with hold | hnew
    · exact absurd (h.revoked c _ hold) hnotRevoked
    · obtain ⟨_, _, _, heq, _⟩ := mem_revocations now hnew fun _ _ h => h
      exact (Event.revoked.inj heq).1

theorem spent_step {s s' : State} {a : Action} (heffect : Effect s a s')
    (hallowed : RotatesLive s a) (hkeys : Keys s) (hchains : Chains s) (h : Spent s) :
    Spent s' := by
  have hpersist := persist_of_effect heffect
  obtain ⟨events, hhistory, hhappens, halone⟩ := history_of_effect heffect
  constructor
  · intro c jti hmem
    rcases List.mem_append.mp (hhistory ▸ hmem) with hold | hnew
    · exact (h.revoked c jti hold).persist hpersist
    · have hevent := hhappens _ hnew
      cases hevent with
      | revoked i answer row row' hrow hlive hrow' hbecomes hnot =>
          exact ⟨row', hrow', hbecomes.jti, hnot⟩
  · intro c jti session hmem
    rcases List.mem_append.mp (hhistory ▸ hmem) with hold | hnew
    · exact (h.exchanged c jti session hold).persist hpersist
    · have hevent := hhappens _ hnew
      cases hevent with
      | exchanged i answer claims _ since hi _ _ =>
          obtain ⟨row, hrow, hjti, -, hnot⟩ := (h.due c claims session since hi).revoked
          exact Revoked.persist ⟨row, hrow, hjti, hnot⟩ hpersist
  · intro k claims session since hk'
    rcases phase_of_effect heffect hk' with hk | hentered
    · exact Due.step heffect hkeys hchains h hk hk'
    · cases hentered with
      | plain hplain => cases hplain
      | rotated answer _ row now _ hk hok => exact due_rotate hkeys h hk hok hallowed
  · rw [hhistory]
    refine List.pairwise_append.mpr ⟨h.inOrder, pairwise_events inOrder_of_not_exchange halone, ?_⟩
    rintro earlier hearlier later hlater call jti session rfl
    have hevent := hhappens _ hlater
    cases hevent with
    | exchanged i answer claims _ since hi _ _ =>
        have hdue := h.due call claims session since hi
        constructor
        · rintro c session' rfl
          exact hdue.unspent c session' hearlier
        · rintro c rfl
          exact hdue.alone c hearlier

/-! ## Every run -/

/-- What holds while every rotation meets a live token. -/
structure Rotating (s : State) : Prop where
  keys : Keys s
  told : Told s
  chains : Chains s
  spent : Spent s

theorem rotating_initial : Rotating .initial where
  keys := keys_initial
  told := nofun
  chains := ⟨nofun, nofun, nofun, nofun, nofun⟩
  spent := ⟨nofun, nofun, nofun, .nil⟩

theorem rotating_run {passwords : Passwords} {acts : List Action} {s : State}
    (hrun : Run (step passwords) RotatesLive .initial acts s) : Rotating s := by
  apply hrun.invariant ?_ rotating_initial
  intro t a t' hallowed hstep h
  have heffect := effect_of_step hstep
  exact ⟨keys_step heffect h.keys, told_step heffect h.told,
    chains_step heffect hallowed h.keys h.chains,
    spent_step heffect hallowed h.keys h.chains h.spent⟩

/-- While every revoking UPDATE of `refresh_token` finds its token live, a token is
exchanged once, never after another call revoked it, and a sign-in has one live token. -/
theorem singleUse_of_rotatesLive (passwords : Passwords) : SingleUse passwords RotatesLive where
  told _ _ hrun := (rotating_run hrun).told
  inOrder _ _ hrun := (rotating_run hrun).spent.inOrder
  oneLive _ _ hrun := (rotating_run hrun).chains.one

/-- A user registers, and two calls present the refresh token: both find it live before the
first of them revokes it. -/
def twoRefreshes : List Action :=
  [.call (.register "ann@example.com" "correct horse" "Ann"),
    .statement 0 (sampleAnswer "" ""), .statement 0 (sampleAnswer "ann" ""),
    .statement 0 (sampleAnswer "t0" "j0"),
    .call (.refreshToken ⟨"ann", "j0"⟩), .call (.refreshToken ⟨"ann", "j0"⟩),
    .statement 1 (sampleAnswer "" ""), .statement 2 (sampleAnswer "" ""),
    .statement 1 (sampleAnswer "" ""), .statement 2 (sampleAnswer "" ""),
    .statement 1 (sampleAnswer "t1" "j1"), .statement 2 (sampleAnswer "t2" "j2")]

/-- Both calls come back with a pair. -/
theorem twoRefreshes_both_exchange : ¬ SingleUse plainPasswords anyStep := by
  intro hsingle
  have hrun : ∃ s, exec (step plainPasswords) .initial twoRefreshes = some s ∧
      s.history = [.revoked 1 "j0", .exchanged 1 "j0" ⟨"ann", 0, 0⟩,
        .exchanged 2 "j0" ⟨"ann", 0, 0⟩] := ⟨_, rfl, rfl⟩
  obtain ⟨s, hexec, hhistory⟩ := hrun
  have horder := hsingle.inOrder _ s (run_of_exec hexec)
  rw [hhistory] at horder
  have htwice := List.rel_of_pairwise_cons (List.Pairwise.of_cons horder) List.mem_cons_self
  exact (htwice 2 "j0" _ rfl).1 1 _ rfl

end Dbmaster.Auth
