import AuthCore.Proofs.Account.SignedOut
import AuthCore.Proofs.Account.Writes
import AuthCore.Proofs.Token.Separation

/-!
# Limited tokens stay limited

Whether a token is limited stands in the access token alone. The entry that the cache keeps for a
refresh token says nothing about it, and an exchange issues a pair that is not limited. So a refresh
token that was issued along with a limited access token is exchanged like any other
(`Accounts.exchanged_though_limited`).

But no operation gives away such a refresh token, unless it was told to issue a limited pair: all
other pairs are full, and the limited token for a new password comes alone. Whoever has only that
one gets no pair for it, but for changing the password (`Accounts.limited_until_changed`).
-/

namespace AuthCore

namespace Operation

/-- Whether an operation lets somebody in who proves anew who they are: by a password, by a one-time
code or by another service. -/
def provesIdentity : Operation → Bool
  | signInWithPassword .. | signInWithCode .. | signInWithProfile .. | signInWithProvider ..
  | verifyCode .. => true
  | _ => false

/-- The token that an operation is shown. -/
def presented? : Operation → Option String
  | authenticate token | authenticateLimited token | verifyToken token | refresh token => some token
  | _ => none

end Operation

/-! ### Pairs that are answered -/

theorem answeredPair?_eq_some {r : Answer Result} {p : TokenPair} :
    answeredPair? r = some p ↔ r = .ok (.pair p) := by
  constructor
  · intro h
    cases r with
    | error e => cases h
    | ok result => cases result <;> cases h; rfl
  · rintro rfl
    rfl

section Pairs

variable {t : Tokens} {a : Accounts} {m : Moment} {w v : World} {p : TokenPair}

/-- An exchange answers a pair that is not limited. -/
theorem Tokens.eq_pair_of_refresh {token : String}
    (h : (t.refresh token).perform m w = (.ok p, v)) :
    ∃ user role, p = t.pair user role false m := by
  rw [refresh_eq] at h
  obtain ⟨_, _, -, h₁⟩ := Action.perform_bind_eq_ok.1 h
  obtain ⟨entry, _, -, h₂⟩ := Action.perform_bind_eq_ok.1 h₁
  obtain ⟨id, _, -, h₃⟩ := Action.perform_bind_eq_ok.1 h₂
  split at h₃
  next =>
    obtain ⟨_, _, -, hrejected⟩ := Action.perform_bind_eq_ok.1 h₃
    cases hrejected
  next =>
    obtain ⟨_, _, -, h₄⟩ := Action.perform_bind_eq_ok.1 h₃
    obtain ⟨user, _, -, h₅⟩ := Action.perform_bind_eq_ok.1 h₄
    obtain ⟨_, _, -, h₆⟩ := Action.perform_bind_eq_ok.1 h₅
    obtain ⟨_, _, -, h₇⟩ := Action.perform_bind_eq_ok.1 h₆
    obtain ⟨_, _, -, h₈⟩ := Action.perform_bind_eq_ok.1 h₇
    obtain ⟨q, _, hissued, h₉⟩ := Action.perform_bind_eq_ok.1 h₈
    obtain ⟨_, _, -, hreturned⟩ := Action.perform_bind_eq_ok.1 h₉
    obtain rfl := Except.ok.inj (Prod.mk.inj hreturned).1
    exact ⟨user.id, user.role, Accounts.eq_pair_of_issue hissued⟩

/-- A full sign-in answers a pair that is not limited. -/
theorem Accounts.eq_pair_of_complete {u : User} {extra : UserChanges}
    (h : (a.complete u extra).perform m w = (.ok p, v)) :
    ∃ user role, p = a.tokens.pair user role false m := by
  rcases hx : w.store.updateUser u.id (signInChanges u extra m) with ⟨e | u', s⟩
  · rw [perform_complete_of_error hx] at h
    cases h
  · rw [perform_complete_of_ok hx] at h
    exact ⟨u'.id, u'.role, eq_pair_of_welcome h⟩

/-- Pairs are answered to those who prove who they are, for refresh tokens, to whoever issues them
directly, and for a new password with a limited token. Only those that are issued directly may be
limited. -/
theorem Operation.eq_pair_of_perform {op : Operation}
    (h : (op.perform a).perform m w = (.ok (.pair p), v)) :
    (∃ user role limited, p = a.tokens.pair user role limited m ∧
        (limited = true → op = issue user role true)) ∧
      (op.provesIdentity = true ∨ (∃ token, op = refresh token) ∨
        (∃ user role limited, op = issue user role limited) ∨
        ∃ u old new, op = changePassword u old new true) := by
  have hfull (hp : ∃ user role, p = a.tokens.pair user role false m) :
      ∃ user role limited, p = a.tokens.pair user role limited m ∧
        (limited = true → op = issue user role true) := by
    obtain ⟨user, role, hp⟩ := hp
    exact ⟨user, role, false, hp, nofun⟩
  have hentrant {x : Action (User × UserChanges)} (hx : op.entrant? a = some x) :
      ∃ user role, p = a.tokens.pair user role false m := by
    rw [perform_of_entrant hx] at h
    obtain ⟨_, hq, hp⟩ := Action.perform_map_eq_ok.1 h
    obtain rfl := Result.pair.inj hp
    obtain ⟨e, _, -, hcomplete⟩ := Action.perform_bind_eq_ok.1 hq
    exact Accounts.eq_pair_of_complete hcomplete
  cases op
  case issue user role limited =>
    obtain ⟨_, hq, hp⟩ := Action.perform_map_eq_ok.1 h
    obtain rfl := Result.pair.inj hp
    refine ⟨⟨user, role, limited, Accounts.eq_pair_of_issue hq, ?_⟩,
      .inr (.inr (.inl ⟨user, role, limited, rfl⟩))⟩
    rintro rfl
    rfl
  case refresh token =>
    obtain ⟨_, hq, hp⟩ := Action.perform_map_eq_ok.1 h
    obtain rfl := Result.pair.inj hp
    exact ⟨hfull (Tokens.eq_pair_of_refresh hq), .inr (.inl ⟨token, rfl⟩)⟩
  case changePassword u old new limited =>
    cases limited with
    | true => exact ⟨hfull (hentrant rfl), .inr (.inr (.inr ⟨u, old, new, rfl⟩))⟩
    | false =>
      rw [perform, Accounts.changePassword_full] at h
      obtain ⟨_, hq, hp⟩ := Action.perform_map_eq_ok.1 h
      obtain ⟨_, _, -, h₁⟩ := Action.perform_bind_eq_ok.1 hq
      obtain ⟨_, _, -, h₂⟩ := Action.perform_bind_eq_ok.1 h₁
      obtain ⟨_, _, -, h₃⟩ := Action.perform_bind_eq_ok.1 h₂
      obtain ⟨_, _, -, hreturned⟩ := Action.perform_bind_eq_ok.1 h₃
      obtain rfl := Except.ok.inj (Prod.mk.inj hreturned).1
      cases hp
  case signInWithPassword => exact ⟨hfull (hentrant rfl), .inl rfl⟩
  case signInWithCode => exact ⟨hfull (hentrant rfl), .inl rfl⟩
  case signInWithProfile => exact ⟨hfull (hentrant rfl), .inl rfl⟩
  case signInWithProvider => exact ⟨hfull (hentrant rfl), .inl rfl⟩
  case verifyCode => exact ⟨hfull (hentrant rfl), .inl rfl⟩
  all_goals
    obtain ⟨_, -, hq⟩ := Action.perform_map_eq_ok.1 h
    cases hq

/-- For a new password with a limited token there is nothing to answer but a pair, which is not
limited. -/
theorem Operation.pair_of_changePassword {u : User} {old : Option String} {new : String}
    {r : Result} (h : ((changePassword u old new true).perform a).perform m w = (.ok r, v)) :
    ∃ user role, r = .pair (a.tokens.pair user role false m) := by
  rw [perform_of_entrant rfl] at h
  obtain ⟨_, hq, rfl⟩ := Action.perform_map_eq_ok.1 h
  obtain ⟨e, _, -, hcomplete⟩ := Action.perform_bind_eq_ok.1 hq
  obtain ⟨user, role, rfl⟩ := Accounts.eq_pair_of_complete hcomplete
  exact ⟨user, role, rfl⟩

section Access

variable {user : Int} {role : Role} {limited : Bool}

theorem Tokens.verify_access (t : Tokens) (hu : RefreshToken.Fits user)
    (hm : m.second ≤ AccessClaims.lastSecond) (now : Int) :
    AccessToken.verify t.signer now (t.access user role limited m) =
      if now ≤ (AccessClaims.issue user role limited m.second t.accessLifetime).expiresAt then
        .ok (.issue user role limited m.second t.accessLifetime)
      else .error .tokenExpired :=
  AccessToken.verify_encode_eq t.signer
    (AccessClaims.fit_issue hu role limited ⟨Int.natCast_nonneg _, hm⟩ t.accessLifetime) now

/-- An access token is accepted in the second in which it is made. -/
theorem Tokens.verify_access_self (t : Tokens) (hu : RefreshToken.Fits user)
    (hm : m.second ≤ AccessClaims.lastSecond) :
    AccessToken.verify t.signer m.second (t.access user role limited m) =
      .ok (.issue user role limited m.second t.accessLifetime) := by
  rw [t.verify_access hu hm, if_pos (AccessClaims.le_expiresAt_issue user role limited hm _)]

/-- An access token says whether it is limited, as long as it is accepted. -/
theorem Tokens.limited_of_verify {now : Int} {c : AccessClaims} (hu : RefreshToken.Fits user)
    (hm : m.second ≤ AccessClaims.lastSecond)
    (h : AccessToken.verify t.signer now (t.access user role limited m) = .ok c) :
    c.limited = limited := by
  rw [t.verify_access hu hm] at h
  split at h
  next => exact (congrArg AccessClaims.limited (Except.ok.inj h)).symm
  next => cases h

end Access

end Pairs

/-! ### Presenting a limited token -/

section Presented

variable {a : Accounts} {m : Moment} {w v : World} {token : String} {c : AccessClaims}

/-- Whoever presents a limited token is told so. -/
theorem Accounts.perform_authenticate_of_limited
    (hv : AccessToken.verify a.tokens.signer m.second token = .ok c) (hl : c.limited = true) :
    (a.authenticate token).perform m w = (.error (.auth .limitedToken), w) := by
  rw [authenticate, Action.perform_bind_ok (perform_verify_of_ok hv), Action.perform_bind, hl]
  rfl

/-- Whoever presents a limited token where it is allowed is known to have no more. -/
theorem Accounts.limited_of_authenticateLimited {u : User} {limited : Bool}
    (hv : AccessToken.verify a.tokens.signer m.second token = .ok c) (hl : c.limited = true)
    (h : (a.authenticateLimited token).perform m w = (.ok (u, limited), v)) : limited = true := by
  rw [authenticateLimited, Action.perform_bind_ok (perform_verify_of_ok hv), hl] at h
  obtain ⟨_, _, -, h₁⟩ := Action.perform_bind_eq_ok.1 h
  obtain ⟨_, _, -, h₂⟩ := Action.perform_bind_eq_ok.1 h₁
  obtain ⟨_, _, -, h₃⟩ := Action.perform_bind_eq_ok.1 h₂
  exact (Prod.mk.inj (Except.ok.inj (Prod.mk.inj h₃).1)).2.symm

/-- An access token cannot be exchanged. -/
theorem Tokens.refresh_of_access {t : Tokens} {now : Int} {p : TokenPair}
    (hv : AccessToken.verify t.signer now token = .ok c) :
    (t.refresh token).perform m w ≠ (.ok p, v) := by
  intro h
  obtain ⟨_, _, _, -, hverified, -⟩ := refresh_inversion h
  rw [AccessToken.refresh_verify_of_verify hv] at hverified
  cases hverified

/-- Whoever presents a limited token gets no pair for it and is not let in without limits. -/
theorem Operation.perform_of_limited {op : Operation} (hop : op.presented? = some token)
    (hv : AccessToken.verify a.tokens.signer m.second token = .ok c) (hl : c.limited = true) :
    (∀ p, ((op.perform a).perform m w).1 ≠ .ok (.pair p)) ∧
      (∀ u, ((op.perform a).perform m w).1 ≠ .ok (.user u false)) ∧
      (op = authenticate token →
        ((op.perform a).perform m w).1 = .error (.auth .limitedToken)) := by
  have hverify : (a.tokens.verify token).perform m w = (.ok c, w) :=
    Accounts.perform_verify_of_ok hv
  have hauthenticate : (a.authenticate token).perform m w = (.error (.auth .limitedToken), w) :=
    Accounts.perform_authenticate_of_limited hv hl
  cases op <;> cases hop
  case authenticate =>
    rw [perform, Action.perform_map, hauthenticate]
    simp [Except.map]
  case authenticateLimited =>
    rw [perform, Action.perform_map]
    rcases hx : (a.authenticateLimited token).perform m w with ⟨e | ⟨u, limited⟩, v⟩
    · simp [Except.map]
    · rw [Accounts.limited_of_authenticateLimited hv hl hx]
      simp [Except.map]
  case verifyToken =>
    rw [perform, Action.perform_map, hverify]
    simp [Except.map]
  case refresh =>
    rw [perform, Action.perform_map]
    rcases hx : (a.tokens.refresh token).perform m w with ⟨e | p, v⟩
    · simp [Except.map]
    · exact absurd hx (Tokens.refresh_of_access hv)

end Presented

/-! ### Runs -/

namespace Accounts

variable {a : Accounts} {w : World}

/-- A pair in the record of a run is not limited unless it was issued so directly. -/
theorem limited_of_mem_trace {steps : List Step} {r : Record} (hr : r ∈ a.trace w steps)
    {user : Int} {token : String} (hi : r.Issues a user token) :
    ∃ role limited, r.pair? = some (a.tokens.pair user role limited r.step.moment) ∧
      token = a.tokens.minted user r.step.moment ∧
      (limited = true → r.step.operation = .issue user role true) := by
  obtain ⟨before, s, since, rfl, rfl⟩ := mem_trace.1 hr
  obtain ⟨role, limited, hp, rfl⟩ := hi
  have hanswer := answeredPair?_eq_some.1 hp
  obtain ⟨⟨user', role', limited', hp', hlimited⟩, -⟩ :=
    Operation.eq_pair_of_perform (Prod.ext hanswer rfl)
  obtain rfl : user = user' := RefreshToken.sign_injective (congrArg TokenPair.refreshToken hp')
  exact ⟨role', limited', hp' ▸ hp, rfl, hlimited⟩

/-- Where a run that starts with an empty cache has led, a refresh token has a live entry only if it
was answered in a pair. This is so even if the same token was minted twice. -/
theorem issued_of_live_after {entries : Nat} (hw : w.cache = .memory (.new entries))
    (steps : List Step) (hs : InOrder steps) :
    ∃ c now, (a.after w steps).cache = .memory c ∧
      (∀ token later e, now ≤ later → c.live? later (Tokens.key token) = some e →
        ∃ r ∈ a.trace w steps, ∃ user, r.Issues a user token) ∧
      ∀ later, (∀ s ∈ steps, s.now ≤ later) → now ≤ later := by
  obtain ⟨now, ⟨c, hc, -, hissued⟩, hnow⟩ := run_induction
    (P := fun records now v => ∃ c, v.cache = .memory c ∧ c.Within ∧
      ∀ token later e, now ≤ later → c.live? later (Tokens.key token) = some e →
        ∃ r ∈ records, ∃ user, r.Issues a user token)
    ⟨_, hw, MemoryCache.within_new entries, nofun⟩
    (fun records now v s ⟨c, hc, hcw, hissued⟩ hle => by
      obtain ⟨d, hd, hdw, hbooked⟩ := Operation.booked a s.operation s.moment v c hc hcw
      refine ⟨d, hd, hdw, fun token later e hlater he => ?_⟩
      have hold (hl : c.live? later (Tokens.key token) = some e) :
          ∃ r ∈ records ++ [a.record s v], ∃ user, r.Issues a user token := by
        obtain ⟨r, hr, hi⟩ := hissued token later e (hle.trans hlater) hl
        exact ⟨r, List.mem_append_left _ hr, hi⟩
      split at hbooked
      next p hp =>
        obtain ⟨user, role, limited, rfl, hl⟩ := hbooked
        rw [hl token later hlater] at he
        split at he
        next htoken =>
          exact ⟨_, List.mem_append_right _ List.mem_cons_self, user, role, limited, hp, htoken⟩
        next =>
          split at he
          next => cases he
          next => exact hold he
      next => exact hold (hbooked token later hlater ▸ he)) steps hs
  exact ⟨c, now, hc, hissued, hnow⟩

/-- A refresh token that is exchanged was answered before, in a pair that is not limited unless it
was issued so directly. -/
theorem limited_of_exchange {entries : Nat} (hw : w.cache = .memory (.new entries))
    {steps : List Step} {s : Step} {token : String} (hop : s.operation = .refresh token)
    (hs : InOrder (steps ++ [s])) {p : TokenPair}
    (hp : (a.step s (a.after w steps)).1 = .ok (.pair p)) :
    ∃ r ∈ a.trace w steps, ∃ user role limited,
      r.pair? = some (a.tokens.pair user role limited r.step.moment) ∧
      token = a.tokens.minted user r.step.moment ∧
      (limited = true → r.step.operation = .issue user role true) := by
  have hs' := List.pairwise_append.1 hs
  obtain ⟨c, now, hc, hissued, hnow⟩ := issued_of_live_after (a := a) hw steps hs'.1
  have hle : now ≤ s.now := hnow s.now fun q hq => hs'.2.2 q hq s (List.mem_singleton_self s)
  rw [step, hop] at hp
  obtain ⟨q, hq, -⟩ := Action.perform_map_eq_ok.1 (Prod.ext hp rfl)
  obtain ⟨_, ⟨e, expiry, id, hlive, -⟩, -⟩ := Tokens.mayExchange_of_refresh hc hq
  obtain ⟨r, hr, user, hi⟩ := hissued token s.now _ hle hlive
  obtain ⟨role, limited, h⟩ := limited_of_mem_trace hr hi
  exact ⟨r, hr, user, role, limited, h⟩

/-- Nobody gets from a limited token to a full one but by changing the password, save by the refresh
token of a pair that was issued as limited directly.

In every run, a pair that is answered is limited only if it was issued so directly, and its access
token says so. It is answered to somebody who has proved anew who they are, for a refresh token, to
whoever issues it directly, or for a new password with a limited token; that is never answered by
anything but a full pair. An access token that is accepted and limited is answered by no pair,
wherever it is shown, and lets nobody in without limits; in particular it cannot be exchanged. And a
refresh token that is exchanged, in a run that starts with an empty memory cache, was answered
before in a pair that was full unless it was issued as limited directly. -/
theorem limited_until_changed (a : Accounts) (w : World) (steps : List Step) (s : Step) :
    (∀ p, (a.step s (a.after w steps)).1 = .ok (.pair p) →
      (∃ user role limited, p = a.tokens.pair user role limited s.moment ∧
        (limited = true → s.operation = .issue user role true) ∧
        (RefreshToken.Fits user → s.moment.second ≤ AccessClaims.lastSecond → ∀ now c,
          AccessToken.verify a.tokens.signer now p.accessToken = .ok c → c.limited = limited)) ∧
      (s.operation.provesIdentity = true ∨ (∃ token, s.operation = .refresh token) ∨
        (∃ user role limited, s.operation = .issue user role limited) ∨
        ∃ u old new, s.operation = .changePassword u old new true)) ∧
    (∀ u old new r, s.operation = .changePassword u old new true →
      (a.step s (a.after w steps)).1 = .ok r →
      ∃ user role, r = .pair (a.tokens.pair user role false s.moment)) ∧
    (∀ token c, s.operation.presented? = some token →
      AccessToken.verify a.tokens.signer s.moment.second token = .ok c → c.limited = true →
      (∀ p, (a.step s (a.after w steps)).1 ≠ .ok (.pair p)) ∧
      (∀ u, (a.step s (a.after w steps)).1 ≠ .ok (.user u false)) ∧
      (s.operation = .authenticate token →
        (a.step s (a.after w steps)).1 = .error (.auth .limitedToken))) ∧
    ∀ entries token p, w.cache = .memory (.new entries) → InOrder (steps ++ [s]) →
      s.operation = .refresh token → (a.step s (a.after w steps)).1 = .ok (.pair p) →
      ∃ r ∈ a.trace w steps, ∃ user role limited,
        r.pair? = some (a.tokens.pair user role limited r.step.moment) ∧
        token = a.tokens.minted user r.step.moment ∧
        (limited = true → r.step.operation = .issue user role true) := by
  refine ⟨fun p hp => ?_, fun u old new r hop hr => ?_, fun token c hop hv hl => ?_, ?_⟩
  · obtain ⟨⟨user, role, limited, rfl, hlimited⟩, hway⟩ :=
      Operation.eq_pair_of_perform (Prod.ext hp rfl)
    refine ⟨⟨user, role, limited, rfl, hlimited, fun hu hm now c hv => ?_⟩, hway⟩
    exact Tokens.limited_of_verify hu hm hv
  · rw [step, hop] at hr
    exact Operation.pair_of_changePassword (Prod.ext hr rfl)
  · exact Operation.perform_of_limited hop hv hl
  · intro entries token p hw hs hop hp
    exact limited_of_exchange hw hop hs hp

/-- The limited token for a new password lets nobody in, and is not exchanged. -/
theorem limited_until_changed_reset :
    let a : Accounts := ⟨⟨⟨"secret", .hs256⟩, 60, 120⟩, {}, 4, 16⟩
    let w := Action.worldOf (.memory (.new 1)) (.memory .empty) .log
    let d : Draws := ⟨id, id, id, id⟩
    let first : Step := ⟨0, d, .issueLimited 1 .customer⟩
    let token := a.tokens.access 1 .customer true first.moment
    (a.step first w).1 = .ok (.token token) ∧
      (a.step ⟨0, d, .authenticate token⟩ (a.after w [first])).1 = .error (.auth .limitedToken) ∧
      ∀ p, (a.step ⟨0, d, .refresh token⟩ (a.after w [first])).1 ≠ .ok (.pair p) := by
  intro a w d first token
  have hverify : AccessToken.verify a.tokens.signer first.moment.second token =
      .ok (.issue 1 .customer true first.moment.second a.tokens.accessLifetime) :=
    a.tokens.verify_access_self (by decide) (by decide)
  obtain ⟨-, -, hauthenticate, -⟩ := a.limited_until_changed w [first] ⟨0, d, .authenticate token⟩
  obtain ⟨-, -, hrefresh, -⟩ := a.limited_until_changed w [first] ⟨0, d, .refresh token⟩
  exact ⟨rfl, (hauthenticate token _ rfl hverify rfl).2.2 rfl, (hrefresh token _ rfl hverify rfl).1⟩

/-- A refresh token whose entry has just been put into the cache may be exchanged. -/
theorem mayExchange_of_put {t : Tokens} {c : MemoryCache} {s : Store} {u : User} {role : Role}
    {m : Moment} {now : Nat} (hn : m.nonce ≠ "") (hlive : now < m.now + seconds t.refreshLifetime)
    (hfit : RefreshToken.Fits u.id) (hu : s.findById u.id = .ok (some u))
    (hf : u.isForceLogin = false) :
    t.MayExchange (t.minted u.id m) now
      (c.put (Tokens.key (t.minted u.id m)) (t.noted u.id role m)) s u := by
  have hfresh : (t.noted u.id role m).isLive now = true := decide_eq_true hlive
  have hentry : (c.put (Tokens.key (t.minted u.id m)) (t.noted u.id role m)).live? now
      (Tokens.key (t.minted u.id m)) = some (t.noted u.id role m) := by
    rw [MemoryCache.live?_put_self, Option.filter_some, if_pos hfresh]
  exact ⟨⟨Tokens.entry u.id role, _, u.id, hentry, RefreshToken.verify_sign hfit hn,
    Tokens.entryUser?_entry hfit role, hu⟩, hf⟩

/-- Whoever has been issued a pair directly, limited or not, can exchange its refresh token for a
full one. -/
theorem refresh_of_issued {c : MemoryCache} {u : User} {role : Role} {limited : Bool} {s t : Step}
    (hs : s.operation = .issue u.id role limited)
    (ht : t.operation = .refresh (a.tokens.minted u.id s.moment)) (hc : w.cache = .memory c)
    (hcw : c.Within)
    (hroom : (c.makeRoom s.now (Tokens.key (a.tokens.minted u.id s.moment))).hasRoom
      (Tokens.key (a.tokens.minted u.id s.moment)) = true)
    (hlive : t.now < s.now + seconds a.tokens.refreshLifetime) (hfit : RefreshToken.Fits u.id)
    (hu : w.store.findById u.id = .ok (some u)) (hf : u.isForceLogin = false) :
    (a.step s w).1 = .ok (.pair (a.tokens.pair u.id role limited s.moment)) ∧
      (a.step t (a.step s w).2).1 = .ok (.pair (a.tokens.pair u.id u.role false t.moment)) := by
  obtain ⟨hissued, hcache⟩ := Tokens.issue_of_hasRoom (t := a.tokens) (m := s.moment) u.id role
    limited hc hroom
  have hstore : ((a.tokens.issue u.id role limited).perform s.moment w).2.store = w.store :=
    Tokens.keeps_issue Frame.allowsTokens_store _ _ _ s.moment w
  have hstep : a.step s w = (.ok (.pair (a.tokens.pair u.id role limited s.moment)),
      ((a.tokens.issue u.id role limited).perform s.moment w).2) := by
    rw [step, hs, Operation.perform, Action.perform_map, hissued]
    rfl
  have hwithin := MemoryCache.within_put (MemoryCache.within_makeRoom hcw)
    (a.tokens.noted u.id role s.moment) hroom
  have hmay : a.tokens.MayExchange (a.tokens.minted u.id s.moment) t.moment.now
      ((c.makeRoom s.now (Tokens.key (a.tokens.minted u.id s.moment))).put
        (Tokens.key (a.tokens.minted u.id s.moment)) (a.tokens.noted u.id role s.moment))
      ((a.tokens.issue u.id role limited).perform s.moment w).2.store u :=
    mayExchange_of_put (RefreshToken.nonce_ne_empty _ _) hlive hfit (hstore ▸ hu) hf
  have hrefreshed := (Tokens.refresh_of_mayExchange hcache hwithin hmay).1
  rw [hstep, step, ht, Operation.perform, Action.perform_map, hrefreshed]
  exact ⟨rfl, rfl⟩

/-- A pair that was issued as limited directly: its refresh token is exchanged for a full one. -/
theorem exchanged_though_limited :
    let a : Accounts := ⟨⟨⟨"secret", .hs256⟩, 60, 120⟩, {}, 4, 16⟩
    let u := (NewUser.customer (.phone "+491234567")).toUser 1
    let w := Action.worldOf (.memory (.new 1)) (.memory (MemoryStore.empty.insertUser u)) .log
    let s : Step := ⟨0, ⟨id, id, id, id⟩, .issue 1 .customer true⟩
    ∃ p q c c', (a.step s w).1 = .ok (.pair p) ∧
      AccessToken.verify a.tokens.signer s.moment.second p.accessToken = .ok c ∧
      c.limited = true ∧
      (a.step { s with operation := .refresh p.refreshToken } (a.step s w).2).1 = .ok (.pair q) ∧
      AccessToken.verify a.tokens.signer s.moment.second q.accessToken = .ok c' ∧
      c'.limited = false := by
  intro a u w s
  have hlive : s.now < s.now + seconds a.tokens.refreshLifetime := by decide
  obtain ⟨hissued, hrefreshed⟩ := refresh_of_issued (a := a) (w := w) (s := s) (u := u)
    (t := { s with operation := .refresh (a.tokens.minted 1 s.moment) }) rfl rfl rfl
    (MemoryCache.within_new 1) rfl hlive (by decide) rfl rfl
  exact ⟨_, _, _, _, hissued, a.tokens.verify_access_self (by decide) (by decide), rfl,
    hrefreshed, a.tokens.verify_access_self (by decide) (by decide), rfl⟩

end Accounts

end AuthCore
