import AuthCore.Proofs.Cache.Frame
import AuthCore.Proofs.Token.Refresh

/-!
# Issuing and exchanging in a memory cache

What issuing a pair of tokens and exchanging a refresh token do to the entries of refresh tokens. A
pair is answered exactly if its entry has been noted. Once the old entry of an exchange is taken
away, its place is free for the new one, so from there on the exchange cannot fail.
-/

namespace AuthCore

namespace Tokens

variable {t : Tokens} {m : Moment} {w w' : World} {c d : MemoryCache}

/-- The refresh token issued for a user at a moment. -/
def minted (t : Tokens) (user : Int) (m : Moment) : String :=
  RefreshToken.sign t.signer user m.nonce

/-- The pair issued for a user at a moment. -/
def pair (t : Tokens) (user : Int) (role : Role) (limited : Bool) (m : Moment) : TokenPair :=
  .bearer (t.access user role limited m) (t.minted user m)

/-- The cache entry of the refresh token of a pair. -/
def noted (t : Tokens) (user : Int) (role : Role) (m : Moment) : CacheEntry :=
  ⟨.plain (entryText (entry user role)), some (m.now + seconds t.refreshLifetime)⟩

/-- The keys of refresh tokens. -/
def IsKey (k : String) : Prop := ∃ token, k = key token

/-- What leaves the entries of all refresh tokens alone. -/
def leaving : Frame := .keys IsKey

/-- The entry of a new pair has been put among those of refresh tokens; that of an exchanged token,
if there is one, has been taken away before. -/
def Notes (t : Tokens) (m : Moment) (taken : Option String) (c d : MemoryCache) (p : TokenPair) :
    Prop :=
  ∃ user role limited, p = t.pair user role limited m ∧
    ∀ token later, m.now ≤ later → d.live? later (key token) =
      if token = t.minted user m then (some (t.noted user role m)).filter (·.isLive later)
      else if taken = some token then none
      else c.live? later (key token)

/-! ### Issuing -/

section Issue

variable (user : Int) (role : Role) (limited : Bool)

theorem issue_of_hasRoom (hc : w.cache = .memory c)
    (hr : (c.makeRoom m.now (key (t.minted user m))).hasRoom (key (t.minted user m)) = true) :
    ((t.issue user role limited).perform m w).1 = .ok (t.pair user role limited m) ∧
      ((t.issue user role limited).perform m w).2.cache =
        .memory ((c.makeRoom m.now (key (t.minted user m))).put (key (t.minted user m))
          (t.noted user role m)) := by
  have hs : w.cache.set (key (t.minted user m)) (entryText (entry user role))
      (some (seconds t.refreshLifetime)) m.now =
        (.ok (), .memory ((c.makeRoom m.now (key (t.minted user m))).put (key (t.minted user m))
          (t.noted user role m))) := by
    rw [hc, Cache.set, MemoryCache.set, if_pos hr]
    rfl
  rw [minted] at hs
  simp only [issue, Action.perform_bind, Action.perform_read, Action.perform_cacheSet, hs]
  exact ⟨rfl, rfl⟩

theorem issue_of_full (hc : w.cache = .memory c)
    (hr : (c.makeRoom m.now (key (t.minted user m))).hasRoom (key (t.minted user m)) = false) :
    ((t.issue user role limited).perform m w).1 = .error (.cache (.full c.capacity)) ∧
      ((t.issue user role limited).perform m w).2.cache =
        .memory (c.makeRoom m.now (key (t.minted user m))) := by
  have hs : w.cache.set (key (t.minted user m)) (entryText (entry user role))
      (some (seconds t.refreshLifetime)) m.now =
        (.error (.full c.capacity), .memory (c.makeRoom m.now (key (t.minted user m)))) := by
    rw [hc, Cache.set, MemoryCache.set, hr, MemoryCache.capacity_makeRoom]
    rfl
  rw [minted] at hs
  simp only [issue, Action.perform_bind, Action.perform_read, Action.perform_cacheSet, hs]
  exact ⟨rfl, rfl⟩

theorem notes_put {taken : Option String}
    (hd : ∀ token later, m.now ≤ later → d.live? later (key token) =
      if taken = some token then none else c.live? later (key token)) :
    t.Notes m taken c ((d.makeRoom m.now (key (t.minted user m))).put (key (t.minted user m))
      (t.noted user role m)) (t.pair user role limited m) := by
  refine ⟨user, role, limited, rfl, fun token later hl => ?_⟩
  by_cases ht : token = t.minted user m
  · rw [if_pos ht, ht, MemoryCache.live?_put_self]
  · have hk : key token ≠ key (t.minted user m) := fun h => ht (key_injective h)
    rw [if_neg ht, MemoryCache.live?_put_of_ne hk, MemoryCache.live?_makeRoom hl, hd token later hl]

/-- A pair is answered exactly if its entry has been noted. -/
theorem issue_notes (hc : w.cache = .memory c) (hw : c.Within) :
    ∃ d, ((t.issue user role limited).perform m w).2.cache = .memory d ∧ d.Within ∧
      match ((t.issue user role limited).perform m w).1 with
      | .ok p => t.Notes m none c d p
      | .error _ => ∀ token later, m.now ≤ later →
          d.live? later (key token) = c.live? later (key token) := by
  have hm : (c.makeRoom m.now (key (t.minted user m))).Within := MemoryCache.within_makeRoom hw
  cases hr : (c.makeRoom m.now (key (t.minted user m))).hasRoom (key (t.minted user m)) with
  | true =>
    obtain ⟨ha, hd⟩ := t.issue_of_hasRoom user role limited hc hr
    refine ⟨_, hd, MemoryCache.within_put hm _ hr, ?_⟩
    rw [ha]
    exact notes_put user role limited fun token later _ => by simp
  | false =>
    obtain ⟨ha, hd⟩ := t.issue_of_full user role limited hc hr
    refine ⟨_, hd, hm, ?_⟩
    rw [ha]
    exact fun token later hl => MemoryCache.live?_makeRoom hl

end Issue

/-! ### Exchanging -/

/-- All that an exchange needs: a live entry that fits the token, and a user who may go on. -/
structure MayExchange (t : Tokens) (token : String) (now : Nat) (c : MemoryCache) (s : Store)
    (user : User) : Prop where
  fits : ∃ e expiry id, c.live? now (key token) = some ⟨.plain (entryText e), expiry⟩ ∧
    RefreshToken.verify t.signer token = .ok id ∧ entryUser? e = some id ∧
    s.findById id = .ok (some user)
  goesOn : user.isForceLogin = false

/-- After the old entry has been taken away the new one finds room. -/
theorem issue_after_drop {token : String} {e : CacheEntry} (user : Int) (role : Role)
    (limited : Bool) (hw : c.Within) (hl : c.live? m.now (key token) = some e)
    (hc : w.cache = .memory (c.drop (key token))) :
    ((t.issue user role limited).perform m w).1 = .ok (t.pair user role limited m) ∧
      ∃ d, ((t.issue user role limited).perform m w).2.cache = .memory d ∧ d.Within ∧
        t.Notes m (some token) c d (t.pair user role limited m) := by
  have hr := MemoryCache.hasRoom_makeRoom_drop hw hl m.now (key (t.minted user m))
  obtain ⟨ha, hd⟩ := t.issue_of_hasRoom user role limited hc hr
  refine ⟨ha, _, hd, MemoryCache.within_put (MemoryCache.within_makeRoom
    (MemoryCache.within_drop hw)) _ hr, t.notes_put user role limited fun token' later _ => ?_⟩
  by_cases ht : token = token'
  · rw [if_pos (congrArg some ht), ht, MemoryCache.live?_drop_self]
  · rw [if_neg fun h => ht (Option.some.inj h),
      MemoryCache.live?_drop_of_ne fun h => ht (key_injective h).symm]

/-- A live entry with the right text is taken away. -/
theorem compareAndDelete_of_live {key text : String} {now : Nat} {expiry : Option Nat}
    (hl : c.live? now key = some ⟨.plain text, expiry⟩) :
    Cache.compareAndDelete key text now (.memory c) = (.ok true, .memory (c.drop key)) := by
  rw [Cache.compareAndDelete, MemoryCache.compareAndDelete, hl]
  simp only [Option.map_some, if_true]
  rfl

/-- The last part of an exchange succeeds if the entry is live. -/
theorem renew_of_live {token e : String} {expiry : Option Nat} (user : User)
    (hc : w.cache = .memory c) (hw : c.Within)
    (hl : c.live? m.now (key token) = some ⟨.plain (entryText e), expiry⟩) :
    ((t.renew token e user).perform m w).1 = .ok (t.pair user.id user.role false m) ∧
      ∃ d, ((t.renew token e user).perform m w).2.cache = .memory d ∧ d.Within ∧
        t.Notes m (some token) c d (t.pair user.id user.role false m) := by
  have ht : Cache.compareAndDelete (key token) (entryText e) m.now w.cache =
      (.ok true, .memory (c.drop (key token))) := by
    rw [hc, compareAndDelete_of_live hl]
  obtain ⟨ha, d, hd, hdw, hn⟩ := issue_after_drop (t := t)
    (w := { w with cache := .memory (c.drop (key token)) }) user.id user.role false hw hl rfl
  have hx : (t.renew token e user).perform m w =
      (do let pair ← t.issue user.id user.role false
          Action.log (.tokenRefreshed user.id)
          return pair : Action TokenPair).perform m
        { w with cache := .memory (c.drop (key token)) } := by
    simp only [renew, Action.perform_bind, Action.perform_require, Action.perform_cached, ht]
    rfl
  rw [hx, Action.perform_bind]
  rcases hi : (t.issue user.id user.role false).perform m
    { w with cache := .memory (c.drop (key token)) } with ⟨r, v⟩
  rw [hi] at ha hd
  rw [show r = _ from ha]
  exact ⟨rfl, d, hd, hdw, hn⟩

/-- The text of a live entry is read, and the entry stays. -/
theorem get_of_live {key e : String} {now : Nat} {expiry : Option Nat}
    (hl : c.live? now key = some ⟨.plain (entryText e), expiry⟩) :
    Cache.get Json.string? key now (.memory c) = (.ok (some e), .memory c) := by
  simp only [Cache.get, Cache.getText, MemoryCache.get, hl, Cache.ofMemory, Except.bind,
    parse_entryText]

/-- An exchange gets to its second half if the entry is there and fits. -/
theorem perform_refresh_of_fits {token e : String} {id : Int} {f : Cache}
    (hg : Cache.get Json.string? (key token) m.now w.cache = (.ok (some e), f))
    (hv : RefreshToken.verify t.signer token = .ok id) (he : entryUser? e = some id) :
    (t.refresh token).perform m w = (t.exchange token e id).perform m { w with cache := f } := by
  have hread : (Action.cached fun now => Cache.get Json.string? (key token) now).perform m w =
      (.ok (some e), { w with cache := f }) := by
    rw [Action.perform_cached, hg]
    rfl
  have hs (r : AuthError) (v : World) : (Action.orReject r (some e)).perform m v = (.ok e, v) := rfl
  have ha (v : World) :
      (Action.ofAnswer ((RefreshToken.verify t.signer token).mapError .auth)).perform m v =
        (.ok id, v) := by
    rw [Action.perform_ofAnswer, hv]
    rfl
  rw [refresh_eq, Action.perform_bind_ok hread, Action.perform_bind_ok (hs _ _),
    Action.perform_bind_ok (ha _), if_neg (not_not.2 he)]

/-- The second half of an exchange begins with the user. -/
theorem perform_exchange_of_found {token e : String} {id : Int} {user : User}
    (hu : w.store.findById id = .ok (some user)) :
    (t.exchange token e id).perform m w =
      if user.isForceLogin then (.error (.auth .userForceLogin), w)
      else (t.renew token e user).perform m w := by
  rw [exchange, Action.perform_bind, Action.perform_query, hu]
  simp only [Action.orReject, Action.perform_bind, Action.perform_pure, Action.perform_require]
  cases user.isForceLogin <;> rfl

/-- An exchange that may go on succeeds; the old entry is taken away and that of the new pair is
noted. -/
theorem refresh_of_mayExchange {token : String} {user : User} (hc : w.cache = .memory c)
    (hw : c.Within) (h : t.MayExchange token m.now c w.store user) :
    ((t.refresh token).perform m w).1 = .ok (t.pair user.id user.role false m) ∧
      ∃ d, ((t.refresh token).perform m w).2.cache = .memory d ∧ d.Within ∧
        t.Notes m (some token) c d (t.pair user.id user.role false m) := by
  obtain ⟨⟨e, expiry, id, hl, hv, he, hu⟩, hf⟩ := h
  have hg : Cache.get Json.string? (key token) m.now w.cache = (.ok (some e), w.cache) :=
    hc.symm ▸ get_of_live hl
  rw [perform_refresh_of_fits hg hv he, perform_exchange_of_found hu, hf]
  exact renew_of_live user hc hw hl

/-- The last part of an exchange goes on only if the entry is live. -/
theorem compareAndDelete_inversion {key text : String} {now : Nat}
    (h : (Cache.compareAndDelete key text now (.memory c)).1 = .ok true) :
    ∃ expiry, c.live? now key = some ⟨.plain text, expiry⟩ := by
  rw [Cache.compareAndDelete, MemoryCache.compareAndDelete] at h
  split at h
  next hl =>
    obtain ⟨⟨value, expiry⟩, hl, rfl⟩ := Option.map_eq_some_iff.1 hl
    exact ⟨expiry, hl⟩
  next => cases h

/-- The second half of an exchange goes on only for a user who need not sign in again, and if the
entry is taken away. -/
theorem exchange_inversion {token e : String} {id : Int} {p : TokenPair}
    (h : (t.exchange token e id).perform m w = (.ok p, w')) :
    ∃ user, w.store.findById id = .ok (some user) ∧ user.isForceLogin = false ∧
      (Cache.compareAndDelete (key token) (entryText e) m.now w.cache).1 = .ok true := by
  obtain ⟨o, _, hfound, h₁⟩ := Action.perform_bind_eq_ok.1 h
  obtain ⟨hu, rfl⟩ := Action.query_eq_ok.1 hfound
  obtain ⟨user, _, hthere, h₂⟩ := Action.perform_bind_eq_ok.1 h₁
  obtain ⟨rfl, rfl⟩ := Action.orReject_eq_ok.1 hthere
  obtain ⟨_, _, hallowed, h₃⟩ := Action.perform_bind_eq_ok.1 h₂
  obtain ⟨hf, rfl⟩ := Action.require_eq_ok.1 hallowed
  obtain ⟨taken, _, hcompared, h₄⟩ := Action.perform_bind_eq_ok.1 h₃
  obtain ⟨ht, -⟩ := Action.cached_eq_ok.1 hcompared
  obtain ⟨_, _, htaken, -⟩ := Action.perform_bind_eq_ok.1 h₄
  obtain ⟨rfl, -⟩ := Action.require_eq_ok.1 htaken
  exact ⟨user, hu, by simpa using hf, ht⟩

/-- What an exchange that succeeds has found, whatever the cache is. -/
theorem refresh_inversion {token : String} {p : TokenPair}
    (h : (t.refresh token).perform m w = (.ok p, w')) :
    ∃ e id user, (Cache.get Json.string? (key token) m.now w.cache).1 = .ok (some e) ∧
      RefreshToken.verify t.signer token = .ok id ∧ entryUser? e = some id ∧
      w.store.findById id = .ok (some user) ∧ user.isForceLogin = false ∧
      (Cache.compareAndDelete (key token) (entryText e) m.now
        (Cache.get Json.string? (key token) m.now w.cache).2).1 = .ok true := by
  rw [refresh_eq] at h
  obtain ⟨o, _, hread, h₁⟩ := Action.perform_bind_eq_ok.1 h
  obtain ⟨hg, rfl⟩ := Action.cached_eq_ok.1 hread
  obtain ⟨e, _, hthere, h₂⟩ := Action.perform_bind_eq_ok.1 h₁
  obtain ⟨rfl, rfl⟩ := Action.orReject_eq_ok.1 hthere
  obtain ⟨id, _, hverified, h₃⟩ := Action.perform_bind_eq_ok.1 h₂
  obtain ⟨hid, rfl⟩ := Action.ofAnswer_eq_ok.1 hverified
  split at h₃
  next =>
    obtain ⟨_, _, -, hrejected⟩ := Action.perform_bind_eq_ok.1 h₃
    cases hrejected
  next he =>
    obtain ⟨user, hu, hf, ht⟩ := exchange_inversion h₃
    refine ⟨e, id, user, hg, ?_, not_not.1 he, hu, hf, ht⟩
    cases hr : RefreshToken.verify t.signer token with
    | error _ => rw [hr] at hid; cases hid
    | ok i => rw [hr] at hid; cases hid; rfl

/-- A text is read from a live entry, which stays as it is. -/
theorem get_inversion {key e : String} {now : Nat}
    (h : (Cache.get Json.string? key now (.memory c)).1 = .ok (some e)) :
    (Cache.get Json.string? key now (.memory c)).2 = .memory c := by
  simp only [Cache.get, Cache.getText, Cache.ofMemory, MemoryCache.get] at h ⊢
  cases hl : c.live? now key with
  | none => rw [hl] at h; cases h
  | some v =>
    obtain ⟨value, expiry⟩ := v
    cases value <;> rfl

/-- An exchange that succeeds was one that may go on. -/
theorem mayExchange_of_refresh {token : String} {p : TokenPair} (hc : w.cache = .memory c)
    (h : (t.refresh token).perform m w = (.ok p, w')) :
    ∃ user, t.MayExchange token m.now c w.store user := by
  obtain ⟨e, id, user, hg, hv, he, hu, hf, ht⟩ := refresh_inversion h
  rw [hc] at hg ht
  rw [get_inversion hg] at ht
  obtain ⟨expiry, hl⟩ := compareAndDelete_inversion ht
  exact ⟨user, ⟨e, expiry, id, hl, hv, he, hu⟩, hf⟩

/-- An exchange that fails leaves all live entries alone, whatever they are of. -/
theorem refresh_leaves {K : String → Prop} (token : String) :
    (t.refresh token).Ensures fun m u r w => (∃ p, r = .ok p) ∨ (Frame.keys K).Allows m u w := by
  have hQ : (Frame.keys K).Enters fun m u (r : Answer TokenPair) w =>
      (∃ p, r = .ok p) ∨ (Frame.keys K).Allows m u w :=
    ⟨fun h h' => h'.imp_right ((Frame.keys K).trans h), .inr, fun h => h.imp_right fun h =>
      (Frame.keys K).trans h ((Frame.keys K).outside rfl rfl)⟩
  refine ensures_refresh hQ (Frame.keeps_cacheGet _ _) fun e user m w => ?_
  by_cases hm : ∃ c, w.cache = .memory c ∧ c.Within
  · obtain ⟨c, hc, hw⟩ := hm
    cases ht : (c.compareAndDelete m.now (key token) (entryText e)).1 with
    | true =>
      obtain ⟨expiry, hl⟩ := compareAndDelete_inversion (c := c) (congrArg Except.ok ht)
      exact .inl ⟨_, (renew_of_live user hc hw hl).1⟩
    | false =>
      -- the entry is not what was read, and it stays
      have hx : Cache.compareAndDelete (key token) (entryText e) m.now w.cache =
          (.ok false, .memory c) := by
        rw [hc, Cache.compareAndDelete, MemoryCache.compareAndDelete] at *
        split at ht
        next => cases ht
        next hn => rw [if_neg hn]; rfl
      have hs : ((t.renew token e user).perform m w).2 = { w with cache := .memory c } := by
        simp only [renew, Action.perform_bind, Action.perform_cached, hx]
        rfl
      exact .inr (hs ▸ (Frame.keys K).outside hc.symm rfl)
  · exact .inr fun c hc hw => absurd ⟨c, hc, hw⟩ hm

end Tokens

end AuthCore
