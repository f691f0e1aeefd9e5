import AuthCore.Proofs.Otp.Delivery
import AuthCore.Proofs.Token.Exchange

/-!
# Credentials over a cache server

With a cache on a server it is the reply to a script that decides who gets a credential. An exchange
of a refresh token looks at the entry of the token, has a script take the entry away, and notes the
entry of the new token; it goes from one to the next only if the reply allows it
(`Tokens.Proceeds`). A request for a one-time code and a check of a guess each ask for one script.

The replies are arbitrary: a server may answer anything to anything.
-/

namespace AuthCore

open AuthCore.Action

/-! ### Single uses of the cache -/

/-- A time to live of whole seconds is sent as it is, but for none at all. -/
theorem RemoteCache.seconds_seconds (n : Nat) : seconds (AuthCore.seconds n) = max 1 n := by
  have hdiv : n * 1000000000 / 1000000000 = n := Nat.mul_div_cancel n (by decide)
  rw [seconds, AuthCore.seconds, second, hdiv, max_comm]

/-- A text is found if the reply is one. -/
theorem RemoteCache.get_eq_some {c : RemoteCache} {key text : String} :
    (c.get key).1 = .ok (some text) ↔ (c.exec ["GET", key]).1.text? = some text := by
  rw [get, read_fst_eq_ok]
  cases (c.exec ["GET", key]).1 <;> simp [Reply.text?]

namespace Tokens

variable {t : Tokens} {m : Moment} {w : World} {c : RemoteCache} {token e : String} {user : User}

/-- A reply holds an entry: it is a text that reads as the entry. -/
def Holds (r : Reply) (entry : String) : Prop :=
  ∃ text, r.text? = some text ∧ (Json.ofText? text).bind Json.string? = some entry

theorem holds_entryText (entry : String) : Holds (.bulk (entryText entry)) entry := by
  refine ⟨_, rfl, ?_⟩
  rw [entryText, Json.ofText?_string]
  rfl

/-- An entry fits a token, and its user is there and need not sign in again. -/
structure Fits (t : Tokens) (s : Store) (token entry : String) (user : User) : Prop where
  found : ∃ id, RefreshToken.verify t.signer token = .ok id ∧ entryUser? entry = some id ∧
    s.findById id = .ok (some user)
  goesOn : user.isForceLogin = false

/-- What a server is asked in order to look at the entry of a token. -/
def looking (token : String) : RemoteCache.Command := .plain ["GET", key token]

/-- What a server is asked in order to take an entry away, if it is still what was read. -/
def taking (token entry : String) : RemoteCache.Command :=
  .script .compareAndDelete (key token) [entryText entry]

/-- What a server is asked in order to note the entry of a new token. -/
def noting (t : Tokens) (user : Int) (role : Role) (m : Moment) : RemoteCache.Command :=
  .plain ["SETEX", key (t.minted user m), Text.showNat (max 1 t.refreshLifetime),
    entryText (entry user role)]

/-- How the last part of an exchange goes, reply by reply: the entry has to be taken away, which a
positive number says, and then that of the new token has to be noted. -/
inductive Renews (t : Tokens) (m : Moment) (token entry : String) (user : User) :
    RemoteCache.Dialogue → Answer TokenPair → Prop
  | refused {r : Reply} {e : Error} (h : ∀ n, r.integer? = some n → n ≤ 0) :
      Renews t m token entry user [(taking token entry, r)] (.error e)
  | unnoted {r r' : Reply} {n : Int} {e : Error} (hr : r.integer? = some n) (hn : 0 < n)
      (hr' : r'.isFine = false) :
      Renews t m token entry user
        [(taking token entry, r), (t.noting user.id user.role m, r')] (.error e)
  | renewed {r r' : Reply} {n : Int} (hr : r.integer? = some n) (hn : 0 < n)
      (hr' : r'.isFine = true) :
      Renews t m token entry user
        [(taking token entry, r), (t.noting user.id user.role m, r')]
        (.ok (t.pair user.id user.role false m))

/-- How an exchange goes, reply by reply: the entry of the token has to be there and to fit. -/
inductive Proceeds (t : Tokens) (s : Store) (m : Moment) (token : String) :
    RemoteCache.Dialogue → Answer TokenPair → Prop
  | stopped {r : Reply} {e : Error}
      (h : ∀ entry user, Holds r entry → ¬ t.Fits s token entry user) :
      Proceeds t s m token [(looking token, r)] (.error e)
  | wentOn {r : Reply} {entry : String} {user : User} {talk : RemoteCache.Dialogue}
      {a : Answer TokenPair} (hr : Holds r entry) (h : t.Fits s token entry user)
      (hrest : t.Renews m token entry user talk a) :
      Proceeds t s m token ((looking token, r) :: talk) a

/-- A pair is answered exactly if the entry of the new token was noted. -/
theorem Proceeds.exists_ok_iff {s : Store} {talk : RemoteCache.Dialogue} {a : Answer TokenPair}
    (h : t.Proceeds s m token talk a) : (∃ p, a = .ok p) ↔
      ∃ user role r, (t.noting user role m, r) ∈ talk ∧ r.isFine = true := by
  cases h with
  | stopped => simp [looking, noting]
  | @wentOn _ _ user _ _ _ _ hrest =>
    cases hrest with
    | refused => simp [looking, taking, noting]
    | unnoted _ _ hfault => simp +contextual [looking, taking, noting, hfault]
    | renewed _ _ hfine =>
      refine iff_of_true ⟨_, rfl⟩ ⟨user.id, user.role, _, ?_, hfine⟩
      exact List.mem_cons_of_mem _ (List.mem_cons_of_mem _ List.mem_cons_self)

theorem get_remote_snd (now : Nat) :
    (Cache.get Json.string? (key token) now (.remote c)).2 = .remote (c.ask (looking token)).2 :=
  congrArg Cache.remote RemoteCache.read_snd

/-- An entry is found if the reply holds it. -/
theorem get_remote_eq_some {now : Nat} :
    (Cache.get Json.string? (key token) now (.remote c)).1 = .ok (some e) ↔
      Holds (c.ask (looking token)).1 e := by
  have hget : (Cache.get Json.string? (key token) now (.remote c)).1 =
      (c.get (key token)).1.bind (Cache.parse Json.string?) := rfl
  rw [hget]
  constructor
  · intro h
    rcases hr : (c.get (key token)).1 with _ | _ | text
    · rw [hr] at h; cases h
    · rw [hr] at h; cases h
    · refine ⟨text, RemoteCache.get_eq_some.1 hr, ?_⟩
      rw [hr] at h
      simp only [Except.bind, Cache.parse] at h
      split at h
      next a ha => rw [ha]; exact congrArg some (Option.some.inj (Except.ok.inj h))
      next => cases h
  · rintro ⟨text, htext, hentry⟩
    rw [RemoteCache.get_eq_some.2 htext]
    simp only [Except.bind, Cache.parse, hentry]

/-! ### The first part of an exchange -/

/-- An exchange whose entry fits goes on to its last part. -/
theorem perform_refresh_of_ready {f : Cache}
    (hg : Cache.get Json.string? (key token) m.now w.cache = (.ok (some e), f))
    (h : t.Fits w.store token e user) :
    (t.refresh token).perform m w = (t.renew token e user).perform m { w with cache := f } := by
  obtain ⟨⟨id, hv, he, hu⟩, hf⟩ := h
  rw [perform_refresh_of_fits hg hv he, perform_exchange_of_found (w := { w with cache := f }) hu,
    hf]
  rfl

/-- An exchange that finds no entry that fits fails, and uses the cache no more. -/
theorem perform_refresh_of_unready {r : Except CacheFault (Option String)} {f : Cache}
    (hg : Cache.get Json.string? (key token) m.now w.cache = (r, f))
    (h : ∀ e user, r = .ok (some e) → ¬ t.Fits w.store token e user) :
    ∃ e, ((t.refresh token).perform m w).1 = .error e ∧
      ((t.refresh token).perform m w).2.cache = f := by
  rcases r with fault | _ | entry
  · rw [refresh_eq, perform_bind, perform_cached, hg]
    exact ⟨_, rfl, rfl⟩
  · rw [refresh_eq, perform_bind, perform_cached, hg]
    exact ⟨_, rfl, rfl⟩
  · have hread : (cached fun now => Cache.get Json.string? (key token) now).perform m w =
        (.ok (some entry), { w with cache := f }) := by
      rw [perform_cached, hg]
      rfl
    have hthere (v : World) : (orReject .refreshTokenExpired (some entry)).perform m v =
        (.ok entry, v) := rfl
    cases hv : RefreshToken.verify t.signer token with
    | error e =>
      rw [refresh_eq, perform_bind_ok hread, perform_bind_ok (hthere _), perform_bind,
        perform_ofAnswer, hv]
      exact ⟨_, rfl, rfl⟩
    | ok id =>
      by_cases he : entryUser? entry = some id
      · rw [perform_refresh_of_fits hg hv he]
        cases hu : w.store.findById id with
        | error e =>
          rw [exchange, perform_bind, perform_query, hu]
          exact ⟨_, rfl, rfl⟩
        | ok o =>
          cases o with
          | none =>
            rw [exchange, perform_bind, perform_query, hu]
            exact ⟨_, rfl, rfl⟩
          | some user =>
            have hforced : user.isForceLogin = true :=
              Bool.of_not_eq_false fun hf => h entry user rfl ⟨⟨id, hv, he, hu⟩, hf⟩
            rw [perform_exchange_of_found (w := { w with cache := f }) hu, if_pos hforced]
            exact ⟨_, rfl, rfl⟩
      · have hverified (v : World) :
            (ofAnswer ((RefreshToken.verify t.signer token).mapError .auth)).perform m v =
              (.ok id, v) := by
          rw [perform_ofAnswer, hv]
          rfl
        rw [refresh_eq, perform_bind_ok hread, perform_bind_ok (hthere _),
          perform_bind_ok (hverified _), if_pos he]
        exact ⟨_, rfl, rfl⟩

/-! ### The last part of an exchange -/

/-- An entry is taken away if the script says so with a positive number. -/
theorem perform_taking (hc : w.cache = .remote c) (token entry : String) :
    (cached fun now => Cache.compareAndDelete (key token) (entryText entry) now).perform m w =
      (match (c.ask (taking token entry)).1.integer? with
        | some n => .ok (decide (0 < n))
        | none => .error (.cache (.compare (key token))),
        { w with cache := .remote (c.ask (taking token entry)).2 }) := by
  have hread : Cache.compareAndDelete (key token) (entryText entry) m.now (.remote c) =
      Cache.ofRemote (RemoteCache.read (fun r => r.integer?.map fun n => decide (0 < n))
        (.compare (key token)) (c.ask (taking token entry))) := rfl
  rw [perform_cached, hc, hread]
  cases hr : (c.ask (taking token entry)).1.integer? with
  | none => simp only [RemoteCache.read, hr]; rfl
  | some n => simp only [RemoteCache.read, hr]; rfl

/-- The entry of a new token is noted by any reply but an error. -/
theorem set_remote (user : Int) (role : Role) (now : Nat) :
    Cache.set (key (t.minted user m)) (entryText (entry user role))
        (some (seconds t.refreshLifetime)) now (.remote c) =
      Cache.ofRemote (RemoteCache.read (fun r => if r.isFine then some () else none)
        (.set (key (t.minted user m))) (c.ask (t.noting user role m))) := by
  rw [Cache.set, RemoteCache.set, RemoteCache.seconds_seconds]
  rfl

/-- A pair is answered exactly if its entry was noted. -/
theorem issue_remote (hc : w.cache = .remote c) (user : Int) (role : Role) (limited : Bool) :
    ((t.issue user role limited).perform m w).2.cache = .remote (c.ask (t.noting user role m)).2 ∧
      if (c.ask (t.noting user role m)).1.isFine then
        ((t.issue user role limited).perform m w).1 = .ok (t.pair user role limited m)
      else ∃ e, ((t.issue user role limited).perform m w).1 = .error e := by
  have hset := t.set_remote (c := c) (m := m) user role m.now
  rw [minted, ← hc] at hset
  simp only [issue, perform_bind, perform_read, perform_cacheSet, hset, Cache.ofRemote,
    RemoteCache.read_snd]
  cases hfine : (c.ask (t.noting user role m)).1.isFine with
  | true =>
    simp only [RemoteCache.read, hfine, if_true]
    exact ⟨rfl, rfl⟩
  | false =>
    simp only [RemoteCache.read, hfine, Bool.false_eq_true, if_false]
    exact ⟨rfl, _, rfl⟩

/-- An exchange ends with the pair that was issued. -/
theorem perform_renew_of_taken {v : World} (user : User)
    (h : (cached fun now => Cache.compareAndDelete (key token) (entryText e) now).perform m w =
      (.ok true, v)) :
    ((t.renew token e user).perform m w).1 =
        ((t.issue user.id user.role false).perform m v).1 ∧
      ((t.renew token e user).perform m w).2.cache =
        ((t.issue user.id user.role false).perform m v).2.cache := by
  have hgo : (require true .refreshTokenExpired).perform m v = (.ok (), v) := rfl
  rw [renew, perform_bind_ok h, perform_bind_ok hgo, perform_bind]
  rcases (t.issue user.id user.role false).perform m v with ⟨_ | pair, v'⟩
  · exact ⟨rfl, rfl⟩
  · exact ⟨rfl, rfl⟩

/-- The last part of an exchange goes as the replies say. -/
theorem renew_remote (hc : w.cache = .remote c) (token e : String) (user : User) : ∃ talk d,
    ((t.renew token e user).perform m w).2.cache = .remote d ∧ c.Talk talk d ∧
      t.Renews m token e user talk ((t.renew token e user).perform m w).1 := by
  have htaken := perform_taking (m := m) hc token e
  cases hr : (c.ask (taking token e)).1.integer? with
  | none =>
    rw [hr] at htaken
    rw [renew, perform_bind, htaken]
    refine ⟨_, _, rfl, .single c (taking token e), .refused fun n hn => ?_⟩
    cases hr.symm.trans hn
  | some n =>
    rw [hr] at htaken
    by_cases hn : 0 < n
    · simp only [hn, decide_true] at htaken
      obtain ⟨hanswer, hcache⟩ := perform_renew_of_taken (t := t) user htaken
      obtain ⟨hnoted, hpair⟩ := issue_remote (t := t) (m := m)
        (w := { w with cache := .remote (c.ask (taking token e)).2 }) rfl user.id user.role false
      refine ⟨_, _, hcache.trans hnoted, .ask (taking token e) (.single _ _), ?_⟩
      rw [hanswer]
      split at hpair
      next hfine =>
        rw [hpair]
        exact .renewed hr hn hfine
      next hfault =>
        obtain ⟨fault, hfault'⟩ := hpair
        rw [hfault']
        exact .unnoted hr hn (Bool.of_not_eq_true hfault)
    · simp only [hn, decide_false] at htaken
      rw [renew, perform_bind_ok htaken]
      refine ⟨_, _, rfl, .single c (taking token e), .refused fun k hk => ?_⟩
      obtain rfl := Option.some.inj (hr.symm.trans hk)
      exact not_lt.1 hn

/-- An exchange over a server goes as the replies say. -/
theorem refresh_remote (hc : w.cache = .remote c) (token : String) : ∃ talk d,
    ((t.refresh token).perform m w).2.cache = .remote d ∧ c.Talk talk d ∧
      t.Proceeds w.store m token talk ((t.refresh token).perform m w).1 := by
  have hsnd : (Cache.get Json.string? (key token) m.now w.cache).2 =
      .remote (c.ask (looking token)).2 := by
    rw [hc, get_remote_snd]
  by_cases h : ∃ entry user, Holds (c.ask (looking token)).1 entry ∧
      t.Fits w.store token entry user
  · obtain ⟨entry, user, hr, hfits⟩ := h
    have hfst : (Cache.get Json.string? (key token) m.now w.cache).1 = .ok (some entry) := by
      rw [hc, get_remote_eq_some]
      exact hr
    rw [perform_refresh_of_ready (Prod.ext hfst hsnd) hfits]
    obtain ⟨talk, d, hd, htalk, hrenews⟩ := renew_remote (t := t) (m := m)
      (w := { w with cache := .remote (c.ask (looking token)).2 }) rfl token entry user
    exact ⟨_, d, hd, .ask _ htalk, .wentOn hr hfits hrenews⟩
  · have hunready : ∀ entry user, (Cache.get Json.string? (key token) m.now w.cache).1 =
        .ok (some entry) → ¬ t.Fits w.store token entry user := by
      intro entry user hfst hfits
      rw [hc, get_remote_eq_some] at hfst
      exact h ⟨entry, user, hfst, hfits⟩
    obtain ⟨e, hanswer, hcache⟩ :=
      perform_refresh_of_unready (f := .remote _) (Prod.ext rfl hsnd) hunready
    refine ⟨_, _, hcache, .single c (looking token), ?_⟩
    rw [hanswer]
    exact .stopped fun entry user hr hfits => h ⟨entry, user, hr, hfits⟩

end Tokens

/-! ### One-time codes -/

namespace Otp

variable {o : OtpConfig} {u : Username} {m : Moment} {w : World} {c : RemoteCache}

/-- What a server is asked in order to check a guess at a code. -/
def checking (o : OtpConfig) (u : Username) (guess : String) : RemoteCache.Command :=
  .script .check (key u) [codeField, retryField, guess, Text.showInt o.maxRetries]

theorem requested_eq_ok {r : Except CacheFault Bool} : requested r = .ok () ↔ r = .ok true := by
  rcases r with _ | _ | _
  · exact iff_of_false nofun nofun
  · exact iff_of_false nofun nofun
  · exact iff_of_true rfl rfl

/-- What a request over a server asks for, and what it answers. -/
theorem perform_request_remote (hc : w.cache = .remote c) (purpose : OtpPurpose)
    (greeted : Option String) :
    ((request o u purpose greeted).perform m w).2.cache =
        .remote (c.ask (creation u (max 1 (window o)) (code o m))).2 ∧
      (((request o u purpose greeted).perform m w).1 = .ok () ↔
        (c.ask (creation u (max 1 (window o)) (code o m))).1.integer? = some 1) := by
  have hcreate : w.cache.createHash (key u) [(codeField, code o m), (retryField, "0")]
      (seconds (window o)) m.now = Cache.ofRemote
        (RemoteCache.read (fun r => r.integer?.map (· == 1)) (.createHash (key u))
          (c.ask (creation u (max 1 (window o)) (code o m)))) := by
    rw [hc, Cache.createHash, createHash_remote, RemoteCache.seconds_seconds]
  obtain ⟨hanswer, hcache⟩ := perform_request purpose greeted hcreate
  refine ⟨by rw [hcache, RemoteCache.read_snd], ?_⟩
  rw [hanswer, requested_eq_ok]
  exact RemoteCache.read_fst_eq_ok.trans (by simp)

/-- What a request over a server hands over. -/
theorem handsOver_request_remote (hc : w.cache = .remote c) (purpose : OtpPurpose)
    (greeted : Option String) : (request o u purpose greeted).HandsOver m w
      (if (c.ask (creation u (max 1 (window o)) (code o m))).1.integer? = some 1 ∧
          o.testMode = false
        then some ⟨u.value, message o u (code o m) purpose greeted⟩ else none) := by
  obtain ⟨-, hanswer⟩ := perform_request_remote (o := o) (u := u) (m := m) hc purpose greeted
  rw [request_eq] at hanswer ⊢
  rcases hp : (prepare o u purpose greeted).perform m w with ⟨e | d, v⟩
  · have hno : ¬ (c.ask (creation u (max 1 (window o)) (code o m))).1.integer? = some 1 := by
      rw [← hanswer, perform_bind_error hp]
      nofun
    rw [if_neg fun h => hno h.1]
    exact handsOver_of_error (inward_prepare _ _) hp
  · have hone : (c.ask (creation u (max 1 (window o)) (code o m))).1.integer? = some 1 := by
      rw [← hanswer, perform_bind_ok hp, perform_handOver]
    obtain ⟨rfl, -⟩ := prepare_eq_ok hp
    have h := handsOver_of_ok (c := o) (inward_prepare _ _) hp
    cases ht : o.testMode with
    | true => simpa [ht] using h
    | false => simpa [ht, hone] using h

theorem outcome_eq_matched {n : Int} : RemoteCache.outcome n = .matched ↔ n = 0 := by
  unfold RemoteCache.outcome
  split
  next h => exact iff_of_false nofun (by omega)
  next =>
    split
    next h => exact iff_of_true rfl h
    next h =>
      split
      · exact iff_of_false nofun h
      · exact iff_of_false nofun h

/-- What a check over a server asks for, and what it answers. -/
theorem perform_verify_remote (hc : w.cache = .remote c) (guess : String) :
    ((verify o u guess).perform m w).2.cache = .remote (c.ask (checking o u guess)).2 ∧
      (((verify o u guess).perform m w).1 = .ok () ↔
        (c.ask (checking o u guess)).1.integer? = some 0) := by
  have hread : Cache.check (key u) codeField guess retryField o.maxRetries m.now w.cache =
      Cache.ofRemote (RemoteCache.read (fun r => r.integer?.map RemoteCache.outcome)
        (.check (key u)) (c.ask (checking o u guess))) := by
    rw [hc]
    rfl
  cases hr : (c.ask (checking o u guess)).1.integer? with
  | none =>
    simp only [RemoteCache.read, hr, Option.map_none] at hread
    rw [verify, perform_bind, perform_cached, hread]
    exact ⟨rfl, iff_of_false (fun h => by cases h) (fun h => by cases h)⟩
  | some n =>
    simp only [RemoteCache.read, hr, Option.map_some] at hread
    obtain ⟨hanswer, hcache⟩ := perform_verify hread
    refine ⟨hcache, ?_⟩
    rw [hanswer, Option.some.injEq, ← outcome_eq_matched]
    split
    next h => exact iff_of_true rfl h
    next h => exact iff_of_false (fun h => by cases h) h

end Otp

/-- With a cache on a server, every credential hangs on the replies. An exchange of a refresh token
looks at the entry, has it taken away, and notes that of the new token, one after the other as long
as the replies allow it, and answers a pair exactly if the last one was done. A request for a
one-time code asks for one script and succeeds exactly if that answers one; then the message is
delivered, but for the test mode. A check of a guess asks for one script and passes exactly if that
answers zero. As long as the server knows its scripts, what was asked is word for word what was
sent. -/
theorem credentials_over_server {w : World} {c : RemoteCache} (hc : w.cache = .remote c)
    (m : Moment) :
    (∀ (talk : RemoteCache.Dialogue) (d : RemoteCache), c.Talk talk d → c.KnowsScripts →
        d.sent = (talk.map (·.1.words)).reverse ++ c.sent) ∧
      (∀ (t : Tokens) (token : String), ∃ talk d,
        ((t.refresh token).perform m w).2.cache = .remote d ∧ c.Talk talk d ∧
        t.Proceeds w.store m token talk ((t.refresh token).perform m w).1 ∧
        ((∃ p, ((t.refresh token).perform m w).1 = .ok p) ↔
          ∃ user role r, (t.noting user role m, r) ∈ talk ∧ r.isFine = true)) ∧
      (∀ (o : OtpConfig) (u : Username) (purpose : OtpPurpose) (greeted : Option String), ∃ r d,
        ((Otp.request o u purpose greeted).perform m w).2.cache = .remote d ∧
        c.Talk [(Otp.creation u (max 1 (Otp.window o)) (Otp.code o m), r)] d ∧
        (((Otp.request o u purpose greeted).perform m w).1 = .ok () ↔ r.integer? = some 1) ∧
        (Otp.request o u purpose greeted).HandsOver m w
          (if r.integer? = some 1 ∧ o.testMode = false
            then some ⟨u.value, Otp.message o u (Otp.code o m) purpose greeted⟩ else none)) ∧
      ∀ (o : OtpConfig) (u : Username) (guess : String), ∃ r d,
        ((Otp.verify o u guess).perform m w).2.cache = .remote d ∧
        c.Talk [(Otp.checking o u guess, r)] d ∧
        (((Otp.verify o u guess).perform m w).1 = .ok () ↔ r.integer? = some 0) := by
  refine ⟨fun _ _ htalk hknown => htalk.sent_eq hknown, fun t token => ?_,
    fun o u purpose greeted => ?_, fun o u guess => ?_⟩
  · obtain ⟨talk, d, hcache, htalk, hex⟩ := t.refresh_remote (m := m) hc token
    exact ⟨talk, d, hcache, htalk, hex, hex.exists_ok_iff⟩
  · obtain ⟨hcache, hanswer⟩ := Otp.perform_request_remote (m := m) hc purpose greeted
    exact ⟨_, _, hcache, .single c _, hanswer, Otp.handsOver_request_remote hc purpose greeted⟩
  · obtain ⟨hcache, hanswer⟩ := Otp.perform_verify_remote (o := o) (u := u) (m := m) hc guess
    exact ⟨_, _, hcache, .single c _, hanswer⟩

/-- A server grants a one-time code, whose message cannot be delivered, and an exchange of a refresh
token, reply by reply. -/
theorem credentials_over_server_granted :
    let m := (Draws.ofSeed 0).moment 0
    let c : RemoteCache := ⟨[.integer 1], []⟩
    let w := Action.worldOf (.remote c) (.memory .empty) (.outbox (some (.network .failed)))
    let request := Otp.request {} (.phone "+4915") .verification none
    let t : Tokens := ⟨⟨"secret", .hs256⟩, 60, 120⟩
    let u : User := (NewUser.customer (.email "a@b.c")).toUser 1
    let d : RemoteCache :=
      ⟨[.bulk (Tokens.entryText (Tokens.entry 1 .customer)), .integer 1, .status "OK"], []⟩
    let v := Action.worldOf (.remote d) (.memory (MemoryStore.empty.insertUser u)) .log
    (w.cache = .remote c ∧ c.KnowsScripts ∧ (request.perform m w).1 = .ok () ∧
      (request.perform m w).2.cache =
        .remote ⟨[], [(Otp.creation (.phone "+4915") 120 "79246").words]⟩ ∧
      request.HandsOver m w (some ⟨"+4915", .sms "Your verification code: 79246"⟩)) ∧
    v.cache = .remote d ∧ d.KnowsScripts ∧
      ∃ p, ((t.refresh (t.minted 1 m)).perform m v).1 = .ok p := by
  intro m c w request t u d v
  refine ⟨?_, rfl, ?_, ?_⟩
  · obtain ⟨-, -, hrequest, -⟩ := credentials_over_server (w := w) (c := c) rfl m
    obtain ⟨r, f, hcache, htalk, hanswer, hhanded⟩ :=
      hrequest {} (.phone "+4915") .verification none
    cases htalk with
    | ask _ hrest =>
      cases hrest
      have hone : (c.ask (Otp.creation (.phone "+4915") (max 1 (Otp.window {}))
          (Otp.code {} m))).1 = .integer 1 := rfl
      have hcode : Otp.code {} m = "79246" := by decide +kernel
      have hmessage : Otp.message {} (.phone "+4915") (Otp.code {} m) .verification none =
          .sms "Your verification code: 79246" := by decide +kernel
      rw [hone] at hanswer hhanded
      rw [hmessage, if_pos ⟨rfl, rfl⟩] at hhanded
      rw [hcode] at hcache
      exact ⟨rfl, List.forall_mem_singleton.2 rfl, hanswer.2 rfl, hcache, hhanded⟩
  · simp [RemoteCache.KnowsScripts, d, Reply.isUnknownScript]
  · obtain ⟨-, hrefresh, -⟩ := credentials_over_server (w := v) (c := d) rfl m
    obtain ⟨talk, f, -, htalk, hproceeds, -⟩ := hrefresh t (t.minted 1 m)
    have hholds := Tokens.holds_entryText (Tokens.entry 1 .customer)
    have hfits : t.Fits v.store (t.minted 1 m) (Tokens.entry 1 .customer) u :=
      ⟨⟨1, RefreshToken.verify_sign (by decide) (by decide), Tokens.entryUser?_entry (by decide) _,
        rfl⟩, rfl⟩
    generalize ((t.refresh (t.minted 1 m)).perform m v).1 = answer at hproceeds ⊢
    -- every other way to go is at odds with one of the three replies
    cases hproceeds with
    | stopped hunfit =>
      cases htalk with
      | ask _ hend => exact absurd hfits (hunfit _ _ hholds)
    | wentOn _ _ hrest =>
      cases htalk with
      | ask _ htalk =>
        cases hrest with
        | refused hno =>
          cases htalk with
          | ask _ hend => exact absurd (hno 1 rfl) (by decide)
        | unnoted _ _ hfault =>
          cases htalk with
          | ask _ htalk =>
            cases htalk with
            | ask _ hend => cases hfault
        | renewed => exact ⟨_, rfl⟩

end AuthCore
