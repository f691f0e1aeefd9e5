import AuthCore.Proofs.Cache.Frame
import AuthCore.Proofs.Text.Integer
import Mathlib.Data.List.TakeWhile

/-!
# One-time codes in a memory cache

What requesting and checking a code do to the entry of a username. As far as anybody can see, a
username has either no code or one that is pending: the code itself, when it expires, and how many
guesses at it were wrong (`Otp.Pending`). A guess is admitted if it is right and not too many were
wrong before; every other one counts as wrong, whether it was compared or not.
-/

namespace AuthCore

/-! ### Usernames and their keys -/

namespace Username

theorem isAddress_at {cs : List Char} (h : isAddress cs = true) : '@' ∈ cs := by
  by_contra hn
  have hd : cs.dropWhile (· != '@') = [] :=
    List.dropWhile_eq_nil_iff.2 fun c hc => bne_iff_ne.2 fun he => hn (he ▸ hc)
  rw [isAddress, hd] at h
  cases h

theorem isNumber_at {cs : List Char} (h : isNumber cs = true) : '@' ∉ cs := by
  have hdigits (ds : List Char) (hd : (ds.all fun c => '0' ≤ c && c ≤ '9') = true) : '@' ∉ ds :=
    fun hm => absurd (List.all_eq_true.1 hd _ hm) (by decide)
  unfold isNumber at h
  simp only [Bool.and_eq_true] at h
  obtain ⟨-, h⟩ := h
  split at h
  · exact List.not_mem_cons_of_ne_of_not_mem (by decide) (hdigits _ h)
  · exact hdigits _ h

theorem parse?_at {raw : String} {u : Username} (h : parse? raw = some u) :
    u.isEmail = true ↔ '@' ∈ u.value.toList := by
  simp only [parse?] at h
  split at h
  · split at h
    next ha =>
      obtain rfl := Option.some.inj h
      exact iff_of_true rfl (isAddress_at ha)
    next => cases h
  · split at h
    next hn =>
      obtain rfl := Option.some.inj h
      exact iff_of_false Bool.false_ne_true (by simpa [value] using isNumber_at hn)
    next => cases h

/-- Two usernames that were read from texts differ in their values, not only in their kinds. -/
theorem eq_of_value_eq {raw raw' : String} {u v : Username} (hu : parse? raw = some u)
    (hv : parse? raw' = some v) (h : u.value = v.value) : u = v := by
  have hk : u.isEmail = true ↔ v.isEmail = true := by rw [parse?_at hu, parse?_at hv, h]
  cases u <;> cases v <;> simp_all [value, isEmail]

end Username

namespace Otp

variable {c : OtpConfig} {u v : Username} {m : Moment} {w : World} {k : MemoryCache} {now : Nat}

theorem key_eq_iff {u v : Username} : key u = key v ↔ u.value = v.value :=
  ⟨fun h => CacheKey.otp.inj (CacheKey.text_injective h), fun h => by rw [key, key, h]⟩

/-- The code of a username is found under its value. -/
theorem verify_congr (h : u.value = v.value) (guess : String) :
    verify c u guess = verify c v guess := by
  unfold verify
  rw [key_eq_iff.2 h, h]

/-! ### Pending codes -/

/-- A code that was requested and not yet used. -/
structure Pending where
  /-- The code. -/
  code : String
  /-- The first instant at which it is gone. -/
  expiry : Nat
  /-- The number of guesses that were not admitted. -/
  wrong : Nat

/-- The counter of a code after some wrong guesses: from the limit on they are no longer counted. -/
def counted (c : OtpConfig) (wrong : Nat) : Int := min wrong (max c.maxRetries 0)

theorem counted_of_lt {n : Nat} (h : (n : Int) < c.maxRetries) : counted c n = n := by
  unfold counted
  omega

theorem counted_succ_of_lt {n : Nat} (h : (n : Int) < c.maxRetries) :
    counted c (n + 1) = n + 1 := by
  unfold counted
  omega

theorem counted_succ_of_le {n : Nat} (h : c.maxRetries ≤ (n : Int)) :
    counted c (n + 1) = counted c n := by
  unfold counted
  omega

theorem counted_lt_iff {n : Nat} : counted c n < c.maxRetries ↔ (n : Int) < c.maxRetries := by
  unfold counted
  omega

namespace Pending

/-- The fields that the cache keeps for a pending code. -/
def fields (c : OtpConfig) (p : Pending) : OrderedMap String String :=
  .ofList [(codeField, p.code), (retryField, Text.showInt (counted c p.wrong))]

/-- The entry of a pending code. -/
def entry (c : OtpConfig) (p : Pending) : CacheEntry := ⟨.hash (p.fields c), some p.expiry⟩

/-- One more guess was not admitted. -/
def miss (p : Pending) : Pending := { p with wrong := p.wrong + 1 }

/-- Whether a guess at a time is admitted. -/
def Admits (c : OtpConfig) (now : Nat) (guess : String) (p : Pending) : Prop :=
  now < p.expiry ∧ guess = p.code ∧ (p.wrong : Int) < c.maxRetries

variable {p : Pending}

@[simp] theorem isLive_entry : (p.entry c).isLive now = decide (now < p.expiry) := rfl

theorem get?_retry : (p.fields c).get? retryField = some (Text.showInt (counted c p.wrong)) :=
  OrderedMap.get?_insert_self _ _ _

theorem get?_code : (p.fields c).get? codeField = some p.code := by
  have hne : codeField ≠ retryField := by decide
  exact (OrderedMap.get?_insert_of_ne hne _ _).trans (OrderedMap.get?_insert_self _ _ _)

theorem insert_retry (text : String) :
    (p.fields c).insert retryField text = .ofList [(codeField, p.code), (retryField, text)] :=
  OrderedMap.insert_insert _ _ _ _

/-- The counter reads back as long as the limit has 64 bits. -/
theorem guesses?_fields (hL : c.maxRetries < 2 ^ 63) :
    MemoryCache.guesses? (p.fields c) retryField c.maxRetries =
      if (p.wrong : Int) < c.maxRetries then some (p.wrong : Int) else none := by
  have hs : Text.signed? 64 (Text.showInt (counted c p.wrong)) = some (counted c p.wrong) := by
    rw [Text.signed?_showInt, Option.filter_some, if_pos]
    simp only [Bool.and_eq_true, decide_eq_true_eq]
    unfold counted
    omega
  rw [MemoryCache.guesses?, get?_retry, Option.bind_some, hs, Option.filter_some]
  simp only [decide_eq_true_eq, counted_lt_iff]
  split
  next h => rw [counted_of_lt h]
  next => rfl

/-- What a guess at a pending code does to the cache. -/
theorem check_entry (hL : c.maxRetries < 2 ^ 63) (guess : String)
    (h : k.live? now (key u) = some (p.entry c)) :
    k.check now (key u) codeField guess retryField c.maxRetries =
      if (p.wrong : Int) < c.maxRetries then
        if p.code = guess then (.ok .matched, k.drop (key u))
        else (.ok (.mismatch (p.wrong + 1)), k.put (key u) (p.miss.entry c))
      else (.ok .locked, k) := by
  rw [MemoryCache.check, h]
  simp only [entry, guesses?_fields hL, get?_code, Option.some.injEq, insert_retry]
  by_cases hn : (p.wrong : Int) < c.maxRetries
  · have he : Text.showInt (p.wrong + 1) = Text.showInt (counted c p.miss.wrong) :=
      congrArg _ (counted_succ_of_lt hn).symm
    simp only [if_pos hn, he]
    rfl
  · simp only [if_neg hn]

theorem entry_miss_of_le (h : c.maxRetries ≤ (p.wrong : Int)) : p.miss.entry c = p.entry c := by
  have hc : counted c p.miss.wrong = counted c p.wrong := counted_succ_of_le h
  rw [entry, entry, fields, fields, hc]
  rfl

end Pending

/-- From some time on a cache shows of a username's code that it is pending, or that there is
none. -/
def Shows (c : OtpConfig) (u : Username) (now : Nat) (p : Option Pending) (k : MemoryCache) :
    Prop :=
  ∀ later, now ≤ later →
    k.live? later (key u) = (p.map (·.entry c)).filter (·.isLive later)

namespace Shows

variable {p : Option Pending} {d : MemoryCache}

/-- A step that leaves the entry of the code alone goes on showing the same. -/
theorem keep (h : Shows c u now p k) {then' : Nat} (hle : now ≤ then')
    (hd : ∀ later, then' ≤ later → d.live? later (key u) = k.live? later (key u)) :
    Shows c u then' p d :=
  fun later hl => (hd later hl).trans (h later (hle.trans hl))

theorem live?_some {q : Pending} (h : Shows c u now (some q) k) (hq : now < q.expiry) :
    k.live? now (key u) = some (q.entry c) := by
  rw [h now le_rfl, Option.map_some, Option.filter_some, Pending.isLive_entry,
    if_pos (decide_eq_true hq)]

theorem live?_none (h : Shows c u now p k) (hp : ∀ q, p = some q → q.expiry ≤ now) :
    k.live? now (key u) = none := by
  rw [h now le_rfl]
  cases p with
  | none => rfl
  | some q =>
    rw [Option.map_some, Option.filter_some, if_neg]
    exact fun hl => absurd (of_decide_eq_true hl) (not_lt.2 (hp q rfl))

end Shows

/-! ### Checking a code -/

theorem perform_verify {guess : String} {r : HashCheck} {f : Cache}
    (h : Cache.check (key u) codeField guess retryField c.maxRetries m.now w.cache = (.ok r, f)) :
    ((verify c u guess).perform m w).1 =
        (if r = .matched then .ok () else .error (.auth .otpExpiredOrInvalid)) ∧
      ((verify c u guess).perform m w).2.cache = f := by
  rw [verify, Action.perform_bind, Action.perform_cached, h]
  cases r <;> exact ⟨rfl, rfl⟩

/-- A guess matches only at a live entry, which it takes away. -/
theorem live_of_matched {field guess counter : String} {limit : Int} {d : MemoryCache}
    {key : String} (h : k.check now key field guess counter limit = (.ok .matched, d)) :
    (∃ e, k.live? now key = some e) ∧ d = k.drop key := by
  unfold MemoryCache.check at h
  split at h
  next => cases h
  next => cases h
  next fields expiry he =>
    split at h
    next => cases h
    next =>
      split at h
      next => exact ⟨⟨_, he⟩, (Prod.mk.inj h).2.symm⟩
      next => cases h

/-- A check that passes has used up the live entry of the code. -/
theorem live_of_verify (hc : w.cache = .memory k) {guess : String}
    (h : ((verify c u guess).perform m w).1 = .ok ()) :
    (∃ e, k.live? m.now (key u) = some e) ∧
      ((verify c u guess).perform m w).2.cache = .memory (k.drop (key u)) := by
  rcases hx : k.check m.now (key u) codeField guess retryField c.maxRetries with ⟨r, d⟩
  have hcheck : Cache.check (key u) codeField guess retryField c.maxRetries m.now w.cache =
      (r, .memory d) := by
    rw [hc, Cache.check, hx]
    rfl
  cases r with
  | error e =>
    rw [verify, Action.perform_bind, Action.perform_cached, hcheck] at h
    cases h
  | ok r =>
    obtain ⟨ha, hd⟩ := perform_verify hcheck
    by_cases hr : r = .matched
    · obtain ⟨hl, rfl⟩ := live_of_matched (hr ▸ hx)
      exact ⟨hl, hd⟩
    · rw [ha, if_neg hr] at h
      cases h

/-- A guess that is admitted uses the code up, every other one is counted. -/
theorem verify_of_live (hL : c.maxRetries < 2 ^ 63) (hc : w.cache = .memory k) (hk : k.Within)
    {q : Pending} (h : Shows c u m.now (some q) k) (hq : m.now < q.expiry) (guess : String) :
    ∃ d, ((verify c u guess).perform m w).2.cache = .memory d ∧ d.Within ∧
      ((q.Admits c m.now guess ∧ ((verify c u guess).perform m w).1 = .ok () ∧
          Shows c u m.now none d) ∨
        (¬ q.Admits c m.now guess ∧
          ((verify c u guess).perform m w).1 = .error (.auth .otpExpiredOrInvalid) ∧
          Shows c u m.now (some q.miss) d)) := by
  have he := h.live?_some hq
  have hcheck : Cache.check (key u) codeField guess retryField c.maxRetries m.now w.cache =
      Cache.ofMemory (k.check m.now (key u) codeField guess retryField c.maxRetries) := by
    rw [hc, Cache.check]
  rw [Pending.check_entry hL guess he] at hcheck
  by_cases hn : (q.wrong : Int) < c.maxRetries
  · rw [if_pos hn] at hcheck
    by_cases hg : q.code = guess
    · rw [if_pos hg] at hcheck
      obtain ⟨ha, hd⟩ := perform_verify hcheck
      refine ⟨_, hd, MemoryCache.within_drop hk, .inl ⟨⟨hq, hg.symm, hn⟩, ha, fun later hl => ?_⟩⟩
      exact MemoryCache.live?_drop_self
    · rw [if_neg hg] at hcheck
      obtain ⟨ha, hd⟩ := perform_verify hcheck
      refine ⟨_, hd, MemoryCache.within_put hk _ (MemoryCache.hasRoom_of_live he),
        .inr ⟨fun h => hg h.2.1.symm, ha, fun later hl => ?_⟩⟩
      exact MemoryCache.live?_put_self _
  · -- a locked code is not compared, and what is counted stays at the limit
    rw [if_neg hn] at hcheck
    obtain ⟨ha, hd⟩ := perform_verify hcheck
    refine ⟨k, hd, hk, .inr ⟨fun h => hn h.2.2, ha, fun later hl => ?_⟩⟩
    rw [Option.map_some, Pending.entry_miss_of_le (not_lt.1 hn)]
    exact h later hl

/-- Without a live code every guess fails. -/
theorem verify_of_gone (hc : w.cache = .memory k) (hk : k.Within) {p : Option Pending}
    (h : Shows c u m.now p k) (hgone : ∀ q, p = some q → q.expiry ≤ m.now) (guess : String) :
    ∃ d, ((verify c u guess).perform m w).2.cache = .memory d ∧ d.Within ∧
      ((verify c u guess).perform m w).1 = .error (.auth .otpExpiredOrInvalid) ∧
      Shows c u m.now (p.map Pending.miss) d := by
  have hcheck : Cache.check (key u) codeField guess retryField c.maxRetries m.now w.cache =
      (.ok .missing, .memory (k.dropExpired m.now (key u))) := by
    rw [hc, Cache.check, MemoryCache.check, h.live?_none hgone]
    rfl
  obtain ⟨ha, hd⟩ := perform_verify hcheck
  refine ⟨_, hd, MemoryCache.within_dropExpired hk, ha, fun later hl => ?_⟩
  rw [MemoryCache.live?_dropExpired hl, h later hl]
  cases p with
  | none => rfl
  | some q =>
    have hlater : ¬ later < q.expiry := not_lt.2 ((hgone q rfl).trans hl)
    have hmiss : ¬ later < q.miss.expiry := hlater
    simp only [Option.map_some, Option.filter_some, Pending.isLive_entry, hlater, hmiss,
      decide_false, Bool.false_eq_true, if_false]

/-- Whether a guess at a time is admitted, by what is known of the code. -/
def Admits (c : OtpConfig) (now : Nat) (guess : String) (p : Option Pending) : Prop :=
  ∃ q, p = some q ∧ q.Admits c now guess

/-- What a check answers, and what is known of the code afterwards. -/
theorem verify_shows (hL : c.maxRetries < 2 ^ 63) (hc : w.cache = .memory k) (hk : k.Within)
    {p : Option Pending} (h : Shows c u m.now p k) (guess : String) :
    ∃ d, ((verify c u guess).perform m w).2.cache = .memory d ∧ d.Within ∧
      ((Admits c m.now guess p ∧ ((verify c u guess).perform m w).1 = .ok () ∧
          Shows c u m.now none d) ∨
        (¬ Admits c m.now guess p ∧
          ((verify c u guess).perform m w).1 = .error (.auth .otpExpiredOrInvalid) ∧
          Shows c u m.now (p.map Pending.miss) d)) := by
  by_cases hlive : ∃ q, p = some q ∧ m.now < q.expiry
  · obtain ⟨q, rfl, hq⟩ := hlive
    have hadmits : Admits c m.now guess (some q) ↔ q.Admits c m.now guess :=
      ⟨fun ⟨_, he, ha⟩ => Option.some.inj he ▸ ha, fun ha => ⟨q, rfl, ha⟩⟩
    rw [hadmits]
    exact verify_of_live hL hc hk h hq guess
  · have hgone : ∀ q, p = some q → q.expiry ≤ m.now := fun q hq =>
      not_lt.1 fun hlt => hlive ⟨q, hq, hlt⟩
    obtain ⟨d, hd, hdw, ha, hs⟩ := verify_of_gone hc hk h hgone guess
    exact ⟨d, hd, hdw, .inr ⟨fun ⟨q, hq, hadmits⟩ => hlive ⟨q, hq, hadmits.1⟩, ha, hs⟩⟩

/-! ### Requesting a code -/

/-- A delivery that fails is logged. -/
theorem perform_deliver (recipient : String) (message : Message) :
    (deliver recipient message).perform m w =
      match (w.notifier.deliver recipient message).perform m w with
      | (.ok a, v) => (.ok a, v)
      | (.error e, v) => (Action.log (.deliveryFailed recipient e)).perform m v := by
  have hget : (get : Action World).perform m w = (.ok w, w) := rfl
  rw [deliver, Action.perform_bind_ok hget, Action.perform_tryCatch]
  rcases (w.notifier.deliver recipient message).perform m w with ⟨_ | _, v⟩
  · rfl
  · rfl

theorem deliver_ok (recipient : String) (message : Message) :
    ((deliver recipient message).perform m w).1 = .ok () := by
  rw [perform_deliver]
  split
  next => rfl
  next => rfl

/-- What a request answers, by what the cache has answered. -/
def requested : Except CacheFault Bool → Answer Unit
  | .ok true => .ok ()
  | .ok false => .error (.auth .otpExists)
  | .error e => .error (.cache e)

theorem perform_request (purpose : OtpPurpose) (greeted : Option String)
    {r : Except CacheFault Bool} {f : Cache}
    (h : w.cache.createHash (key u) [(codeField, code c m), (retryField, "0")]
      (seconds (window c)) m.now = (r, f)) :
    ((request c u purpose greeted).perform m w).1 = requested r ∧
      ((request c u purpose greeted).perform m w).2.cache = f := by
  rw [request, Action.perform_bind_ok Action.perform_read, Action.perform_bind,
    Action.perform_cacheCreate, h]
  rcases r with e | _ | _
  · exact ⟨rfl, rfl⟩
  · exact ⟨rfl, rfl⟩
  · -- once the code is there, nothing can fail any more
    have hok : (Except.ok true : Except CacheFault Bool).mapError Error.cache = .ok true := rfl
    simp only [hok, Action.perform_bind, Action.perform_require, Action.perform_log, if_true]
    have hsame (message : Message) : Frame.same.Keeps (deliver u.value message) :=
      keeps_deliver _ _
    split
    · exact ⟨rfl, rfl⟩
    · exact ⟨deliver_ok _ _, (hsame _ m _).1⟩

/-- The code that a request makes. -/
def fresh (c : OtpConfig) (m : Moment) : Pending := ⟨code c m, m.now + seconds (window c), 0⟩

theorem entry_fresh : (fresh c m).entry c =
    ⟨.hash (.ofList [(codeField, code c m), (retryField, "0")]),
      some (m.now + seconds (window c))⟩ := by
  have hz : counted c 0 = 0 := by
    unfold counted
    omega
  have hs : Text.showInt 0 = "0" := by
    have h0 : Text.integerDigits 0 = Text.naturalDigits 0 := rfl
    rw [Text.showInt, h0, Text.naturalDigits]
    rfl
  rw [Pending.entry, Pending.fields, fresh, hz, hs]

/-- A request that succeeds found no live code and has made one; any other request leaves things as
they are, and if a code is live it says so. -/
theorem request_shows (hc : w.cache = .memory k) (hk : k.Within) (purpose : OtpPurpose)
    (greeted : Option String) :
    ∃ d, ((request c u purpose greeted).perform m w).2.cache = .memory d ∧ d.Within ∧
      ((((request c u purpose greeted).perform m w).1 = .ok () ∧
          k.live? m.now (key u) = none ∧ Shows c u m.now (some (fresh c m)) d) ∨
        (((∃ e, ((request c u purpose greeted).perform m w).1 = .error e ∧
            ((k.live? m.now (key u)).isSome = true → e = .auth .otpExists)) ∧
          ∀ later, m.now ≤ later → d.live? later (key u) = k.live? later (key u)))) := by
  have hm : (k.makeRoom m.now (key u)).Within := MemoryCache.within_makeRoom hk
  have hframe : ∀ later, m.now ≤ later →
      (k.makeRoom m.now (key u)).live? later (key u) = k.live? later (key u) :=
    fun later hl => MemoryCache.live?_makeRoom hl
  have hcreate : w.cache.createHash (key u) [(codeField, code c m), (retryField, "0")]
      (seconds (window c)) m.now = Cache.ofMemory (k.createHash m.now (key u)
        [(codeField, code c m), (retryField, "0")] (seconds (window c))) := by
    rw [hc, Cache.createHash]
  rw [MemoryCache.createHash] at hcreate
  by_cases hr : (k.makeRoom m.now (key u)).hasRoom (key u) = true
  · rw [if_pos hr, MemoryCache.contains, hframe m.now le_rfl] at hcreate
    cases hl : k.live? m.now (key u) with
    | some e =>
      rw [hl, Option.isSome_some, if_pos rfl] at hcreate
      obtain ⟨ha, hd⟩ := perform_request purpose greeted hcreate
      exact ⟨_, hd, hm, .inr ⟨⟨_, ha, fun _ => rfl⟩, hframe⟩⟩
    | none =>
      rw [hl, Option.isSome_none, if_neg Bool.false_ne_true] at hcreate
      obtain ⟨ha, hd⟩ := perform_request purpose greeted hcreate
      refine ⟨_, hd, MemoryCache.within_put hm _ hr, .inl ⟨ha, rfl, fun later _ => ?_⟩⟩
      rw [Option.map_some, entry_fresh]
      exact MemoryCache.live?_put_self _
  · rw [if_neg hr] at hcreate
    obtain ⟨ha, hd⟩ := perform_request purpose greeted hcreate
    refine ⟨_, hd, hm, .inr ⟨⟨_, ha, fun hl => ?_⟩, hframe⟩⟩
    obtain ⟨e, he⟩ := Option.isSome_iff_exists.1 hl
    exact absurd (MemoryCache.hasRoom_of_live ((hframe m.now le_rfl).trans he)) hr

end Otp

end AuthCore
