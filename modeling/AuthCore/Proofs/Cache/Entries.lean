import AuthCore.Proofs.Otp.Lifecycle
import AuthCore.Proofs.Token.Ledger

/-!
# What a memory cache holds

Over a run that begins with an empty memory cache, whatever lies in the cache, live or expired, has
the form that its readers expect. Under the key of a refresh token stands the entry of a pair that
was answered (`Tokens.Noted`), under the key of a one-time code a code with its counter
(`Otp.Coded`).

The two kinds of keys never meet, so each of the two is an invariant on its own: for the entries of
tokens it does not matter what is done at the keys of codes, and the other way round. Both are
carried through the parts of the operations by one frame (`Frame.holding`). The time plays no part,
and the clock may even go back.
-/

namespace AuthCore

open AuthCore.Frame

namespace MemoryCache

/-- Whatever lies in the cache, live or not, has a property. -/
def Holds (P : String → CacheValue → Prop) (c : MemoryCache) : Prop :=
  ∀ k e, c.entries.get? k = some e → P k e.value

variable {P Q : String → CacheValue → Prop} {c : MemoryCache} {now : Nat} {key : String}

theorem holds_new (capacity : Nat) : (MemoryCache.new capacity).Holds P := fun _ _ h => nomatch h

namespace Holds

theorem mono (h : c.Holds P) (hPQ : ∀ k v, P k v → Q k v) : c.Holds Q :=
  fun k e he => hPQ k e.value (h k e he)

theorem of_live (h : c.Holds P) {e : CacheEntry} (hl : c.live? now key = some e) :
    P key e.value :=
  h key e (live?_eq_some_iff.1 hl).1

/-! ### Changing an entry -/

theorem put (h : c.Holds P) {e : CacheEntry} (he : P key e.value) : (c.put key e).Holds P := by
  intro k e' hk
  rw [MemoryCache.put, OrderedMap.get?_insert] at hk
  split at hk
  next hkey =>
    rw [hkey, ← Option.some.inj hk]
    exact he
  next => exact h k e' hk

theorem drop (h : c.Holds P) : (c.drop key).Holds P := by
  intro k e hk
  by_cases hkey : k = key
  · rw [MemoryCache.drop, hkey, OrderedMap.get?_erase_self] at hk
    cases hk
  · rw [MemoryCache.drop, OrderedMap.get?_erase_of_ne hkey] at hk
    exact h k e hk

theorem dropExpired (h : c.Holds P) : (c.dropExpired now key).Holds P := by
  unfold MemoryCache.dropExpired
  split
  · split
    · exact h
    · exact h.drop
  · exact h

theorem makeRoom (h : c.Holds P) : (c.makeRoom now key).Holds P := by
  unfold MemoryCache.makeRoom
  split
  · exact h
  · exact fun k e hk => h.of_live (get?_purge.symm.trans hk)

/-! ### Whole operations -/

theorem get (h : c.Holds P) : (c.get now key).2.Holds P := by
  unfold MemoryCache.get
  split
  · exact h
  · exact h
  · exact h.dropExpired

theorem compareAndDelete (h : c.Holds P) (text : String) :
    (c.compareAndDelete now key text).2.Holds P := by
  unfold MemoryCache.compareAndDelete
  split
  · exact h.drop
  · exact h

theorem set (h : c.Holds P) {text : String} (ht : P key (.plain text)) (ttl : Option Nat) :
    (c.set now key text ttl).2.Holds P := by
  simp only [MemoryCache.set]
  split
  · exact h.makeRoom.put ht
  · exact h.makeRoom

theorem createHash (h : c.Holds P) {fields : List (String × String)}
    (hf : P key (.hash (.ofList fields))) (ttl : Nat) :
    (c.createHash now key fields ttl).2.Holds P := by
  simp only [MemoryCache.createHash]
  split
  · split
    · exact h.makeRoom
    · exact h.makeRoom.put hf
  · exact h.makeRoom

/-- A guess may change the counter of the entry it is compared with. -/
theorem check (h : c.Holds P) {field guess counter : String} {limit : Int}
    (hn : ∀ fields n, P key (.hash fields) → guesses? fields counter limit = some n →
      P key (.hash (fields.insert counter (Text.showInt (n + 1))))) :
    (c.check now key field guess counter limit).2.Holds P := by
  unfold MemoryCache.check
  split
  next => exact h.dropExpired
  next => exact h
  next fields expiry hl =>
    split
    next => exact h
    next n hg =>
      split
      next => exact h.drop
      next => exact h.put (hn fields n (h.of_live hl) hg)

end Holds

end MemoryCache

/-! ### What operations keep -/

/-- A cache in memory stays one and goes on holding only what has a property. -/
def Frame.holding (P : String → CacheValue → Prop) : Frame where
  Allows _ w w' := ∀ c, w.cache = .memory c → c.Holds P → ∃ d, w'.cache = .memory d ∧ d.Holds P
  outside hc _ := fun c h hP => ⟨c, hc.trans h, hP⟩
  trans h h' := fun c hc hP => by
    obtain ⟨d, hd, hdP⟩ := h c hc hP
    exact h' d hd hdP

namespace Frame

variable {P : String → CacheValue → Prop}

theorem allowsWrites_holding : (holding P).AllowsWrites :=
  ⟨fun _ _ _ c hc h => ⟨c, hc, h⟩, fun _ _ _ _ c hc h => ⟨c, hc, h⟩, fun _ _ _ c hc h => ⟨c, hc, h⟩,
    fun _ _ _ _ c hc h => ⟨c, hc, h⟩, fun _ _ _ c hc h => ⟨c, hc, h⟩⟩

theorem holding_set {key text : String} (ht : P key (.plain text)) (ttl : Option Nat) :
    (holding P).Keeps (Action.cacheSet key text ttl) := by
  intro m w c hc h
  rw [Action.perform_cacheSet, hc]
  exact ⟨_, rfl, h.set ht ttl⟩

theorem holding_get {α : Type} (f : Json → Option α) (key : String) :
    (holding P).Keeps (Action.cached fun now => Cache.get f key now) := by
  intro m w c hc h
  rw [Action.perform_cached, hc]
  exact ⟨_, rfl, h.get⟩

theorem holding_take (key text : String) :
    (holding P).Keeps (Action.cached fun now => Cache.compareAndDelete key text now) := by
  intro m w c hc h
  rw [Action.perform_cached, hc]
  exact ⟨_, rfl, h.compareAndDelete text⟩

theorem holding_create {key : String} {fields : List (String × String)}
    (hf : P key (.hash (.ofList fields))) (ttl : Nat) :
    (holding P).Keeps (Action.cacheCreate key fields ttl) := by
  intro m w c hc h
  rw [Action.perform_cacheCreate, hc]
  exact ⟨_, rfl, h.createHash hf ttl⟩

theorem holding_check {key field guess counter : String} {limit : Int}
    (hn : ∀ fields n, P key (.hash fields) → MemoryCache.guesses? fields counter limit = some n →
      P key (.hash (fields.insert counter (Text.showInt (n + 1))))) :
    (holding P).Keeps
      (Action.cached fun now => Cache.check key field guess counter limit now) := by
  intro m w c hc h
  rw [Action.perform_cached, hc]
  exact ⟨_, rfl, h.check hn⟩

/-- What does not matter for tokens is kept by what is done at their keys. -/
theorem allowsTokens_holding (h : ∀ token text, P (Tokens.key token) (.plain text)) :
    (holding P).AllowsTokens :=
  ⟨fun token text ttl => holding_set (h token text) ttl, fun _ => holding_get _ _,
    fun _ _ => holding_take _ _⟩

/-- What does not matter for codes is kept by what is done at their keys. -/
theorem allowsCode_holding {u : Username} (h : ∀ v, P (Otp.key u) v) :
    (holding P).AllowsCode u :=
  ⟨fun _ ttl => holding_create (h _) ttl, fun _ _ => holding_check fun _ _ _ _ => h _⟩

end Frame

/-! ### Refresh tokens -/

namespace Tokens

variable {t : Tokens} {P : String → CacheValue → Prop}

/-- The value that the cache keeps for a refresh token. -/
def value (user : Int) (role : Role) : CacheValue := .plain (entryText (entry user role))

/-- Nothing is added to what a cache holds but the entry of a pair that is answered. -/
def Adds (t : Tokens) (P : String → CacheValue → Prop) (m : Moment) (u : World)
    (r : Answer Result) (w : World) : Prop :=
  ∀ c, u.cache = .memory c → c.Holds P → ∃ d, w.cache = .memory d ∧
    d.Holds fun k v => P k v ∨ ∃ user role limited,
      answeredPair? r = some (t.pair user role limited m) ∧ k = key (t.minted user m) ∧
        v = value user role

theorem Adds.of_holding {m : Moment} {u w : World} {r : Answer Result}
    (h : (holding P).Allows m u w) : t.Adds P m u r w := by
  intro c hc hP
  obtain ⟨d, hd, hdP⟩ := h c hc hP
  exact ⟨d, hd, hdP.mono fun _ _ => .inl⟩

theorem enters_adds : (holding P).Enters (t.Adds P) where
  before h h' c hc hP := by
    obtain ⟨d, hd, hdP⟩ := h c hc hP
    exact h' d hd hdP
  error h := .of_holding h
  logged h := h

theorem issue_adds (user : Int) (role : Role) (limited : Bool) :
    (Result.pair <$> t.issue user role limited).Ensures (t.Adds P) := by
  refine Action.ensures_map.2 fun m w c hc hP => ?_
  cases hr : (c.makeRoom m.now (key (t.minted user m))).hasRoom (key (t.minted user m)) with
  | true =>
    obtain ⟨ha, hd⟩ := t.issue_of_hasRoom user role limited hc hr
    rw [ha]
    exact ⟨_, hd, (hP.makeRoom.mono fun _ _ => .inl).put
      (.inr ⟨user, role, limited, rfl, rfl, rfl⟩)⟩
  | false =>
    obtain ⟨ha, hd⟩ := t.issue_of_full user role limited hc hr
    exact ⟨_, hd, hP.makeRoom.mono fun _ _ => .inl⟩

theorem refresh_adds (token : String) :
    (Result.pair <$> t.refresh token).Ensures (t.Adds P) := by
  have hQ : (holding P).Enters fun m u (r : Answer TokenPair) w =>
      t.Adds P m u (r.map .pair) w := enters_adds.map _
  have hi (user : User) := Action.ensures_map.1 (t.issue_adds (P := P) user.id user.role false)
  refine Action.ensures_map.2 (ensures_refresh hQ (holding_get _ _) fun entry user => ?_)
  refine Action.Ensures.bind hQ (holding_take _ _) fun taken => ?_
  refine Action.Ensures.bind hQ (keeps_require _ _) fun _ => ?_
  exact (hi user).logged hQ _

end Tokens

/-- An operation adds nothing to the entries of tokens but that of a pair that it answers. -/
theorem Operation.adds {a : Accounts} {P : String → CacheValue → Prop}
    (hP : ∀ (u : Username) v, P (Otp.key u) v) (op : Operation) :
    (op.perform a).Ensures (a.tokens.Adds P) :=
  ensures_perform Tokens.enters_adds op allowsWrites_holding.groups
    (fun _ => allowsWrites_holding) (fun name _ => allowsCode_holding (hP name))
    Tokens.issue_adds (fun token _ => Tokens.refresh_adds token) fun h _ => .of_holding h

/-- Under the key of a refresh token stands the entry of a pair that was answered. -/
def Tokens.Noted (a : Accounts) (records : List Record) (k : String) (v : CacheValue) : Prop :=
  ∀ token, k = key token → ∃ r ∈ records, ∃ user role, r.Issues a user token ∧ v = value user role

namespace Accounts

variable {a : Accounts} {w : World} {c : MemoryCache} {records : List Record}

theorem noted_step (s : Step) (hc : w.cache = .memory c) (h : c.Holds (Tokens.Noted a records)) :
    ∃ d, (a.step s w).2.cache = .memory d ∧
      d.Holds (Tokens.Noted a (records ++ [a.record s w])) := by
  have hcodes (u : Username) (v : CacheValue) : Tokens.Noted a records (Otp.key u) v :=
    fun token hk => absurd hk.symm (Tokens.key_ne_otpKey token u)
  obtain ⟨d, hd, hdP⟩ := Operation.adds hcodes s.operation s.moment w c hc h
  refine ⟨d, hd, hdP.mono fun k v hkv token hk => ?_⟩
  rcases hkv with hkv | ⟨user, role, limited, hp, hk', rfl⟩
  · obtain ⟨r, hr, hr'⟩ := hkv token hk
    exact ⟨r, List.mem_append_left _ hr, hr'⟩
  · have ht : token = a.tokens.minted user s.moment := Tokens.key_injective (hk.symm.trans hk')
    exact ⟨_, List.mem_append_right _ (List.mem_singleton_self _), user, role,
      ⟨role, limited, hp, ht⟩, rfl⟩

end Accounts

/-! ### One-time codes -/

namespace Otp

variable {c : OtpConfig} {u : Username}

/-- Under the key of a one-time code stands a code with its counter. -/
def Coded (c : OtpConfig) (k : String) (v : CacheValue) : Prop :=
  ∀ u : Username, k = key u → ∃ p : Pending, v = .hash (p.fields c)

/-- The counter of a code that may still be compared is the number of wrong guesses. -/
theorem Pending.guesses?_eq_some {p : Pending} {n : Int}
    (h : MemoryCache.guesses? (p.fields c) retryField c.maxRetries = some n) :
    n = p.wrong ∧ (p.wrong : Int) < c.maxRetries := by
  obtain ⟨hn, hlt⟩ := Option.filter_eq_some_iff.1 h
  rw [get?_retry, Option.bind_some, Text.signed?_showInt] at hn
  obtain rfl := Option.some.inj (Option.filter_eq_some_iff.1 hn).1
  have hlt := counted_lt_iff.1 (of_decide_eq_true hlt)
  exact ⟨counted_of_lt hlt, hlt⟩

/-- A wrong guess is counted, and the entry is again one of a code. -/
theorem coded_miss {fields : OrderedMap String String} {n : Int}
    (h : Coded c (key u) (.hash fields))
    (hn : MemoryCache.guesses? fields retryField c.maxRetries = some n) :
    Coded c (key u) (.hash (fields.insert retryField (Text.showInt (n + 1)))) := by
  obtain ⟨p, hp⟩ := h u rfl
  obtain rfl := CacheValue.hash.inj hp
  obtain ⟨rfl, hlt⟩ := Pending.guesses?_eq_some hn
  refine fun _ _ => ⟨p.miss, congrArg CacheValue.hash ?_⟩
  rw [Pending.insert_retry, ← counted_succ_of_lt hlt]
  rfl

theorem coded_fresh (m : Moment) :
    Coded c (key u) (.hash (.ofList [(codeField, code c m), (retryField, "0")])) :=
  fun _ _ => ⟨fresh c m, congrArg CacheEntry.value (entry_fresh (c := c) (m := m)).symm⟩

end Otp

/-- Whatever an operation does at the key of a code, it leaves a code there, or nothing. -/
theorem Operation.keeps_coded {a : Accounts} (op : Operation) :
    (holding (Otp.Coded a.otp)).Keeps (op.perform a) := by
  have htokens : (holding (Otp.Coded a.otp)).AllowsTokens :=
    allowsTokens_holding fun token _ u hk => absurd hk (Tokens.key_ne_otpKey token u)
  intro m w
  cases hx : op.codeUse? w.store with
  | none => exact allows_of_unused allowsWrites_holding htokens hx
  | some x =>
    obtain ⟨name, use⟩ := x
    cases use with
    | check guess =>
      obtain ⟨rest, hrest, hp⟩ := perform_of_check (a := a) (m := m) hx
      rw [hp]
      have hverify : (holding (Otp.Coded a.otp)).Keeps (Otp.verify a.otp name guess) :=
        Otp.keeps_verify_of_check (holding_check fun _ _ => Otp.coded_miss)
      exact hverify.bind (fun _ => hrest _ allowsWrites_holding htokens) m w
    | request =>
      obtain ⟨purpose, greeted, hp⟩ := perform_of_request (a := a) (m := m) hx
      rw [hp]
      have hcreate (m : Moment) := holding_create (Otp.coded_fresh (c := a.otp) (u := name) m)
      exact (Otp.keeps_request_of_create (fun m => hcreate m _) purpose greeted).map _ m w

/-! ### Runs -/

/-- Wherever a run has led that began with an empty memory cache, the cache is within its bound, and
the entries of tokens and of codes are as they should be. -/
theorem Accounts.holds_after {a : Accounts} {w : World} {entries : Nat}
    (hw : w.cache = .memory (.new entries)) (steps : List Step) :
    ∃ c, (a.after w steps).cache = .memory c ∧ c.Within ∧
      c.Holds (Tokens.Noted a (a.trace w steps)) ∧ c.Holds (Otp.Coded a.otp) := by
  obtain ⟨c, hc, hwithin⟩ := memory_after (a := a) hw (MemoryCache.within_new entries) steps
  refine ⟨c, hc, hwithin, ?_⟩
  induction steps using List.reverseRecOn generalizing c with
  | nil =>
    obtain rfl := Cache.memory.inj (hc.symm.trans hw)
    exact ⟨MemoryCache.holds_new entries, MemoryCache.holds_new entries⟩
  | append_singleton steps s ih =>
    obtain ⟨d, hd, hdw⟩ := memory_after (a := a) hw (MemoryCache.within_new entries) steps
    obtain ⟨hnoted, hcoded⟩ := ih d hd hdw
    rw [after_concat] at hc
    rw [trace_concat]
    obtain ⟨c₁, hc₁, hnoted⟩ := noted_step s hd hnoted
    obtain ⟨c₂, hc₂, hcoded⟩ := s.operation.keeps_coded s.moment _ d hd hcoded
    obtain rfl := Cache.memory.inj (hc₁.symm.trans hc)
    obtain rfl := Cache.memory.inj (hc₂.symm.trans hc)
    exact ⟨hnoted, hcoded⟩

end AuthCore
