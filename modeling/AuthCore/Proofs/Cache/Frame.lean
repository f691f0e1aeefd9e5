import AuthCore.Proofs.Account.Frame
import AuthCore.Proofs.Cache.TtlMap

/-!
# What operations leave alone in the cache

The cache of an operation is used at the keys of tokens and of one-time codes. At any other keys it
shows the same afterwards as before, from that moment on (`Frame.keys`).
-/

namespace AuthCore

/-! ### Keys -/

/-- Different things have different keys. -/
theorem CacheKey.text_injective {k k' : CacheKey} (h : k.text = k'.text) : k = k' := by
  have hl := congrArg String.toList h
  -- the two beginnings differ at their first letter after the common one
  cases k <;> cases k' <;> simp [text] at hl
  · rw [String.toList_inj.1 hl]
  · rw [String.toList_inj.1 hl]

theorem Tokens.key_injective {t t' : String} (h : key t = key t') : t = t' :=
  CacheKey.refresh.inj (CacheKey.text_injective h)

theorem Tokens.key_ne_otpKey (token : String) (u : Username) : key token ≠ Otp.key u :=
  fun h => CacheKey.noConfusion (CacheKey.text_injective h)

/-! ### Frames of keys -/

open AuthCore.Frame

/-- A cache in memory stays one and shows the same at some keys from now on. -/
def Frame.keys (K : String → Prop) : Frame where
  Allows m w w' := ∀ c, w.cache = .memory c → c.Within →
    ∃ d, w'.cache = .memory d ∧ d.Within ∧
      ∀ k, K k → ∀ later, m.now ≤ later → d.live? later k = c.live? later k
  outside hc _ := fun c h hw => ⟨c, hc.trans h, hw, fun _ _ _ _ => rfl⟩
  trans h h' := fun c hc hw => by
    obtain ⟨d, hd, hdw, hcd⟩ := h c hc hw
    obtain ⟨e, he, hew, hde⟩ := h' d hd hdw
    exact ⟨e, he, hew, fun k hk later hl => (hde k hk later hl).trans (hcd k hk later hl)⟩

namespace Frame

variable {K : String → Prop}

theorem keys_call {α : Type} (call : CacheCall α) (hk : ¬ K call.key) {m : Moment} {w w' : World}
    (h : w'.cache = (call.perform m.now w.cache).2) : (keys K).Allows m w w' := by
  intro c hc hw
  obtain ⟨d, hd, hdw, -⟩ := MemoryCache.perform_memory m.now hw call
  rw [hc] at h
  refine ⟨d, h.trans hd, hdw, fun k hK later hl => ?_⟩
  exact MemoryCache.perform_frame hw call hd (fun he => hk (he ▸ hK)) hl

/-- A look at an entry takes away only what has expired. -/
theorem keeps_cacheGet {α : Type} (f : Json → Option α) (key : String) :
    (keys K).Keeps (Action.cached fun now => Cache.get f key now) := by
  intro m w c hc hw
  have hk : (Cache.get f key m.now (.memory c)).2 = .memory c ∨
      (Cache.get f key m.now (.memory c)).2 = .memory (c.dropExpired m.now key) := by
    simp only [Cache.get, Cache.getText, Cache.ofMemory, MemoryCache.get]
    rcases c.live? m.now key with _ | ⟨_ | _, _⟩
    · exact .inr rfl
    · exact .inl rfl
    · exact .inl rfl
  rw [Action.perform_cached, hc]
  rcases hk with hk | hk
  · exact ⟨c, hk, hw, fun _ _ _ _ => rfl⟩
  · exact ⟨_, hk, MemoryCache.within_dropExpired hw, fun _ _ _ hl =>
      MemoryCache.live?_dropExpired hl⟩

theorem keys_store (m : Moment) (w : World) (s : Store) :
    (keys K).Allows m w { w with store := s } :=
  fun c hc hw => ⟨c, hc, hw, fun _ _ _ _ => rfl⟩

theorem allowsWrites_keys : (keys K).AllowsWrites where
  createUser _ m w := keys_store m w _
  updateUser _ _ m w := keys_store m w _
  createGroup _ m w := keys_store m w _
  updateGroup _ _ m w := keys_store m w _
  deleteGroups _ m w := keys_store m w _

theorem allowsTokens_keys (h : ∀ token, ¬ K (Tokens.key token)) : (keys K).AllowsTokens where
  set token text ttl _ _ :=
    keys_call (.set (Tokens.key token) text ttl : CacheCall Unit) (h token) rfl
  get token _ _ := keys_call (.get (Tokens.key token) Json.string?) (h token) rfl
  take token text _ _ :=
    keys_call (.compareAndDelete (Tokens.key token) text : CacheCall Unit) (h token) rfl

theorem allowsCode_keys {u : Username} (h : ¬ K (Otp.key u)) : (keys K).AllowsCode u where
  create fields ttl _ _ := keys_call (.createHash (Otp.key u) fields ttl : CacheCall Unit) h rfl
  check guess limit _ _ :=
    keys_call (.check (Otp.key u) _ guess _ limit : CacheCall Unit) h rfl

end Frame

end AuthCore
