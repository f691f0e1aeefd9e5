import AuthCore.Proofs.Account.Limited
import AuthCore.Proofs.Cache.Confined
import AuthCore.Proofs.Otp.Lifecycle
import AuthCore.Proofs.Username

/-!
# Operations keep apart in the cache

All codes and refresh tokens lie in one map with one bound. Still an operation touches the entries
of its own code and tokens only (`Operation.TouchesKey`), whatever texts it is given and whatever
else lies in the map, since the keys of different things differ. So two operations of the services
of codes and tokens that are about different things may be done in either order, as long as neither
finds the cache full.

A token that is issued counts as well as one that is presented: an exchange of a token that the
other operation only just issues goes one way before and another way after it
(`Accounts.order_matters`).
-/

namespace AuthCore

namespace Operation

/-- Whether an operation may answer a pair of tokens. -/
def issuesPair (op : Operation) : Bool :=
  op.provesIdentity || match op with
    | issue .. | refresh .. => true
    | changePassword _ _ _ limited => limited
    | _ => false

/-- What an operation may do to what a memory cache shows at a key, from its moment on. -/
inductive TouchesKey (a : Accounts) (op : Operation) (m : Moment) (r : Answer Result)
    (c d : MemoryCache) (k : String) : Prop
  /-- Nothing. -/
  | kept (h : ∀ later, m.now ≤ later → d.live? later k = c.live? later k)
  /-- It is the key of the code that the operation is about. -/
  | code {u : Username} (hop : op.codeName? = some u) (hk : k = (CacheKey.otp u.value).text)
  /-- The new refresh token of a pair that was answered has been noted there. -/
  | noted {user : Int} {role : Role} {limited : Bool} (hop : op.issuesPair = true)
      (hr : r = .ok (.pair (a.tokens.pair user role limited m)))
      (hk : k = (CacheKey.refresh (a.tokens.minted user m)).text)
      (h : ∀ later, m.now ≤ later →
        d.live? later k = (some (a.tokens.noted user role m)).filter (·.isLive later))
  /-- The refresh token for which a pair was answered has been taken away. -/
  | spent {token : String} {p : TokenPair} (hop : op = refresh token) (hr : r = .ok (.pair p))
      (hk : k = (CacheKey.refresh token).text) (h : ∀ later, m.now ≤ later → d.live? later k = none)

/-- The operations of the services of codes and tokens. -/
def isService : Operation → Bool
  | issue .. | issueLimited .. | verifyToken .. | refresh .. | requestCode .. | checkCode .. => true
  | _ => false

/-- What the cache entries are about that an operation of these services uses. -/
inductive Concerns (t : Tokens) (s : Store) (m : Moment) : Operation → CacheKey → Prop
  | requested (name : Username) (purpose : OtpPurpose) (greeted : Option String) :
      Concerns t s m (requestCode name purpose greeted) (.otp name.value)
  | checked (name : Username) (code : String) :
      Concerns t s m (checkCode name code) (.otp name.value)
  | issued (user : Int) (role : Role) (limited : Bool) :
      Concerns t s m (issue user role limited) (.refresh (t.minted user m))
  | exchanged {token r : String} (h : t.Exchanges s m token r) :
      Concerns t s m (refresh token) (.refresh r)

variable {a : Accounts} {m : Moment} {w : World} {s : Store} {c d : MemoryCache} {op : Operation}

theorem issuesPair_of_answered {p : TokenPair}
    (h : ((op.perform a).perform m w).1 = .ok (.pair p)) : op.issuesPair = true := by
  obtain ⟨-, hop⟩ := eq_pair_of_perform (Prod.ext h rfl)
  obtain hop | ⟨token, rfl⟩ | ⟨user, role, limited, rfl⟩ | ⟨u, old, new, rfl⟩ := hop
  · unfold issuesPair
    rw [hop, Bool.true_or]
  · rfl
  · rfl
  · rfl

theorem concerns_requestCode {t : Tokens} {name : Username} {purpose : OtpPurpose}
    {greeted : Option String} {k : CacheKey} :
    (requestCode name purpose greeted).Concerns t s m k ↔ k = .otp name.value := by
  constructor
  · intro h
    cases h
    rfl
  · rintro rfl
    exact .requested name purpose greeted

/-- The keys of refresh tokens are touched by a pair that is answered. -/
theorem touchesKey_token (hc : w.cache = .memory c) (hw : c.Within)
    (hd : ((op.perform a).perform m w).2.cache = .memory d) (token : String) :
    op.TouchesKey a m ((op.perform a).perform m w).1 c d (Tokens.key token) := by
  obtain ⟨e, he, -, hbooked⟩ := op.booked a m w c hc hw
  obtain rfl := Cache.memory.inj (he.symm.trans hd)
  cases hp : answeredPair? ((op.perform a).perform m w).1 with
  | none =>
    rw [hp] at hbooked
    exact .kept fun later hl => hbooked token later hl
  | some p =>
    rw [hp] at hbooked
    have hr := answeredPair?_eq_some.1 hp
    obtain ⟨user, role, limited, rfl, hnotes⟩ := hbooked
    by_cases hminted : token = a.tokens.minted user m
    · refine .noted (issuesPair_of_answered hr) hr (by rw [hminted]; rfl) fun later hl => ?_
      rw [hnotes token later hl, if_pos hminted]
    · by_cases htaken : op.exchanged? = some token
      · have hop : op = refresh token := by
          cases op <;> cases htaken
          rfl
        refine .spent hop hr rfl fun later hl => ?_
        rw [hnotes token later hl, if_neg hminted, if_pos htaken]
      · refine .kept fun later hl => ?_
        rw [hnotes token later hl, if_neg hminted, if_neg htaken]

/-- Of the other keys only that of the code is touched. -/
theorem touchesKey_other (hc : w.cache = .memory c) (hw : c.Within)
    (hd : ((op.perform a).perform m w).2.cache = .memory d) {k : String} (hk : ¬Tokens.IsKey k) :
    op.TouchesKey a m ((op.perform a).perform m w).1 c d k := by
  by_cases hcode : ∃ u, op.codeName? = some u ∧ k = Otp.key u
  · obtain ⟨u, hop, hku⟩ := hcode
    exact .code hop hku
  · have hkeeps : (Frame.keys (· = k)).Keeps (op.perform a) :=
      op.keeps_perform Frame.allowsWrites_keys
        (Frame.allowsTokens_keys fun token h => hk ⟨token, h.symm⟩)
        fun u hu => Frame.allowsCode_keys fun h => hcode ⟨u, hu, h.symm⟩
    obtain ⟨e, he, -, hsame⟩ := hkeeps m w c hc hw
    obtain rfl := Cache.memory.inj (he.symm.trans hd)
    exact .kept (hsame k rfl)

/-- An operation does no more to the cache than that. -/
theorem touchesKey_perform (op : Operation) (a : Accounts) (m : Moment)
    (hc : w.cache = .memory c) (hw : c.Within) :
    ∃ d, ((op.perform a).perform m w).2.cache = .memory d ∧
      ∀ k, op.TouchesKey a m ((op.perform a).perform m w).1 c d k := by
  obtain ⟨d, hd, -⟩ := op.booked a m w c hc hw
  refine ⟨d, hd, fun k => ?_⟩
  by_cases hk : Tokens.IsKey k
  · obtain ⟨token, rfl⟩ := hk
    exact touchesKey_token hc hw hd token
  · exact touchesKey_other hc hw hd hk

/-- An operation of the services of codes and tokens is confined to what it is about. -/
theorem confined_perform (h : op.isService = true) :
    Action.Confined m s (fun k => ∃ key, op.Concerns a.tokens s m key ∧ k = key.text)
      (op.perform a) := by
  cases op <;> cases h
  case issue user role limited =>
    exact ((Tokens.confined_issue user role limited).mono fun k hk => ⟨_, .issued .., hk⟩).map _
  case issueLimited user role =>
    exact (Action.Confined.of_same (Tokens.keeps_issueLimited user role) fun _ _ _ _ => rfl).map _
  case verifyToken token =>
    exact (Action.Confined.of_same (Tokens.keeps_verify token) fun _ _ _ _ => rfl).map _
  case refresh token =>
    refine ((Tokens.confined_refresh token).mono ?_).map _
    rintro k ⟨r, hr, rfl⟩
    exact ⟨_, .exchanged hr, rfl⟩
  case requestCode name purpose greeted =>
    exact ((Otp.confined_request a.otp name purpose greeted).mono
      fun k hk => ⟨_, .requested .., hk⟩).map _
  case checkCode name code =>
    exact ((Otp.confined_verify a.otp name code).mono fun k hk => ⟨_, .checked .., hk⟩).map _

end Operation

namespace Accounts

variable {a : Accounts} {w : World} {entries : Nat}

/-- Two operations of the services of codes and tokens that are about different things may be done
in either order. -/
theorem step_commute {c : MemoryCache} (hc : w.cache = .memory c) (hw : c.Within) {s t : Step}
    (hnow : s.now = t.now) (hs : s.operation.isService = true) (ht : t.operation.isService = true)
    (hne : ∀ k, s.operation.Concerns a.tokens w.store s.moment k →
      ¬t.operation.Concerns a.tokens w.store t.moment k)
    (hfull : ¬(a.step s w).1.IsFull ∧ ¬(a.step t (a.step s w).2).1.IsFull ∧
      ¬(a.step t w).1.IsFull ∧ ¬(a.step s (a.step t w).2).1.IsFull) :
    (a.step t (a.step s w).2).1 = (a.step t w).1 ∧ (a.step s (a.step t w).2).1 = (a.step s w).1 ∧
      ∃ d e, (a.step t (a.step s w).2).2.cache = .memory d ∧
        (a.step s (a.step t w).2).2.cache = .memory e ∧
        ∀ k later, s.now ≤ later → d.live? later k = e.live? later k := by
  have hover : w.Over w.store := ⟨rfl, c, hc, hw⟩
  have hconfined := Operation.confined_perform (a := a) (m := s.moment) (s := w.store) hs
  have hconfined' := Operation.confined_perform (a := a) (m := t.moment) (s := w.store) ht
  have hdis : ∀ k, (∃ key, s.operation.Concerns a.tokens w.store s.moment key ∧ k = key.text) →
      ¬∃ key, t.operation.Concerns a.tokens w.store t.moment key ∧ k = key.text := by
    rintro k ⟨key, hkey, rfl⟩ ⟨key', hkey', he⟩
    exact hne key hkey (CacheKey.text_injective he ▸ hkey')
  obtain ⟨h₁, h₂, h₃, h₄⟩ := hfull
  obtain ⟨hat, has, hshown⟩ := hconfined.commute hconfined' hnow.symm hdis hover h₁ h₂ h₃ h₄
  obtain ⟨d, hd, -⟩ := (hconfined'.stays (hconfined.stays hover)).memory
  obtain ⟨e, he, -⟩ := (hconfined.stays (hconfined'.stays hover)).memory
  refine ⟨hat, has, d, e, hd, he, fun k later hl => ?_⟩
  rw [← World.live?_memory hd, ← World.live?_memory he]
  exact hshown k later hl

/-- Whatever has happened before, an operation touches only the cache entries of its own code and
tokens, and the keys of different things differ. So operations of the services of codes and tokens
at one instant may be done in either order if they are about different things and none of them finds
the cache full: they answer the same, and in the end the cache shows the same. -/
theorem operations_isolated (a : Accounts) (hw : w.cache = .memory (.new entries))
    (steps : List Step) :
    (∀ s : Step, ∃ c d, (a.after w steps).cache = .memory c ∧
      (a.step s (a.after w steps)).2.cache = .memory d ∧
      ∀ k, s.operation.TouchesKey a s.moment (a.step s (a.after w steps)).1 c d k) ∧
    (∀ raw raw' u v, Username.parse raw = .ok u → Username.parse raw' = .ok v → u ≠ v →
      (CacheKey.otp u.value).text ≠ (CacheKey.otp v.value).text) ∧
    (∀ token token', token ≠ token' →
      (CacheKey.refresh token).text ≠ (CacheKey.refresh token').text) ∧
    (∀ token (u : Username), (CacheKey.refresh token).text ≠ (CacheKey.otp u.value).text) ∧
    ∀ s t : Step, s.now = t.now → s.operation.isService = true → t.operation.isService = true →
      (∀ k, s.operation.Concerns a.tokens (a.after w steps).store s.moment k →
        ¬t.operation.Concerns a.tokens (a.after w steps).store t.moment k) →
      ¬(a.step s (a.after w steps)).1.IsFull →
      ¬(a.step t (a.step s (a.after w steps)).2).1.IsFull →
      ¬(a.step t (a.after w steps)).1.IsFull →
      ¬(a.step s (a.step t (a.after w steps)).2).1.IsFull →
      (a.step t (a.step s (a.after w steps)).2).1 = (a.step t (a.after w steps)).1 ∧
        (a.step s (a.step t (a.after w steps)).2).1 = (a.step s (a.after w steps)).1 ∧
        ∃ d e, (a.step t (a.step s (a.after w steps)).2).2.cache = .memory d ∧
          (a.step s (a.step t (a.after w steps)).2).2.cache = .memory e ∧
          ∀ k later, s.now ≤ later → d.live? later k = e.live? later k := by
  obtain ⟨c, hc, hcw⟩ := memory_after (a := a) hw (MemoryCache.within_new entries) steps
  refine ⟨fun s => ?_, fun raw raw' u v hu hv hne h => ?_, fun token token' hne h => ?_,
    Tokens.key_ne_otpKey, fun s t hnow hs ht hne h₁ h₂ h₃ h₄ => ?_⟩
  · obtain ⟨d, hd, htouches⟩ := s.operation.touchesKey_perform a s.moment hc hcw
    exact ⟨c, d, hc, hd, htouches⟩
  · rw [Username.parse_eq_ok_iff] at hu hv
    exact hne (Username.eq_of_value_eq hu hv (Otp.key_eq_iff.1 h))
  · exact hne (Tokens.key_injective h)
  · exact step_commute hc hcw hnow hs ht hne ⟨h₁, h₂, h₃, h₄⟩

/-- Codes for two usernames, requested at one instant of a cache with two places. -/
theorem operations_isolated_codes :
    let a : Accounts := ⟨⟨⟨"secret", .hs256⟩, 60, 120⟩, {}, 4, 16⟩
    let w := Action.worldOf (.memory (.new 2)) (.memory .empty) .log
    let s : Step := ⟨0, ⟨id, id, id, id⟩, .requestCode (.phone "+491234567") .verification none⟩
    let t : Step := ⟨0, ⟨id, Nat.succ, id, id⟩, .requestCode (.email "a@b.c") .verification none⟩
    (a.step s w).1 = .ok .done ∧ (a.step t (a.step s w).2).1 = .ok .done ∧
      ∃ d e, (a.step t (a.step s w).2).2.cache = .memory d ∧
        (a.step s (a.step t w).2).2.cache = .memory e ∧
        ∀ k later, 0 ≤ later → d.live? later k = e.live? later k := by
  intro a w s t
  have hempty : w.cache = .memory (.new 2) := rfl
  obtain ⟨-, -, -, -, hcommute⟩ := a.operations_isolated hempty []
  have hs : (a.step s w).1 = .ok .done := rfl
  have ht : (a.step t w).1 = .ok .done := rfl
  have hst : (a.step t (a.step s w).2).1 = .ok .done := rfl
  have hts : (a.step s (a.step t w).2).1 = .ok .done := rfl
  have hne : ∀ k, s.operation.Concerns a.tokens w.store s.moment k →
      ¬t.operation.Concerns a.tokens w.store t.moment k := by
    intro k hk hk'
    rw [Operation.concerns_requestCode] at hk hk'
    exact absurd (CacheKey.otp.inj (hk.symm.trans hk')) (by decide)
  obtain ⟨-, -, hshown⟩ := hcommute s t rfl rfl rfl hne (hs ▸ Answer.not_isFull_ok _)
    (hst ▸ Answer.not_isFull_ok _) (ht ▸ Answer.not_isFull_ok _) (hts ▸ Answer.not_isFull_ok _)
  exact ⟨hs, hst, hshown⟩

/-- A refresh token without an entry is not exchanged. -/
theorem step_refresh_of_gone {c : MemoryCache} {t : Step} {token : String}
    (ht : t.operation = .refresh token) (hc : w.cache = .memory c)
    (hgone : c.live? t.now (Tokens.key token) = none) :
    (a.step t w).1 = .error (.auth .refreshTokenExpired) := by
  have hget : Cache.get Json.string? (Tokens.key token) t.now w.cache =
      (.ok none, .memory (c.dropExpired t.now (Tokens.key token))) := by
    simp only [hc, Cache.get, Cache.getText, Cache.ofMemory, MemoryCache.get, hgone]
    rfl
  have hread : (Action.cached fun now => Cache.get Json.string? (Tokens.key token) now).perform
      t.moment w =
        (.ok none, { w with cache := .memory (c.dropExpired t.now (Tokens.key token)) }) := by
    rw [Action.perform_cached, Step.now_moment, hget]
    rfl
  rw [step, ht, Operation.perform, Action.perform_map, Tokens.refresh_eq,
    Action.perform_bind_ok hread]
  rfl

/-- A pair is issued and its refresh token exchanged: in this order both succeed, in the other one
the token is not there yet. -/
theorem order_matters {c : MemoryCache} {u : User} {role : Role} {limited : Bool} {s t : Step}
    (hs : s.operation = .issue u.id role limited)
    (ht : t.operation = .refresh (a.tokens.minted u.id s.moment)) (hnow : t.now = s.now)
    (hc : w.cache = .memory c) (hcw : c.Within)
    (hroom : (c.makeRoom s.now (Tokens.key (a.tokens.minted u.id s.moment))).hasRoom
      (Tokens.key (a.tokens.minted u.id s.moment)) = true)
    (hgone : c.live? s.now (Tokens.key (a.tokens.minted u.id s.moment)) = none)
    (hlifetime : 0 < a.tokens.refreshLifetime) (hfit : RefreshToken.Fits u.id)
    (hu : w.store.findById u.id = .ok (some u)) (hf : u.isForceLogin = false) :
    (a.step t (a.step s w).2).1 = .ok (.pair (a.tokens.pair u.id u.role false t.moment)) ∧
      (a.step t w).1 = .error (.auth .refreshTokenExpired) := by
  have hlive : t.now < s.now + seconds a.tokens.refreshLifetime := by
    unfold seconds
    omega
  exact ⟨(refresh_of_issued hs ht hc hcw hroom hlive hfit hu hf).2,
    step_refresh_of_gone ht hc (hnow ▸ hgone)⟩

end Accounts

end AuthCore
