import AuthCore.Proofs.Account.Limited
import AuthCore.Proofs.Config.Document
import AuthCore.Proofs.Config.Source
import AuthCore.Proofs.Otp.Codes

/-!
# What an accepted configuration is good for

The rules of a configuration are far away from the parts of the program that need them. Here they
meet: what the rules say (`Config.Sound`) is enough for tokens to be issued, passwords to be hashed,
and for codes and refresh tokens to be accepted as soon as they are there (`Accounts.Serves`).
-/

namespace AuthCore

/-! ### What the rules say -/

/-- What the services need of a configuration. -/
structure Config.Sound (c : Config) : Prop where
  secret : c.jwt.secretKey ≠ ""
  algorithm : ∃ a : Algorithm, Algorithm.upper c.jwt.algorithm = a.name
  refreshLifetime : 0 < c.jwt.refreshTokenLifetime
  window : 0 < Otp.window c.otp
  guesses : 0 < c.otp.maxRetries
  cost : Password.costAllowed c.security.bcryptCost = true

theorem Config.sound_of_rules {c : Config} (h : ∀ r ∈ c.rules, r.holds = true) : c.Sound := by
  simp only [rules, List.forall_mem_cons, decide_eq_true_eq, Bool.and_eq_true] at h
  obtain ⟨-, -, hsecret, halgorithm, ⟨-, hrefresh⟩, -, ⟨hwindow, htest⟩, hguesses, -, hcost, -⟩ := h
  refine ⟨?_, ?_, by omega, ?_, hguesses, hcost⟩
  · intro hempty
    rw [hempty] at hsecret
    exact hsecret rfl
  · simp only [List.contains_iff_mem, List.mem_cons, List.not_mem_nil, or_false] at halgorithm
    rcases halgorithm with he | he | he <;> rw [he]
    · exact ⟨.hs256, rfl⟩
    · exact ⟨.hs384, rfl⟩
    · exact ⟨.hs512, rfl⟩
  · rw [Otp.window]
    split <;> omega

theorem Json.signed?_lt {bits : Nat} {j : Json} {i : Int} (h : j.signed? bits = some i) :
    i < 2 ^ (bits - 1) := by
  cases j with
  | int k =>
    rw [signed?] at h
    split at h
    next hk => exact Option.some.inj h ▸ hk.2
    next => cases h
  | _ => cases h

theorem Json.Fields.getD_cases {α : Type} {fs : Fields} {name : String} {f : Json → Option α}
    {default a : α} (h : fs.getD name f default = some a) : a = default ∨ ∃ j, f j = some a := by
  rw [getD] at h
  split at h
  · exact .inl (Option.some.inj h).symm
  · exact .inr ⟨_, h⟩

/-- The greatest number of guesses that a document can ask for has 64 bits. -/
theorem OtpConfig.guesses_lt {j : Json} {c : OtpConfig} (h : ofJson? j = some c) :
    c.maxRetries < 2 ^ 63 := by
  simp only [ofJson?, Option.bind_eq_bind, Option.bind_eq_some_iff] at h
  obtain ⟨fs, -, length, -, window, -, guesses, hguesses, mode, -, code, -, testWindow, -, sms, -,
    verify, -, reset, -, hc⟩ := h
  cases hc
  rcases Json.Fields.getD_cases hguesses with rfl | ⟨i, hi⟩
  · show (10 : Int) < 2 ^ 63
    decide
  · exact Json.signed?_lt hi

theorem Config.guesses_lt {s : String} {c : Config} (h : ofText? s = some c) :
    c.otp.maxRetries < 2 ^ 63 := by
  obtain ⟨v, -, hread⟩ := Option.bind_eq_some_iff.1 h
  simp only [ofJson?, Option.bind_eq_bind, Option.bind_eq_some_iff] at hread
  obtain ⟨fs, -, database, -, cache, -, jwt, -, otp, hotp, security, -, notifier, -, social, -,
    hc⟩ := hread
  cases hc
  rcases Json.Fields.getD_cases hotp with rfl | ⟨i, hi⟩
  · show (10 : Int) < 2 ^ 63
    decide
  · exact OtpConfig.guesses_lt hi

/-! ### What the services can do -/

namespace Accounts

/-- What works from the start: passwords are hashed, a code that was requested is accepted, and a
refresh token that was issued to a user who is there and need not sign in again is exchanged, each
at the same instant and with an empty cache. -/
structure Serves (a : Accounts) : Prop where
  hashes : ∀ password m w, ∃ hash, (a.hashPassword password).perform m w = (.ok hash, w)
  acceptsCode : ∀ (w : World) (entries now : Nat), w.cache = .memory (.new entries) →
    ∀ (d d' : Draws) (name : Username) (purpose : OtpPurpose) (greeted : Option String),
      let requested := a.step ⟨now, d, .requestCode name purpose greeted⟩ w
      requested.1 = .ok .done ∧
        (a.step ⟨now, d', .checkCode name (Otp.code a.otp (d.moment now))⟩ requested.2).1 =
          .ok .done
  exchanges : ∀ (w : World) (entries now : Nat), w.cache = .memory (.new entries) →
    ∀ (d d' : Draws) (u : User) (role : Role) (limited : Bool), RefreshToken.Fits u.id →
      w.store.findById u.id = .ok (some u) → u.isForceLogin = false →
      let issued := a.step ⟨now, d, .issue u.id role limited⟩ w
      ∃ p q, issued.1 = .ok (.pair p) ∧
        (a.step ⟨now, d', .refresh p.refreshToken⟩ issued.2).1 = .ok (.pair q)

variable {a : Accounts} {c : Config} {w : World} {entries now : Nat}

/-- The services that run with the values of a configuration. -/
def under (c : Config) (algorithm : Algorithm) : Accounts where
  tokens := ⟨⟨c.jwt.secretKey, algorithm⟩, c.jwt.accessTokenLifetime, c.jwt.refreshTokenLifetime⟩
  otp := c.otp
  hashCost := c.security.bcryptCost
  passwordLength := c.security.randomPasswordLength

/-- The services are there under a sound configuration. -/
theorem ofConfig_of_sound (h : c.Sound) : ∃ algorithm : Algorithm,
    Algorithm.upper c.jwt.algorithm = algorithm.name ∧ ofConfig c = .ok (under c algorithm) := by
  obtain ⟨algorithm, halgorithm⟩ := h.algorithm
  refine ⟨algorithm, halgorithm, ?_⟩
  rw [ofConfig, Tokens.ofConfig_eq_ok h.secret halgorithm]
  rfl

theorem perform_hashPassword_of_allowed (h : Password.costAllowed a.hashCost = true)
    (password : String) (m : Moment) (w : World) :
    ∃ hash, (a.hashPassword password).perform m w = (.ok hash, w) := by
  rw [hashPassword, Action.perform_bind_ok Action.perform_read, Action.perform_ofAnswer,
    Password.hash, if_pos h]
  exact ⟨_, rfl⟩

theorem hasRoom_makeRoom_new (entries now : Nat) (key : String) :
    ((MemoryCache.new entries).makeRoom now key).hasRoom key = true := by
  by_contra hfull
  have hnone := (MemoryCache.hasRoom_makeRoom (MemoryCache.within_new entries)).1
    (Bool.eq_false_iff.2 hfull)
  have hpos := (MemoryCache.new entries).capacity_pos
  have hempty : ((MemoryCache.new entries).liveKeys now).length = 0 := rfl
  omega

/-- With an empty cache a code is made. -/
theorem request_of_new {m : Moment} (hw : w.cache = .memory (.new entries)) (c : OtpConfig)
    (name : Username) (purpose : OtpPurpose) (greeted : Option String) :
    ∃ k, (Otp.request c name purpose greeted).perform m w =
        (.ok (), ((Otp.request c name purpose greeted).perform m w).2) ∧
      ((Otp.request c name purpose greeted).perform m w).2.cache = .memory k ∧ k.Within ∧
      Otp.Shows c name m.now (some (Otp.fresh c m)) k := by
  have hcreate : (w.cache.createHash (Otp.key name)
      [(Otp.codeField, Otp.code c m), (Otp.retryField, "0")] (seconds (Otp.window c)) m.now).1 =
        .ok true := by
    rw [hw, Cache.createHash, MemoryCache.createHash, if_pos (hasRoom_makeRoom_new _ _ _),
      MemoryCache.contains, MemoryCache.live?_makeRoom le_rfl, MemoryCache.live?_new]
    rfl
  have hok : ((Otp.request c name purpose greeted).perform m w).1 = .ok () := by
    rw [(Otp.perform_request purpose greeted (Prod.ext hcreate rfl)).1]
    rfl
  obtain ⟨k, hk, hwithin, ⟨-, -, hshows⟩ | ⟨⟨e, he, -⟩, -⟩⟩ :=
    Otp.request_shows (c := c) (u := name) (m := m) hw (MemoryCache.within_new entries) purpose
      greeted
  · exact ⟨k, Prod.ext hok rfl, hk, hwithin, hshows⟩
  · rw [hok] at he
    cases he

/-- A code is accepted as soon as it was requested. -/
theorem checkCode_of_requestCode (hwindow : 0 < Otp.window a.otp) (hguesses : 0 < a.otp.maxRetries)
    (hbits : a.otp.maxRetries < 2 ^ 63) (hw : w.cache = .memory (.new entries)) (d d' : Draws)
    (name : Username) (purpose : OtpPurpose) (greeted : Option String) :
    (a.step ⟨now, d, .requestCode name purpose greeted⟩ w).1 = .ok .done ∧
      (a.step ⟨now, d', .checkCode name (Otp.code a.otp (d.moment now))⟩
        (a.step ⟨now, d, .requestCode name purpose greeted⟩ w).2).1 = .ok .done := by
  obtain ⟨k, hok, hk, hwithin, hshows⟩ :=
    request_of_new (m := d.moment now) hw a.otp name purpose greeted
  have hstep : a.step ⟨now, d, .requestCode name purpose greeted⟩ w =
      (.ok .done, ((Otp.request a.otp name purpose greeted).perform (d.moment now) w).2) :=
    Action.perform_map_eq_ok.2 ⟨(), hok, rfl⟩
  have hlive : (d'.moment now).now < (Otp.fresh a.otp (d.moment now)).expiry := by
    show now < now + seconds (Otp.window a.otp)
    unfold seconds
    omega
  have hadmits : (Otp.fresh a.otp (d.moment now)).Admits a.otp (d'.moment now).now
      (Otp.code a.otp (d.moment now)) := ⟨hlive, rfl, hguesses⟩
  rw [hstep]
  refine ⟨rfl, ?_⟩
  obtain ⟨-, -, -, ⟨-, hverified, -⟩ | ⟨hrefused, -⟩⟩ :=
    Otp.verify_of_live (m := d'.moment now) hbits hk hwithin hshows hlive
      (Otp.code a.otp (d.moment now))
  · have hchecked := (Action.perform_map_eq_ok (f := fun _ => Result.done)).2
      ⟨(), Prod.ext hverified rfl, rfl⟩
    exact congrArg Prod.fst hchecked
  · exact absurd hadmits hrefused

/-- Under a sound configuration the services work. -/
theorem serves_of_sound (hsound : c.Sound) (hbits : c.otp.maxRetries < 2 ^ 63)
    (algorithm : Algorithm) : (under c algorithm).Serves := by
  refine ⟨?_, ?_, ?_⟩
  · exact perform_hashPassword_of_allowed hsound.cost
  · intro w entries now hw d d' name purpose greeted
    exact checkCode_of_requestCode hsound.window hsound.guesses hbits hw d d' name purpose greeted
  · intro w entries now hw d d' u role limited hfits hu hf
    have hlive : now < now + seconds c.jwt.refreshTokenLifetime := by
      have hpos := hsound.refreshLifetime
      unfold seconds
      omega
    obtain ⟨hissued, hrefreshed⟩ := refresh_of_issued (a := under c algorithm)
      (s := ⟨now, d, .issue u.id role limited⟩)
      (t := ⟨now, d', .refresh ((under c algorithm).tokens.minted u.id (d.moment now))⟩) rfl rfl hw
      (MemoryCache.within_new entries) (hasRoom_makeRoom_new _ _ _) hlive hfits hu hf
    exact ⟨_, _, hissued, hrefreshed⟩

end Accounts

namespace Config

/-- What is answered for a text. -/
theorem answer_ofText (s : String) (g : Ground) :
    ((ofText s).perform g).1 =
      match ofText? s with
      | some c => ((settle c).perform g).1.map (⟨·, none⟩)
      | none => .error (.config .textMalformed) := by
  rw [ofText]
  cases ofText? s with
  | none => rfl
  | some c =>
    simp only
    rw [Startup.perform_bind]
    rcases (settle c).perform g with ⟨_ | _, _⟩ <;> rfl

/-- A configuration that is accepted is what the text says, with defaults for the rest and the
variables that are set in place of what they stand for. It keeps every rule then, and that is enough
for services that run with its values and work. A variable about tests with a value that is no truth
value, or a rule that is broken under the variables, is reported. -/
theorem accepted_suffices (s : String) (g : Ground) :
    (∀ c source, ((ofText s).perform g).1 = .ok ⟨c, source⟩ →
      (∃ v c₀, Toml.ofText? s = some v ∧ ofText? s = some c₀ ∧
        template.fill v.toJson = some c₀.toJson ∧ c = c₀.underVariables g.environment) ∧
      (∀ r ∈ c.rules, r.holds = true) ∧
      ∃ algorithm : Algorithm, Algorithm.upper c.jwt.algorithm = algorithm.name ∧
        Accounts.ofConfig c = .ok (.under c algorithm) ∧ (Accounts.under c algorithm).Serves) ∧
    ∀ c₀, ofText? s = some c₀ →
      (∀ value, g.environment.lookup testModeVariable = some value → value ≠ "true" →
        value ≠ "false" → ((ofText s).perform g).1 = .error (.config (.testModeValue value))) ∧
      (badTestMode? g.environment = none →
        (∃ r ∈ (c₀.underVariables g.environment).rules, r.holds = false) →
        ∃ r ∈ (c₀.underVariables g.environment).rules, r.holds = false ∧
          ((ofText s).perform g).1 = .error (.config (.invalid r.complaint))) := by
  rw [answer_ofText]
  refine ⟨fun c source hanswer => ?_, fun c₀ hread => ?_⟩
  · rcases hread : ofText? s with _ | c₀ <;> rw [hread] at hanswer
    · cases hanswer
    · obtain ⟨c', hsettled, hc⟩ := Answer.map_eq_ok.1 hanswer
      cases hc
      obtain ⟨-, rfl, hrules⟩ := settle_eq_ok.1 hsettled
      obtain ⟨v, hv, hjson⟩ := Option.bind_eq_some_iff.1 hread
      have hbits : (c₀.underVariables g.environment).otp.maxRetries < 2 ^ 63 :=
        show c₀.otp.maxRetries < 2 ^ 63 from guesses_lt hread
      have hsound := sound_of_rules hrules
      obtain ⟨algorithm, hname, hservices⟩ := Accounts.ofConfig_of_sound hsound
      exact ⟨⟨v, c₀, hv, rfl, fill_template ⟨v, rfl⟩ hjson, rfl⟩, hrules, algorithm, hname,
        hservices, Accounts.serves_of_sound hsound hbits algorithm⟩
  · rw [hread]
    simp only [answer_settle]
    refine ⟨fun value hvalue htrue hfalse => ?_, fun hgood hbroken => ?_⟩
    · rw [badTestMode?_eq_some_iff.2 ⟨hvalue, htrue, hfalse⟩]
      rfl
    · obtain ⟨r, hr, hbroken, hreported⟩ := exists_violation? hbroken
      rw [hgood, hreported]
      exact ⟨r, hr, hbroken, rfl⟩

/-- A secret and the address of a server from variables, over a text that has other ones; a variable
with a value that is no truth value; and a text without a secret. -/
theorem accepted_suffices_under_variables :
    let s := "[jwt]\nsecret_key = \"text\"\nalgorithm = \"HS512\"\n[cache.redis]\npool_size = 3\n"
    let g : Ground := ⟨.empty [], [("COMMERCE_AUTH_REDIS_URL", "redis://cache"),
      ("COMMERCE_AUTH_JWT_SECRET", "variable")], none, []⟩
    let h : Ground := ⟨.empty [], [("COMMERCE_AUTH_OTP_TEST_MODE", "yes")], none, []⟩
    (∃ c a, ((ofText s).perform g).1 = .ok ⟨c, none⟩ ∧
      c.jwt = { secretKey := "variable", algorithm := "HS512" } ∧
      c.cache = { cacheType := .redis, redis := some { url := "redis://cache", poolSize := 3 } } ∧
      Accounts.ofConfig c = .ok a ∧ a.tokens = ⟨⟨"variable", .hs512⟩, 3600, 36000⟩ ∧ a.Serves) ∧
    ((ofText s).perform h).1 = .error (.config (.testModeValue "yes")) ∧
    ∃ r, ((ofText "").perform ⟨.empty [], [], none, []⟩).1 = .error (.config (.invalid r)) := by
  intro s g h
  have hread : ofText? s = some
      { jwt := { secretKey := "text", algorithm := "HS512" },
        cache := { redis := some { poolSize := 3 } } } := by decide +kernel
  have hempty : ofText? "" = some {} := by decide +kernel
  have hanswer : ((ofText s).perform g).1 = .ok ⟨underVariables g.environment
      { jwt := { secretKey := "text", algorithm := "HS512" },
        cache := { redis := some { poolSize := 3 } } }, none⟩ := by
    rw [answer_ofText, hread]
    exact Answer.map_eq_ok.2 ⟨_, settle_eq_ok.2 ⟨by decide, rfl, by decide⟩, rfl⟩
  obtain ⟨-, -, algorithm, hname, hservices, hserves⟩ := (accepted_suffices s g).1 _ _ hanswer
  obtain rfl : algorithm = .hs512 := by
    cases algorithm with
    | hs512 => rfl
    | _ => exact absurd hname (by decide)
  refine ⟨⟨_, _, hanswer, by decide, by decide, hservices, rfl, hserves⟩, ?_, ?_⟩
  · exact ((accepted_suffices s h).2 _ hread).1 "yes" rfl (by decide) (by decide)
  · obtain ⟨r, -, -, hr⟩ := ((accepted_suffices "" ⟨.empty [], [], none, []⟩).2 _ hempty).2
      (by decide) ⟨_, List.mem_of_getElem? (i := 2) rfl, rfl⟩
    exact ⟨r.complaint, hr⟩

end Config

end AuthCore
