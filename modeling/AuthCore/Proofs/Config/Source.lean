import AuthCore.Config.Source
import AuthCore.Proofs.Startup

/-!
# Variables over a configuration

What the environment variables make of a configuration that was read (`Config.underVariables`), and
what is answered for it: the first rule that is broken then, or the configuration if there is none
(`Config.answer_settle`).
-/

namespace AuthCore.Config

variable {c : Config} {g g' : Ground}

/-! ### Rules -/

theorem violation?_eq_none_iff : c.violation? = none ↔ ∀ r ∈ c.rules, r.holds = true := by
  simp [violation?]

/-- What is reported is the complaint of a rule that is broken. -/
theorem exists_violation? (h : ∃ r ∈ c.rules, r.holds = false) :
    ∃ r ∈ c.rules, r.holds = false ∧ c.violation? = some r.complaint := by
  obtain ⟨r, hr, hbroken⟩ := h
  rcases hfirst : c.rules.find? (fun r => !r.holds) with _ | first
  · have hholds := List.find?_eq_none.1 hfirst r hr
    simp [hbroken] at hholds
  · refine ⟨first, List.mem_of_find?_eq_some hfirst, ?_, by rw [violation?, hfirst]; rfl⟩
    simpa using List.find?_some hfirst

/-! ### Variables -/

/-- The variable that says whether codes are fixed for tests. -/
def testModeVariable : String := "COMMERCE_AUTH_OTP_TEST_MODE"

/-- A configuration with the variables that are set in place of what was read; an address of a Redis
server turns its cache on and leaves the other settings of the server alone. -/
def underVariables (environment : List (String × String)) (c : Config) : Config :=
  { c with
    database.url := (environment.lookup "COMMERCE_AUTH_DATABASE_URL").getD c.database.url
    cache :=
      match environment.lookup "COMMERCE_AUTH_REDIS_URL" with
      | some url =>
        { c.cache with
          cacheType := .redis
          redis := some { c.cache.redis.getD {} with url := url } }
      | none => c.cache
    jwt.secretKey := (environment.lookup "COMMERCE_AUTH_JWT_SECRET").getD c.jwt.secretKey
    otp.testMode :=
      match environment.lookup testModeVariable with
      | some value => value == "true"
      | none => c.otp.testMode }

theorem perform_override (name what : String) (f : String → Config) (c : Config) (g : Ground) :
    ∃ g', (override name what f c).perform g =
        (.ok (((g.environment.lookup name).map f).getD c), g') ∧
      g'.environment = g.environment := by
  rw [override, Startup.perform_bind_ok (Startup.perform_environment? name)]
  rcases g.environment.lookup name with _ | value
  · exact ⟨g, rfl, rfl⟩
  · exact ⟨_, rfl, rfl⟩

/-- The value of the variable about tests, if it is no truth value. -/
def badTestMode? (environment : List (String × String)) : Option String :=
  (environment.lookup testModeVariable).filter fun value => value != "true" && value != "false"

theorem badTestMode?_eq_some_iff {environment : List (String × String)} {value : String} :
    badTestMode? environment = some value ↔
      environment.lookup testModeVariable = some value ∧ value ≠ "true" ∧ value ≠ "false" := by
  simp [badTestMode?, Option.filter_eq_some_iff]

theorem truth?_eq (value : String) :
    truth? value =
      if value = "true" then some true else if value = "false" then some false else none := by
  fun_cases truth? value with
  | case1 => rfl
  | case2 => rfl
  | case3 value htrue hfalse => rw [if_neg htrue, if_neg hfalse]

theorem perform_overrideTestMode (c : Config) (g : Ground) :
    ∃ g', (overrideTestMode c).perform g =
      (match badTestMode? g.environment with
        | some value => .error (.config (.testModeValue value))
        | none => .ok { c with otp.testMode :=
            match g.environment.lookup testModeVariable with
            | some value => value == "true"
            | none => c.otp.testMode }, g') ∧
      g'.environment = g.environment := by
  have hread : (Startup.environment? "COMMERCE_AUTH_OTP_TEST_MODE").perform g =
      (.ok (g.environment.lookup testModeVariable), g) := rfl
  rw [overrideTestMode, Startup.perform_bind_ok hread, badTestMode?]
  rcases g.environment.lookup testModeVariable with _ | value
  · exact ⟨g, rfl, rfl⟩
  · simp only [truth?_eq, Option.filter_some]
    by_cases htrue : value = "true"
    · subst htrue
      exact ⟨_, rfl, rfl⟩
    by_cases hfalse : value = "false"
    · subst hfalse
      exact ⟨_, rfl, rfl⟩
    have hbad : (value != "true" && value != "false") = true := by simp [htrue, hfalse]
    rw [if_neg htrue, if_neg hfalse, if_pos hbad]
    exact ⟨g, rfl, rfl⟩

/-- The variables take the place of their parts of a configuration, and of nothing else. -/
theorem perform_overrides (c : Config) (g : Ground) :
    ∃ g', (overrides c).perform g =
      (match badTestMode? g.environment with
        | some value => .error (.config (.testModeValue value))
        | none => .ok (c.underVariables g.environment), g') := by
  rw [overrides]
  obtain ⟨g₁, hdatabase, henv₁⟩ := perform_override "COMMERCE_AUTH_DATABASE_URL" "database.url"
    (fun url => { c with database.url := url }) c g
  rw [Startup.perform_bind_ok hdatabase]
  generalize hc₁ : ((g.environment.lookup _).map _).getD c = c₁
  obtain ⟨g₂, hredis, henv₂⟩ := perform_override "COMMERCE_AUTH_REDIS_URL" "cache.redis.url"
    c₁.withRedis c₁ g₁
  rw [Startup.perform_bind_ok hredis]
  generalize hc₂ : ((g₁.environment.lookup _).map _).getD c₁ = c₂
  obtain ⟨g₃, hsecret, henv₃⟩ := perform_override "COMMERCE_AUTH_JWT_SECRET" "jwt.secret_key = ***"
    (fun secret => { c₂ with jwt.secretKey := secret }) c₂ g₂
  rw [Startup.perform_bind_ok hsecret]
  generalize hc₃ : ((g₂.environment.lookup _).map _).getD c₂ = c₃
  obtain ⟨g₄, hmode, -⟩ := perform_overrideTestMode c₃ g₃
  rw [hmode]
  rw [henv₁] at henv₂ hc₂
  rw [henv₂] at henv₃ hc₃
  rw [henv₃]
  refine ⟨g₄, ?_⟩
  rcases badTestMode? g.environment with _ | value
  · subst hc₁ hc₂ hc₃
    rw [underVariables]
    cases g.environment.lookup "COMMERCE_AUTH_DATABASE_URL" <;>
      cases g.environment.lookup "COMMERCE_AUTH_REDIS_URL" <;>
        cases g.environment.lookup "COMMERCE_AUTH_JWT_SECRET" <;> rfl
  · rfl

/-- What is answered for a configuration that was read: the variables are laid over it first, and
then the rules are checked. -/
theorem answer_settle (c : Config) (g : Ground) :
    ((settle c).perform g).1 =
      match badTestMode? g.environment with
      | some value => .error (.config (.testModeValue value))
      | none =>
        match (c.underVariables g.environment).violation? with
        | some rule => .error (.config (.invalid rule))
        | none => .ok (c.underVariables g.environment) := by
  obtain ⟨g', hover⟩ := perform_overrides c g
  rw [settle, Startup.perform_bind, hover]
  rcases badTestMode? g.environment with _ | value
  · simp only
    rcases (c.underVariables g.environment).violation? with _ | rule <;> rfl
  · rfl

/-- A configuration is answered if it keeps every rule under the variables. -/
theorem settle_eq_ok {c' : Config} :
    ((settle c).perform g).1 = .ok c' ↔
      badTestMode? g.environment = none ∧ c' = c.underVariables g.environment ∧
        ∀ r ∈ c'.rules, r.holds = true := by
  rw [answer_settle]
  rcases badTestMode? g.environment with _ | value
  · rcases hrule : (c.underVariables g.environment).violation? with _ | rule
    · constructor
      · intro h
        cases h
        exact ⟨rfl, rfl, violation?_eq_none_iff.1 hrule⟩
      · rintro ⟨-, rfl, -⟩
        rfl
    · refine iff_of_false nofun ?_
      rintro ⟨-, rfl, hrules⟩
      rw [violation?_eq_none_iff.2 hrules] at hrule
      cases hrule
  · exact iff_of_false nofun fun h => nomatch h.1

end AuthCore.Config
