import AuthCore.Config.Source
import AuthCore.Proofs.Json.Record

/-!
# Configurations over their defaults

How a configuration that was read from a document looks when it is written: it is the document of
all defaults, filled with what the other document has under the names that count
(`Config.fill_template`). Nothing else is in a configuration (`Config.toJson_injective`), so it is
determined by that. A document that comes from TOML has no `null`, so it gives each variant by its
name.
-/

namespace AuthCore

namespace Json

/-- Which members of a document count, and what stands for those that are missing. -/
inductive Template where
  /-- A value, which is taken as it is. -/
  | value
  /-- Members with known names; a document with all defaults. -/
  | part (defaults : Json) (members : List (String × Template))

/-- The member under a name: what the fields of a document say, and what the defaults say, if
anything, where those say nothing. -/
def Fields.fill (fit : Json → Option Json) (fs : Fields) (name : String) (defaults : Json) :
    Option (List (String × Json)) :=
  match fs.lookup name with
  | some j => (fit j).map fun x => [(name, x)]
  | none => some ((defaults.get? name).map (name, ·)).toList

mutual

/-- A document with what counts of another one, and with the defaults where that one says
nothing. -/
def Template.fill : Template → Json → Option Json
  | .value, j => some j
  | .part defaults members, j =>
    (j.fieldsWithDefaults? (members.map Prod.fst)).bind fun fs =>
      (Template.fillMembers defaults fs members).map .object

/-- Some members, taken from the fields of a document or from the defaults. -/
def Template.fillMembers (defaults : Json) (fs : Fields) :
    List (String × Template) → Option (List (String × Json))
  | [] => some []
  | (name, t) :: members =>
    (fs.fill (fun j => t.fill j) name defaults).bind fun ms =>
      (Template.fillMembers defaults fs members).map (ms ++ ·)

end

/-- A document that comes from TOML. -/
def FromToml (j : Json) : Prop := ∃ v : Toml.Value, v.toJson = j

variable {j v defaults : Json} {fs : Fields} {names : List String} {name : String} {α : Type}

/-! ### Documents from TOML -/

theorem mem_membersJson {ms : List (String × Toml.Value)} {m : String × Json}
    (h : m ∈ Toml.Value.membersJson ms) : FromToml m.2 := by
  induction ms with
  | nil => cases h
  | cons entry ms ih =>
    rcases List.mem_cons.1 h with rfl | h
    · exact ⟨entry.2, rfl⟩
    · exact ih h

theorem mem_itemsJson {vs : List Toml.Value} (h : j ∈ Toml.Value.itemsJson vs) : FromToml j := by
  induction vs with
  | nil => cases h
  | cons w vs ih =>
    rcases List.mem_cons.1 h with rfl | h
    · exact ⟨w, rfl⟩
    · exact ih h

namespace FromToml

theorem ne_null (h : FromToml j) : j ≠ .null := by
  obtain ⟨w, rfl⟩ := h
  cases w <;> simp [Toml.Value.toJson]

/-- No member is `null`. -/
theorem ne_object_null (h : FromToml j) : j ≠ .object [(name, .null)] := by
  obtain ⟨w, rfl⟩ := h
  cases w with
  | table ms =>
    intro he
    have hms : Toml.Value.membersJson ms = [(name, .null)] := Json.object.inj he
    exact (mem_membersJson (hms ▸ List.mem_cons_self)).ne_null rfl
  | _ => simp [Toml.Value.toJson]

theorem lookup {i : Json} (h : FromToml j) (hfs : j.fieldsWithDefaults? names = some fs)
    (hi : fs.lookup name = some i) : FromToml i := by
  obtain ⟨w, rfl⟩ := h
  have hmem : (name, i) ∈ fs := by
    obtain ⟨before, after, rfl, -⟩ := List.lookup_eq_some_iff.1 hi
    simp
  cases w with
  | table ms =>
    obtain ⟨rfl, -⟩ := fields?_object_eq_some.1 hfs
    exact mem_membersJson (List.mem_of_mem_filter hmem)
  | time =>
    have hempty : fields? names (.object []) = some fs := hfs
    obtain ⟨rfl, -⟩ := fields?_object_eq_some.1 hempty
    cases hmem
  | array vs =>
    simp only [Toml.Value.toJson, fieldsWithDefaults?] at hfs
    split at hfs
    · cases hfs
      exact mem_itemsJson (List.of_mem_zip hmem).2
    · cases hfs
  | _ => cases hfs

end FromToml

/-! ### Fields -/

namespace Template

variable {t : Template} {members : List (String × Template)} {ms : List (String × Json)}
  {read : Json → Option α}

theorem fill_part (hfs : j.fieldsWithDefaults? (members.map Prod.fst) = some fs)
    (h : fillMembers defaults fs members = some ms) :
    (part defaults members).fill j = some (.object ms) := by
  rw [fill, hfs, Option.bind_some, h, Option.map_some]

/-- A field with a default. -/
theorem fillMembers_getD (write : α → Json) {a default : α}
    (h : fs.getD name read default = some a)
    (hdefault : defaults.get? name = some (write default))
    (hread : ∀ i, fs.lookup name = some i → read i = some a → t.fill i = some (write a))
    (hrest : fillMembers defaults fs members = some ms) :
    fillMembers defaults fs ((name, t) :: members) = some ((name, write a) :: ms) := by
  rw [Fields.getD] at h
  rw [fillMembers, Fields.fill]
  rcases hl : fs.lookup name with _ | i <;> rw [hl] at h
  · cases h
    simp [hdefault, hrest]
  · simp [hread i hl h, hrest]

section Maybe

variable {o : Option α} (write : α → Json) (h : fs.maybe name read = some o)
  (hnull : fs.lookup name ≠ some .null)
  (hread : ∀ i a, fs.lookup name = some i → read i = some a → t.fill i = some (write a))
  (hrest : fillMembers defaults fs members = some ms)

include h hnull hread hrest

/-- A field that is left out if it is missing. -/
theorem fillMembers_maybe (hdefault : defaults.get? name = none) :
    fillMembers defaults fs ((name, t) :: members) =
      some ((o.map fun a => (name, write a)).toList ++ ms) := by
  rw [fillMembers, Fields.fill]
  rcases hl : fs.lookup name with _ | i
  · rw [Fields.maybe_of_none hl] at h
    cases h
    simp [hdefault, hrest]
  · rw [Fields.maybe_of_some hl fun he => hnull (he ▸ hl)] at h
    obtain ⟨a, ha, rfl⟩ := Option.map_eq_some_iff.1 h
    simp [hread i a hl ha, hrest]

/-- A field that is `null` if it is missing. -/
theorem fillMembers_orNull (hdefault : defaults.get? name = some .null) :
    fillMembers defaults fs ((name, t) :: members) = some ((name, orNull write o) :: ms) := by
  rw [fillMembers, Fields.fill]
  rcases hl : fs.lookup name with _ | i
  · rw [Fields.maybe_of_none hl] at h
    cases h
    simp [hdefault, hrest, orNull]
  · rw [Fields.maybe_of_some hl fun he => hnull (he ▸ hl)] at h
    obtain ⟨a, ha, rfl⟩ := Option.map_eq_some_iff.1 h
    simp [hread i a hl ha, hrest, orNull]

end Maybe

end Template

/-! ### Values -/

theorem fill_string {a : String} (h : string? j = some a) :
    Template.value.fill j = some (.string a) := by
  cases j <;> cases h
  rfl

theorem fill_bool {b : Bool} (h : bool? j = some b) : Template.value.fill j = some (.bool b) := by
  cases j <;> cases h
  rfl

theorem fill_signed {bits : Nat} {i : Int} (h : signed? bits j = some i) :
    Template.value.fill j = some (.int i) := by
  cases j with
  | int k =>
    rw [signed?] at h
    split at h <;> cases h
    rfl
  | _ => cases h

theorem fill_unsigned {bits n : Nat} (h : unsigned? bits j = some n) :
    Template.value.fill j = some (.nat n) := by
  cases j with
  | int k =>
    rw [unsigned?] at h
    split at h
    next hk =>
      obtain rfl := Option.some.inj h
      rw [Template.fill, Json.nat, Int.toNat_of_nonneg hk.1]
    next => cases h
  | _ => cases h

/-- A variant is given by its name. -/
theorem fill_variant {ofName? : String → Option α} {toName : α → String} {a : α}
    (hname : ∀ s a, ofName? s = some a → toName a = s) (hj : j.FromToml)
    (h : variant? ofName? j = some a) : Template.value.fill j = some (.string (toName a)) := by
  rw [variant?.eq_def] at h
  split at h
  next s =>
    rw [hname s a h]
    rfl
  next s => exact absurd rfl hj.ne_object_null
  next => cases h

theorem nat_inj {m n : Nat} : nat m = nat n ↔ m = n :=
  ⟨fun h => Int.ofNat.inj (Json.int.inj h), congrArg nat⟩

theorem orNull_injective {write : α → Json} (hwrite : Function.Injective write)
    (hnull : ∀ a, write a ≠ .null) : Function.Injective (orNull write) := by
  rintro (_ | a) (_ | b) h
  · rfl
  · exact absurd h.symm (hnull b)
  · exact absurd h (hnull a)
  · exact congrArg some (hwrite h)

end Json

open Json Json.Template

/-! ### Parts -/

namespace DatabaseConfig

/-- What counts in the part about the database. -/
def template : Template :=
  .part (toJson {}) [("url", .value), ("max_connections", .value), ("connect_timeout", .value)]

theorem fill_template {j : Json} {c : DatabaseConfig} (h : ofJson? j = some c) :
    template.fill j = some c.toJson := by
  simp only [ofJson?, Option.bind_eq_bind, Option.bind_eq_some_iff] at h
  obtain ⟨fs, hfs, url, hurl, max, hmax, timeout, htimeout, hc⟩ := h
  cases hc
  refine fill_part hfs ?_
  refine fillMembers_getD Json.string hurl rfl (fun _ _ => fill_string) ?_
  refine fillMembers_getD Json.nat hmax rfl (fun _ _ => fill_unsigned) ?_
  refine fillMembers_getD Json.nat htimeout rfl (fun _ _ => fill_unsigned) ?_
  rfl

theorem toJson_injective : Function.Injective toJson := by
  rintro ⟨⟩ ⟨⟩ h
  simpa [toJson, Json.nat_inj] using h

end DatabaseConfig

namespace RedisConfig

/-- What counts in the part about a Redis server. -/
def template : Template :=
  .part (toJson {}) [("url", .value), ("pool_size", .value), ("connection_timeout", .value)]

theorem fill_template {j : Json} {c : RedisConfig} (h : ofJson? j = some c) :
    template.fill j = some c.toJson := by
  simp only [ofJson?, Option.bind_eq_bind, Option.bind_eq_some_iff] at h
  obtain ⟨fs, hfs, url, hurl, pool, hpool, timeout, htimeout, hc⟩ := h
  cases hc
  refine fill_part hfs ?_
  refine fillMembers_getD Json.string hurl rfl (fun _ _ => fill_string) ?_
  refine fillMembers_getD Json.nat hpool rfl (fun _ _ => fill_unsigned) ?_
  refine fillMembers_getD Json.nat htimeout rfl (fun _ _ => fill_unsigned) ?_
  rfl

theorem toJson_injective : Function.Injective toJson := by
  rintro ⟨⟩ ⟨⟩ h
  simpa [toJson, Json.nat_inj] using h

end RedisConfig

theorem CacheType.name_of_ofName? (s : String) (t : CacheType) (h : ofName? s = some t) :
    t.name = s := by
  revert h
  fun_cases ofName? s <;> rintro ⟨⟩ <;> rfl

theorem CacheType.name_injective : Function.Injective name := by
  rintro (_ | _) (_ | _) h <;> first | rfl | simp [name] at h

namespace CacheConfig

/-- What counts in the part about the cache. -/
def template : Template :=
  .part (toJson {})
    [("cache_type", .value), ("memory_max_entries", .value), ("redis", RedisConfig.template)]

theorem fill_template {j : Json} {c : CacheConfig} (hj : j.FromToml) (h : ofJson? j = some c) :
    template.fill j = some c.toJson := by
  simp only [ofJson?, Option.bind_eq_bind, Option.bind_eq_some_iff] at h
  obtain ⟨fs, hfs, kind, hkind, entries, hentries, redis, hredis, hc⟩ := h
  cases hc
  have hplain {name : String} {i : Json} (hi : fs.lookup name = some i) := hj.lookup hfs hi
  refine fill_part hfs ?_
  refine fillMembers_getD (fun k => .string (CacheType.name k)) hkind rfl
    (fun _ hi => fill_variant CacheType.name_of_ofName? (hplain hi)) ?_
  refine fillMembers_getD Json.nat hentries rfl (fun _ _ => fill_unsigned) ?_
  have hlast : fillMembers (toJson {}) fs [("redis", RedisConfig.template)] =
      some ((redis.map fun r => ("redis", r.toJson)).toList ++ []) :=
    fillMembers_maybe RedisConfig.toJson hredis (fun hi => (hplain hi).ne_null rfl)
      (fun _ _ _ => RedisConfig.fill_template) rfl rfl
  rwa [List.append_nil] at hlast

theorem toJson_injective : Function.Injective toJson := by
  rintro ⟨kind, entries, redis⟩ ⟨kind', entries', redis'⟩ h
  rcases redis with _ | redis <;> rcases redis' with _ | redis'
  · simpa [toJson, Json.nat_inj, CacheType.name_injective.eq_iff] using h
  · simp [toJson] at h
  · simp [toJson] at h
  · simpa [toJson, Json.nat_inj, CacheType.name_injective.eq_iff,
      RedisConfig.toJson_injective.eq_iff] using h

end CacheConfig

namespace JwtConfig

/-- What counts in the part about tokens. -/
def template : Template :=
  .part (toJson {})
    [("secret_key", .value), ("algorithm", .value), ("access_token_lifetime", .value),
     ("refresh_token_lifetime", .value)]

theorem fill_template {j : Json} {c : JwtConfig} (h : ofJson? j = some c) :
    template.fill j = some c.toJson := by
  simp only [ofJson?, Option.bind_eq_bind, Option.bind_eq_some_iff] at h
  obtain ⟨fs, hfs, secret, hsecret, algorithm, halgorithm, access, haccess, refresh, hrefresh,
    hc⟩ := h
  cases hc
  refine fill_part hfs ?_
  refine fillMembers_getD Json.string hsecret rfl (fun _ _ => fill_string) ?_
  refine fillMembers_getD Json.string halgorithm rfl (fun _ _ => fill_string) ?_
  refine fillMembers_getD Json.nat haccess rfl (fun _ _ => fill_unsigned) ?_
  refine fillMembers_getD Json.nat hrefresh rfl (fun _ _ => fill_unsigned) ?_
  rfl

theorem toJson_injective : Function.Injective toJson := by
  rintro ⟨⟩ ⟨⟩ h
  simpa [toJson, Json.nat_inj] using h

end JwtConfig

namespace OtpConfig

/-- What counts in the part about one-time codes. -/
def template : Template :=
  .part (toJson {})
    [("length", .value), ("window", .value), ("max_retries", .value), ("test_mode", .value),
     ("test_code", .value), ("test_window", .value), ("sms_template", .value),
     ("email_subject_verification", .value), ("email_subject_reset_password", .value)]

theorem fill_template {j : Json} {c : OtpConfig} (h : ofJson? j = some c) :
    template.fill j = some c.toJson := by
  simp only [ofJson?, Option.bind_eq_bind, Option.bind_eq_some_iff] at h
  obtain ⟨fs, hfs, length, hlength, window, hwindow, retries, hretries, mode, hmode, code, hcode,
    testWindow, htestWindow, sms, hsms, verify, hverify, reset, hreset, hc⟩ := h
  cases hc
  refine fill_part hfs ?_
  refine fillMembers_getD Json.nat hlength rfl (fun _ _ => fill_unsigned) ?_
  refine fillMembers_getD Json.nat hwindow rfl (fun _ _ => fill_unsigned) ?_
  refine fillMembers_getD Json.int hretries rfl (fun _ _ => fill_signed) ?_
  refine fillMembers_getD Json.bool hmode rfl (fun _ _ => fill_bool) ?_
  refine fillMembers_getD Json.string hcode rfl (fun _ _ => fill_string) ?_
  refine fillMembers_getD Json.nat htestWindow rfl (fun _ _ => fill_unsigned) ?_
  refine fillMembers_getD Json.string hsms rfl (fun _ _ => fill_string) ?_
  refine fillMembers_getD Json.string hverify rfl (fun _ _ => fill_string) ?_
  refine fillMembers_getD Json.string hreset rfl (fun _ _ => fill_string) ?_
  rfl

theorem toJson_injective : Function.Injective toJson := by
  rintro ⟨⟩ ⟨⟩ h
  simpa [toJson, Json.nat_inj] using h

end OtpConfig

namespace SecurityConfig

/-- What counts in the part about passwords. -/
def template : Template :=
  .part (toJson {}) [("bcrypt_cost", .value), ("random_password_length", .value)]

theorem fill_template {j : Json} {c : SecurityConfig} (h : ofJson? j = some c) :
    template.fill j = some c.toJson := by
  simp only [ofJson?, Option.bind_eq_bind, Option.bind_eq_some_iff] at h
  obtain ⟨fs, hfs, cost, hcost, length, hlength, hc⟩ := h
  cases hc
  refine fill_part hfs ?_
  refine fillMembers_getD Json.nat hcost rfl (fun _ _ => fill_unsigned) ?_
  refine fillMembers_getD Json.nat hlength rfl (fun _ _ => fill_unsigned) ?_
  rfl

theorem toJson_injective : Function.Injective toJson := by
  rintro ⟨⟩ ⟨⟩ h
  simpa [toJson, Json.nat_inj] using h

end SecurityConfig

theorem NotifierKind.name_of_ofName? (s : String) (k : NotifierKind) (h : ofName? s = some k) :
    k.name = s := by
  revert h
  fun_cases ofName? s <;> rintro ⟨⟩ <;> rfl

theorem NotifierKind.name_injective : Function.Injective name := by
  rintro (_ | _) (_ | _) h <;> first | rfl | simp [name] at h

namespace NotifierConfig

/-- What counts in the part about messages. -/
def template : Template :=
  .part (toJson {})
    [("kind", .value), ("sms_url", .value), ("email_url", .value), ("sender_email", .value),
     ("timeout", .value)]

theorem fill_template {j : Json} {c : NotifierConfig} (hj : j.FromToml) (h : ofJson? j = some c) :
    template.fill j = some c.toJson := by
  simp only [ofJson?, Option.bind_eq_bind, Option.bind_eq_some_iff] at h
  obtain ⟨fs, hfs, kind, hkind, sms, hsms, email, hemail, sender, hsender, timeout, htimeout,
    hc⟩ := h
  cases hc
  have hplain {name : String} {i : Json} (hi : fs.lookup name = some i) := hj.lookup hfs hi
  refine fill_part hfs ?_
  refine fillMembers_getD (fun k => .string (NotifierKind.name k)) hkind rfl
    (fun _ hi => fill_variant NotifierKind.name_of_ofName? (hplain hi)) ?_
  refine fillMembers_orNull Json.string hsms (fun hi => (hplain hi).ne_null rfl)
    (fun _ _ _ => fill_string) ?_ rfl
  refine fillMembers_orNull Json.string hemail (fun hi => (hplain hi).ne_null rfl)
    (fun _ _ _ => fill_string) ?_ rfl
  refine fillMembers_getD Json.string hsender rfl (fun _ _ => fill_string) ?_
  refine fillMembers_getD Json.nat htimeout rfl (fun _ _ => fill_unsigned) ?_
  rfl

theorem toJson_injective : Function.Injective toJson := by
  have htext : Function.Injective stringOrNull :=
    orNull_injective (fun _ _ h => Json.string.inj h) nofun
  rintro ⟨⟩ ⟨⟩ h
  simpa [toJson, Json.nat_inj, NotifierKind.name_injective.eq_iff, htext.eq_iff] using h

end NotifierConfig

namespace GoogleConfig

/-- What counts in the part about Google. -/
def template : Template :=
  .part (toJson {})
    [("client_id", .value), ("client_secret", .value), ("redirect_uri", .value),
     ("token_url", .value), ("userinfo_url", .value), ("tokeninfo_url", .value)]

theorem fill_template {j : Json} {c : GoogleConfig} (h : ofJson? j = some c) :
    template.fill j = some c.toJson := by
  simp only [ofJson?, Option.bind_eq_bind, Option.bind_eq_some_iff] at h
  obtain ⟨fs, hfs, id, hid, secret, hsecret, back, hback, token, htoken, info, hinfo, check, hcheck,
    hc⟩ := h
  cases hc
  refine fill_part hfs ?_
  refine fillMembers_getD Json.string hid rfl (fun _ _ => fill_string) ?_
  refine fillMembers_getD Json.string hsecret rfl (fun _ _ => fill_string) ?_
  refine fillMembers_getD Json.string hback rfl (fun _ _ => fill_string) ?_
  refine fillMembers_getD Json.string htoken rfl (fun _ _ => fill_string) ?_
  refine fillMembers_getD Json.string hinfo rfl (fun _ _ => fill_string) ?_
  refine fillMembers_getD Json.string hcheck rfl (fun _ _ => fill_string) ?_
  rfl

theorem toJson_injective : Function.Injective toJson := by
  rintro ⟨⟩ ⟨⟩ h
  simpa [toJson] using h

end GoogleConfig

namespace FacebookConfig

/-- What counts in the part about Facebook. -/
def template : Template :=
  .part (toJson {})
    [("client_id", .value), ("client_secret", .value), ("redirect_uri", .value),
     ("graph_url", .value)]

theorem fill_template {j : Json} {c : FacebookConfig} (h : ofJson? j = some c) :
    template.fill j = some c.toJson := by
  simp only [ofJson?, Option.bind_eq_bind, Option.bind_eq_some_iff] at h
  obtain ⟨fs, hfs, id, hid, secret, hsecret, back, hback, graph, hgraph, hc⟩ := h
  cases hc
  refine fill_part hfs ?_
  refine fillMembers_getD Json.string hid rfl (fun _ _ => fill_string) ?_
  refine fillMembers_getD Json.string hsecret rfl (fun _ _ => fill_string) ?_
  refine fillMembers_getD Json.string hback rfl (fun _ _ => fill_string) ?_
  refine fillMembers_getD Json.string hgraph rfl (fun _ _ => fill_string) ?_
  rfl

theorem toJson_injective : Function.Injective toJson := by
  rintro ⟨⟩ ⟨⟩ h
  simpa [toJson] using h

end FacebookConfig

namespace SocialConfig

/-- What counts in the part about other services. -/
def template : Template :=
  .part (toJson {}) [("google", GoogleConfig.template), ("facebook", FacebookConfig.template)]

theorem fill_template {j : Json} {c : SocialConfig} (hj : j.FromToml) (h : ofJson? j = some c) :
    template.fill j = some c.toJson := by
  simp only [ofJson?, Option.bind_eq_bind, Option.bind_eq_some_iff] at h
  obtain ⟨fs, hfs, google, hgoogle, facebook, hfacebook, hc⟩ := h
  cases hc
  have hplain {name : String} {i : Json} (hi : fs.lookup name = some i) := hj.lookup hfs hi
  refine fill_part hfs ?_
  refine fillMembers_orNull GoogleConfig.toJson hgoogle (fun hi => (hplain hi).ne_null rfl)
    (fun _ _ _ => GoogleConfig.fill_template) ?_ rfl
  refine fillMembers_orNull FacebookConfig.toJson hfacebook (fun hi => (hplain hi).ne_null rfl)
    (fun _ _ _ => FacebookConfig.fill_template) ?_ rfl
  rfl

theorem toJson_injective : Function.Injective toJson := by
  have hgoogle := orNull_injective GoogleConfig.toJson_injective nofun
  have hfacebook := orNull_injective FacebookConfig.toJson_injective nofun
  rintro ⟨⟩ ⟨⟩ h
  simpa [toJson, hgoogle.eq_iff, hfacebook.eq_iff] using h

end SocialConfig

/-! ### The whole -/

namespace Config

/-- What counts in a configuration. -/
def template : Template :=
  .part (toJson {})
    [("database", DatabaseConfig.template), ("cache", CacheConfig.template),
     ("jwt", JwtConfig.template), ("otp", OtpConfig.template),
     ("security", SecurityConfig.template), ("notifier", NotifierConfig.template),
     ("social", SocialConfig.template)]

/-- A configuration that is read from TOML has the values that stand there, and defaults for the
rest. -/
theorem fill_template {j : Json} {c : Config} (hj : j.FromToml) (h : ofJson? j = some c) :
    template.fill j = some c.toJson := by
  simp only [ofJson?, Option.bind_eq_bind, Option.bind_eq_some_iff] at h
  obtain ⟨fs, hfs, database, hdatabase, cache, hcache, jwt, hjwt, otp, hotp, security, hsecurity,
    notifier, hnotifier, social, hsocial, hc⟩ := h
  cases hc
  have hplain {name : String} {i : Json} (hi : fs.lookup name = some i) := hj.lookup hfs hi
  refine fill_part hfs ?_
  refine fillMembers_getD DatabaseConfig.toJson hdatabase rfl
    (fun _ _ => DatabaseConfig.fill_template) ?_
  refine fillMembers_getD CacheConfig.toJson hcache rfl
    (fun _ hi => CacheConfig.fill_template (hplain hi)) ?_
  refine fillMembers_getD JwtConfig.toJson hjwt rfl (fun _ _ => JwtConfig.fill_template) ?_
  refine fillMembers_getD OtpConfig.toJson hotp rfl (fun _ _ => OtpConfig.fill_template) ?_
  refine fillMembers_getD SecurityConfig.toJson hsecurity rfl
    (fun _ _ => SecurityConfig.fill_template) ?_
  refine fillMembers_getD NotifierConfig.toJson hnotifier rfl
    (fun _ hi => NotifierConfig.fill_template (hplain hi)) ?_
  refine fillMembers_getD SocialConfig.toJson hsocial rfl
    (fun _ hi => SocialConfig.fill_template (hplain hi)) ?_
  rfl

/-- The written form leaves nothing out. -/
theorem toJson_injective : Function.Injective toJson := by
  rintro ⟨⟩ ⟨⟩ h
  simpa [toJson, DatabaseConfig.toJson_injective.eq_iff, CacheConfig.toJson_injective.eq_iff,
    JwtConfig.toJson_injective.eq_iff, OtpConfig.toJson_injective.eq_iff,
    SecurityConfig.toJson_injective.eq_iff, NotifierConfig.toJson_injective.eq_iff,
    SocialConfig.toJson_injective.eq_iff] using h

end Config

end AuthCore
