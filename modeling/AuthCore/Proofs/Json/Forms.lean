import AuthCore.Proofs.Json.Document
import AuthCore.Proofs.Json.Record
import AuthCore.Proofs.Store.Row
import AuthCore.Proofs.Token.Access
import AuthCore.Otp.Message
import AuthCore.Social.Profile
import AuthCore.Token.Pair
import Mathlib.Data.Set.List

/-!
# The written forms read back

Every kind of value that is written as a document reads back from its printed text, and from every
text of a document that is an edit of it. Readers of records follow their shapes field by field, so
it is enough that each value reads back from the document it is written as. A user reads back
without the hash of the password, which is not written.
-/

namespace AuthCore

open Json

/-- The written form of values of a type. -/
structure Form (α : Type) where
  /-- How the documents are built. -/
  shape : Shape
  /-- The document of a value. -/
  write : α → Json
  /-- The value of a document. -/
  read : Json → Option α

namespace Form

variable {α : Type} {F : Form α} {a b : α}

/-- The printed text of a value. -/
def print (F : Form α) (a : α) : String := (F.write a).text

/-- The value of a text. -/
def parse? (F : Form α) (text : String) : Option α := (Json.ofText? text).bind F.read

/-- A value is read back as some value: from its printed text, and from every text of an edited
document. Texts with a known member twice are refused, and sets are written in ascending order. -/
structure RoundTrips (F : Form α) (a b : α) : Prop where
  printed : F.parse? (F.print a) = some b
  edited : ∀ {j text}, Relation.ReflTransGen (Edit F.shape) (F.write a) j →
    Json.ofText? text = some j → F.parse? text = some b
  repeated : ∀ {j text}, Json.ofText? text = some j → Repeats F.shape j → F.parse? text = none
  ascending : Ascending F.shape (F.write a)

theorem parse?_eq {j : Json} {text : String} (h : Json.ofText? text = some j) :
    F.parse? text = F.read j := by
  rw [parse?, h, Option.bind_some]

/-- A value reads back if it does so from its document and the reader follows the shape. -/
theorem RoundTrips.of_follows (hf : Follows F.read F.shape) (hread : F.read (F.write a) = some b)
    (hplain : (F.write a).IsPlain) (hascending : Ascending F.shape (F.write a)) :
    F.RoundTrips a b where
  printed := (parse?_eq (ofText?_text _ hplain)).trans hread
  edited hedits htext := (parse?_eq htext).trans (hf.edits hedits hread)
  repeated htext hrepeats := (parse?_eq htext).trans (hf.repeated hrepeats)
  ascending := hascending

/-- A value without members reads back if it does so from its document. -/
theorem RoundTrips.of_scalar {write : α → Json} {read : Json → Option α} (hnull : read .null = none)
    (hread : read (write a) = some b) (hplain : (write a).IsPlain) :
    RoundTrips ⟨.scalar, write, read⟩ a b :=
  .of_follows (follows_scalar hnull) hread hplain ascending_scalar

end Form

/-! ### Sets of rules and permissions -/

theorem Json.list?_string_eq_some {j : Json} {texts : List String}
    (h : list? string? j = some texts) : j = .strings texts := by
  cases j with
  | array items =>
    rw [list?] at h
    induction items generalizing texts with
    | nil =>
      cases h
      rfl
    | cons i items ih =>
      rw [List.mapM_cons] at h
      obtain ⟨t, ht, h⟩ := Option.bind_eq_some_iff.1 h
      obtain ⟨ts, hts, h⟩ := Option.bind_eq_some_iff.1 h
      cases h
      cases i with
      | string s =>
        cases ht
        cases ih hts
        rfl
      | _ => cases ht
  | _ => cases h

namespace RuleSet

theorem mem_strings {texts : List String} {t : String} :
    Json.string t ∈ texts.map Json.string ↔ t ∈ texts :=
  List.mem_map_of_injective fun _ _ => Json.string.inj

theorem follows : Follows ofJson? .set where
  edit := by
    intro _ _ s hedit hread
    cases hedit with
    | @respell items items' hsame =>
      obtain ⟨texts, htexts, rfl⟩ := Option.map_eq_some_iff.1 hread
      obtain rfl : items = texts.map .string := Json.array.inj (list?_string_eq_some htexts)
      have hrange : items' ∈ Set.range (List.map Json.string) := by
        rw [Set.range_list_map]
        intro j hj
        obtain ⟨t, -, rfl⟩ := List.mem_map.1 ((hsame j).1 hj)
        exact ⟨t, rfl⟩
      obtain ⟨texts', rfl⟩ := hrange
      have hmem (t : String) : t ∈ texts' ↔ t ∈ texts := by
        rw [← mem_strings, hsame, mem_strings]
      rw [ofJson?, show list? string? (.array (texts'.map .string)) = some texts' from
        list?_strings texts', Option.map_some]
      refine congrArg some (ext_contains fun rule => Bool.eq_iff_iff.2 ?_)
      rw [contains_ofList, contains_ofList, hmem]
  repeated hj := absurd hj not_repeats_set
  null := rfl

theorem ascending (s : RuleSet) : Ascending .set s.toJson := by
  intro j' hpart
  cases hpart
  refine ⟨s.toList, rfl, List.pairwise_map.2 (s.names.ordered.imp ?_)⟩
  exact fun h => Text.utf8_lt (compare_lt_iff_lt.1 h)

end RuleSet

namespace Permission

/-- How permissions are written. -/
def form : Form Permission := ⟨.record [("entity", .scalar), ("rules", .set)], toJson, ofJson?⟩

theorem follows : Follows ofJson? form.shape :=
  follows_record (fun _ => rfl) (by decide) <|
    .need (follows_scalar rfl) fun _ => .need RuleSet.follows fun _ => .pure _

theorem isPlain_toJson (p : Permission) : p.toJson.IsPlain :=
  ⟨trivial, isPlain_strings _, trivial⟩

theorem ascending (p : Permission) : Ascending form.shape p.toJson := by
  refine ascending_record ?_
  simp [p.rules.ascending]

theorem ascending_list (ps : List Permission) :
    Ascending (.list form.shape) (.array (ps.map toJson)) := by
  refine Json.ascending_list fun j hj => ?_
  obtain ⟨p, -, rfl⟩ := List.mem_map.1 hj
  exact p.ascending

theorem roundTrips (p : Permission) : form.RoundTrips p p :=
  .of_follows follows p.ofJson?_toJson p.isPlain_toJson p.ascending

end Permission

/-! ### The other forms -/

open Fields

namespace Role

/-- How roles are written. -/
def form : Form Role := ⟨.scalar, toJson, ofJson?⟩

theorem roundTrips (r : Role) : form.RoundTrips r r := .of_scalar rfl r.ofName?_name trivial

end Role

namespace UserStatus

/-- How states of the review are written. -/
def form : Form UserStatus := ⟨.scalar, toJson, ofJson?⟩

theorem roundTrips (s : UserStatus) : form.RoundTrips s s := .of_scalar rfl s.ofName?_name trivial

end UserStatus

namespace LoginType

/-- How login types are written. -/
def form : Form LoginType := ⟨.scalar, toJson, ofJson?⟩

theorem roundTrips (t : LoginType) : form.RoundTrips t t := .of_scalar rfl t.ofName?_name trivial

end LoginType

namespace OtpPurpose

/-- How purposes of one-time codes are written. -/
def form : Form OtpPurpose := ⟨.scalar, toJson, ofJson?⟩

theorem ofName?_name (p : OtpPurpose) : ofName? p.name = some p := by
  cases p <;> rfl

theorem roundTrips (p : OtpPurpose) : form.RoundTrips p p := .of_scalar rfl p.ofName?_name trivial

end OtpPurpose

namespace Username

/-- How usernames are written. -/
def form : Form Username := ⟨.record [("type", .scalar), ("value", .scalar)], toJson, ofJson?⟩

theorem follows : Follows ofJson? form.shape :=
  follows_record (fun _ => rfl) (by decide) <|
    .need (follows_scalar rfl) fun _ => .need (follows_scalar rfl) fun _ => .pure _

theorem ofJson?_toJson (n : Username) : ofJson? n.toJson = some n := by
  cases n <;> exact fields?_bind rfl <| need_bind rfl rfl <| need_bind rfl rfl rfl

theorem roundTrips (n : Username) : form.RoundTrips n n := by
  refine .of_follows follows n.ofJson?_toJson ⟨trivial, trivial, trivial⟩ (ascending_record ?_)
  simp

end Username

namespace EntityRules

/-- How entities of the catalog are written. -/
def form : Form EntityRules :=
  ⟨.record [("code_name", .scalar), ("valid_rules", .set)], toJson, ofJson?⟩

theorem follows : Follows ofJson? form.shape :=
  follows_record (fun _ => rfl) (by decide) <|
    .need (follows_scalar rfl) fun _ => .need RuleSet.follows fun _ => .pure _

theorem ofJson?_toJson (e : EntityRules) : ofJson? e.toJson = some e :=
  fields?_bind rfl <| need_bind rfl rfl <| need_bind rfl e.validRules.ofJson?_toJson rfl

theorem roundTrips (e : EntityRules) : form.RoundTrips e e := by
  refine .of_follows follows e.ofJson?_toJson ⟨trivial, isPlain_strings _, trivial⟩
    (ascending_record ?_)
  simp [e.validRules.ascending]

end EntityRules

namespace Group

/-- How groups are written. -/
def form : Form Group :=
  ⟨.record [("name", .scalar), ("description", .scalar),
    ("permissions", .list Permission.form.shape), ("is_enable", .scalar)], toJson, ofJson?⟩

theorem follows : Follows ofJson? form.shape :=
  follows_record (fun _ => rfl) (by decide) <|
    .need (follows_scalar rfl) fun _ => .maybe (follows_scalar rfl) fun _ =>
    .need (follows_list Permission.follows) fun _ => .need (follows_scalar rfl) fun _ => .pure _

theorem ofJson?_toJson (g : Group) : ofJson? g.toJson = some g :=
  fields?_bind rfl <| need_bind rfl rfl <| maybe_string_bind rfl <|
    need_bind rfl (Permission.list?_listJson g.permissions) <| need_bind rfl rfl rfl

theorem roundTrips (g : Group) : form.RoundTrips g g := by
  refine .of_follows follows g.ofJson?_toJson ?_ (ascending_record ?_)
  · exact ⟨trivial, isPlain_stringOrNull _, arePlain_map fun p _ => p.isPlain_toJson, trivial,
      trivial⟩
  · simp [Permission.ascending_list]

end Group

namespace TokenPair

/-- How pairs of tokens are written. -/
def form : Form TokenPair :=
  ⟨.record [("access_token", .scalar), ("refresh_token", .scalar), ("token_type", .scalar)], toJson,
    ofJson?⟩

theorem follows : Follows ofJson? form.shape :=
  follows_record (fun _ => rfl) (by decide) <|
    .need (follows_scalar rfl) fun _ => .need (follows_scalar rfl) fun _ =>
    .need (follows_scalar rfl) fun _ => .pure _

theorem ofJson?_toJson (p : TokenPair) : ofJson? p.toJson = some p :=
  fields?_bind rfl <| need_bind rfl rfl <| need_bind rfl rfl <| need_bind rfl rfl rfl

theorem roundTrips (p : TokenPair) : form.RoundTrips p p := by
  refine .of_follows follows p.ofJson?_toJson ⟨trivial, trivial, trivial, trivial⟩
    (ascending_record ?_)
  simp

end TokenPair

namespace AccessClaims

/-- How the claims of access tokens are written. -/
def form : Form AccessClaims :=
  ⟨.record [("user_id", .scalar), ("role", .scalar), ("limited", .scalar), ("iat", .scalar),
    ("exp", .scalar)], toJson, ofJson?⟩

theorem follows : Follows ofJson? form.shape :=
  follows_record (fun _ => rfl) (by decide) <|
    .need (follows_scalar rfl) fun _ => .need (follows_scalar rfl) fun _ =>
    .need (follows_scalar rfl) fun _ => .need (follows_scalar rfl) fun _ =>
    .need (follows_scalar rfl) fun _ => .pure _

theorem roundTrips {c : AccessClaims} (h : c.InRange) : form.RoundTrips c c := by
  refine .of_follows follows (ofJson?_toJson h) (isPlain_toJson h) (ascending_record ?_)
  simp

end AccessClaims

namespace SocialProfile

/-- How profiles are written. -/
def form : Form SocialProfile :=
  ⟨.record [("email", .scalar), ("first_name", .scalar), ("last_name", .scalar),
    ("avatar", .scalar), ("email_verified", .scalar)], toJson, ofJson?⟩

theorem follows : Follows ofJson? form.shape :=
  follows_record (fun _ => rfl) (by decide) <|
    .maybe (follows_scalar rfl) fun _ => .maybe (follows_scalar rfl) fun _ =>
    .maybe (follows_scalar rfl) fun _ => .maybe (follows_scalar rfl) fun _ =>
    .need (follows_scalar rfl) fun _ => .pure _

theorem ofJson?_toJson (p : SocialProfile) : ofJson? p.toJson = some p :=
  fields?_bind rfl <| maybe_string_bind rfl <| maybe_string_bind rfl <| maybe_string_bind rfl <|
    maybe_string_bind rfl <| need_bind rfl rfl rfl

theorem roundTrips (p : SocialProfile) : form.RoundTrips p p := by
  refine .of_follows follows p.ofJson?_toJson ?_ (ascending_record ?_)
  · exact ⟨isPlain_stringOrNull _, isPlain_stringOrNull _, isPlain_stringOrNull _,
      isPlain_stringOrNull _, trivial, trivial⟩
  · simp

end SocialProfile

/-! ### Users -/

namespace User

/-- How users are written. The hash of the password is read where it stands, and never written. -/
def form : Form User :=
  ⟨.record [("id", .scalar), ("email", .scalar), ("mobile_number", .scalar),
    ("hashed_password", .scalar), ("first_name", .scalar), ("last_name", .scalar),
    ("avatar", .scalar), ("role", .scalar), ("groups", .list .scalar),
    ("permissions", .list Permission.form.shape), ("is_enable", .scalar), ("is_blocked", .scalar),
    ("is_force_login", .scalar), ("is_force_change_password", .scalar),
    ("email_verified", .scalar), ("phone_verified", .scalar), ("user_status", .scalar),
    ("login_type", .scalar), ("login_datetime", .scalar), ("last_login_datetime", .scalar)],
    toJson, ofJson?⟩

/-- A user whose number has no more bits than it may have, and whose times have years of four digits
and are no leap seconds. -/
structure InRange (u : User) : Prop where
  id : RefreshToken.Fits u.id
  login : ∀ t, u.loginDatetime = some t → t.Plain
  lastLogin : ∀ t, u.lastLoginDatetime = some t → t.Plain

theorem follows : Follows ofJson? form.shape :=
  have scalar {α : Type} {f : Json → Option α} (h : f .null = none) : Follows f .scalar :=
    follows_scalar h
  follows_record (fun _ => rfl) (by decide) <|
    .need (scalar rfl) fun _ => .maybe (scalar rfl) fun _ => .maybe (scalar rfl) fun _ =>
    .maybe (scalar rfl) fun _ => .maybe (scalar rfl) fun _ => .maybe (scalar rfl) fun _ =>
    .maybe (scalar rfl) fun _ => .need (scalar rfl) fun _ =>
    .need (follows_list (scalar rfl)) fun _ => .need (follows_list Permission.follows) fun _ =>
    .need (scalar rfl) fun _ => .need (scalar rfl) fun _ => .need (scalar rfl) fun _ =>
    .need (scalar rfl) fun _ => .need (scalar rfl) fun _ => .need (scalar rfl) fun _ =>
    .need (scalar rfl) fun _ => .need (scalar rfl) fun _ => .maybe (scalar rfl) fun _ =>
    .maybe (scalar rfl) fun _ => .pure _

theorem timestamp?_text {t : Timestamp} (h : t.Plain) : timestamp? (.string t.text) = some t := by
  rw [timestamp?, string?, Option.bind_some, Timestamp.ofText?_text h]

theorem ofJson?_toJson {u : User} (h : u.InRange) :
    ofJson? u.toJson = some { u with hashedPassword := none } := by
  have hnames : u.toJson.members.map Prod.fst = fieldNames.erase "hashed_password" := rfl
  have hfields : u.toJson.fields? fieldNames = some u.toJson.members :=
    fields?_of_names (hnames ▸ by decide) (hnames ▸ by decide)
  exact fields?_bind hfields <| need_bind rfl (if_pos h.id) <| maybe_string_bind rfl <|
    maybe_string_bind rfl <| maybe_absent_bind rfl <| maybe_string_bind rfl <|
    maybe_string_bind rfl <| maybe_string_bind rfl <| need_bind rfl u.role.ofName?_name <|
    need_bind rfl (list?_strings u.groups) <|
    need_bind rfl (Permission.list?_listJson u.permissions) <| need_bind rfl rfl <|
    need_bind rfl rfl <| need_bind rfl rfl <| need_bind rfl rfl <| need_bind rfl rfl <|
    need_bind rfl rfl <| need_bind rfl u.userStatus.ofName?_name <|
    need_bind rfl u.loginType.ofName?_name <|
    maybe_bind rfl rfl (fun t ht => timestamp?_text (h.login t ht)) <|
    maybe_bind rfl rfl (fun t ht => timestamp?_text (h.lastLogin t ht)) rfl

theorem isPlain_toJson {u : User} (h : RefreshToken.Fits u.id) : u.toJson.IsPlain := by
  have hid : -2 ^ 63 ≤ u.id ∧ u.id < 2 ^ 64 := ⟨le_trans (by decide) h.1, h.2.trans (by decide)⟩
  have htime (o : Option Timestamp) : (orNull (fun t : Timestamp => .string t.text) o).IsPlain := by
    cases o <;> trivial
  have hpermissions : ArePlain (u.permissions.map Permission.toJson) :=
    arePlain_map fun p _ => p.isPlain_toJson
  simp only [toJson, IsPlain, MembersPlain, hid, htime, hpermissions, isPlain_strings,
    isPlain_stringOrNull, Role.toJson, UserStatus.toJson, LoginType.toJson, and_self]

theorem ascending (u : User) : Ascending form.shape u.toJson := by
  refine ascending_record ?_
  simp only [List.forall_mem_cons, ascending_scalar, implies_true, true_and]
  simp [Permission.ascending_list]

theorem roundTrips {u : User} (h : u.InRange) :
    form.RoundTrips u { u with hashedPassword := none } :=
  .of_follows follows (ofJson?_toJson h) (isPlain_toJson h.id) u.ascending

/-- The printed text keeps the hash of the password to itself. -/
theorem print_eq (u : User) (hash : Option String) :
    form.print { u with hashedPassword := hash } = form.print u := rfl

end User

/-! ### All forms -/

/-- Every value reads back from its written form, and from every edit of it: usernames, roles,
states of the review, login types, permissions, groups, entities of the catalog, pairs of tokens,
claims of access tokens, purposes of one-time codes and profiles as they were, users without the
hash of the password, which the written form does not depend on. -/
theorem Form.round_trips :
    (∀ n, Username.form.RoundTrips n n) ∧ (∀ r, Role.form.RoundTrips r r) ∧
    (∀ s, UserStatus.form.RoundTrips s s) ∧ (∀ t, LoginType.form.RoundTrips t t) ∧
    (∀ p, Permission.form.RoundTrips p p) ∧ (∀ g, Group.form.RoundTrips g g) ∧
    (∀ e, EntityRules.form.RoundTrips e e) ∧ (∀ p, TokenPair.form.RoundTrips p p) ∧
    (∀ c, c.InRange → AccessClaims.form.RoundTrips c c) ∧
    (∀ p, OtpPurpose.form.RoundTrips p p) ∧ (∀ p, SocialProfile.form.RoundTrips p p) ∧
    (∀ u, u.InRange → User.form.RoundTrips u { u with hashedPassword := none }) ∧
    ∀ u hash, User.form.print { u with hashedPassword := hash } = User.form.print u :=
  ⟨Username.roundTrips, Role.roundTrips, UserStatus.roundTrips, LoginType.roundTrips,
    Permission.roundTrips, Group.roundTrips, EntityRules.roundTrips, TokenPair.roundTrips,
    fun _ => AccessClaims.roundTrips, OtpPurpose.roundTrips, SocialProfile.roundTrips,
    fun _ => User.roundTrips, User.print_eq⟩

/-- Claims from before 1970 and a user with a password who has signed in. The rules of a permission
are written in another order, with one of them twice and behind a member that nobody knows. -/
theorem Form.round_trips_edited :
    let c : AccessClaims := ⟨1, .customer, false, -2, -1⟩
    let p : Permission := ⟨"order", .ofList ["read", "write"]⟩
    let u : User := { (NewUser.customer (.email "a@b.c")).toUser 1 with
      hashedPassword := some "hash", permissions := [p], loginDatetime := some ⟨0, 5⟩ }
    let edited : Json := .object
      [("more", .null), ("rules", .strings ["write", "read", "write"]), ("entity", .string "order")]
    AccessClaims.form.parse? (AccessClaims.form.print c) = some c ∧
      User.form.parse? (User.form.print u) = some { u with hashedPassword := none } ∧
      Permission.form.parse? edited.text = some p := by
  intro c p u edited
  obtain ⟨-, -, -, -, hpermission, -, -, -, hclaims, -, -, huser, -⟩ := Form.round_trips
  have hc : c.InRange := ⟨by decide, by decide, by decide⟩
  have hu : u.InRange := by
    refine ⟨by decide, ?_, nofun⟩
    rintro _ ⟨⟩
    exact ⟨by decide, by decide, by decide⟩
  have hsame (j : Json) : j ∈ ["write", "read", "write"].map Json.string ↔
      j ∈ ["read", "write"].map Json.string := by
    simp only [List.map_cons, List.map_nil, List.mem_cons, List.not_mem_nil]
    tauto
  have hedits : Relation.ReflTransGen (Edit Permission.form.shape) p.toJson edited :=
    .tail (.tail (.single (.reorder (.swap _ _ []))) (.member (.tail _ (.head _)) (.respell hsame)))
      (.add (by decide) _)
  have htext : Json.ofText? edited.text = some edited :=
    ofText?_text _ ⟨trivial, isPlain_strings _, trivial, trivial⟩
  exact ⟨(hclaims c hc).printed, (huser u hu).printed, (hpermission p).edited hedits htext⟩

end AuthCore
