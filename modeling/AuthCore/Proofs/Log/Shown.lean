import AuthCore.Log.Event
import AuthCore.Proofs.Text.Size
import AuthCore.Proofs.Token.Access
import AuthCore.Proofs.Token.Exchange

/-!
# What a log event shows

A token is a long text with a point in it, made of the characters of base 64 (`Text.IsTokenLike`).
The fixed words of a message cannot show one, not even together with a name beside them, because
there is a space, a bracket or a colon in between. So an event shows a token only if one of the
names does that it was made with (`Event.name_of_shows`).
-/

namespace AuthCore

namespace Text

/-- A text is part of another. -/
def Shows (s t : String) : Prop := t.toList <:+: s.toList

/-- Whether a character can stand in a token: it is a point, or one of base 64. -/
def isTokenChar (c : Char) : Bool := c == '.' || c == '-' || c == '_' || c.isAlphanum

theorem isTokenChar_of_mem : ∀ c ∈ Alphabet.url.chars, isTokenChar c = true :=
  List.all_eq_true.1 (by decide)

/-- A text has the form of a token. -/
structure IsTokenLike (t : String) : Prop where
  chars : ∀ c ∈ t.toList, isTokenChar c = true
  point : '.' ∈ t.toList
  long : 20 ≤ t.toList.length

/-- Every token that a text shows is shown by one of some names. -/
def ShowsOnly (names : List String) (s : String) : Prop :=
  ∀ t, IsTokenLike t → Shows s t → ∃ n ∈ names, Shows n t

/-- A text that shows no token and does not run into one behind it. -/
def IsLead (p : String) : Prop :=
  '.' ∉ p.toList ∧ p.toList.getLast?.any (!isTokenChar ·) = true

/-- A text that shows no token and keeps the tokens on its two sides apart. -/
def IsGap (p : String) : Prop := IsLead p ∧ p.toList.head?.any (!isTokenChar ·) = true

instance : DecidablePred IsLead := fun _ => inferInstanceAs (Decidable (_ ∧ _))

instance : DecidablePred IsGap := fun _ => inferInstanceAs (Decidable (_ ∧ _))

/-- A part in which a character does not occur lies on one side of it. -/
theorem isInfix_append_cons {α : Type} {t xs ys : List α} {c : α} (hc : c ∉ t)
    (h : t <:+: xs ++ c :: ys) : t <:+: xs ∨ t <:+: ys := by
  obtain ⟨a, b, h⟩ := h
  rcases List.append_eq_append_iff.1 h with ⟨k, rfl, -⟩ | ⟨k, hk, hys⟩
  · exact .inl ⟨a, k, rfl⟩
  · rcases k with _ | ⟨d, k⟩
    · rw [List.append_nil] at hk
      exact .inl ⟨a, [], by rw [List.append_nil, hk]⟩
    · obtain ⟨rfl, rfl⟩ := List.cons.inj hys
      -- the character stands in front of the whole part, since it is not in it
      rcases List.append_eq_append_iff.1 hk with ⟨j, rfl, rfl⟩ | ⟨j, rfl, hj⟩
      · exact absurd (List.mem_append_right j List.mem_cons_self) hc
      · rcases j with _ | ⟨e, j⟩
        · rw [List.nil_append] at hj
          exact absurd (hj ▸ List.mem_cons_self) hc
        · obtain ⟨-, rfl⟩ := List.cons.inj hj
          exact .inr ⟨j, b, rfl⟩

section ShowsOnly

variable {names : List String} {s s' p : String}

theorem showsOnly_of_mem (h : s ∈ names) : ShowsOnly names s := fun _ _ ht => ⟨s, h, ht⟩

theorem showsOnly_head (n : String) (ns : List String) : ShowsOnly (n :: ns) n :=
  showsOnly_of_mem List.mem_cons_self

theorem ShowsOnly.mono {names' : List String} (hs : ShowsOnly names s) (h : names ⊆ names') :
    ShowsOnly names' s := fun t ht hst =>
  let ⟨n, hn, hnt⟩ := hs t ht hst
  ⟨n, h hn, hnt⟩

/-- A text without a point shows no token. -/
theorem showsOnly_of_plain (h : '.' ∉ s.toList) : ShowsOnly names s := fun _ ht hst =>
  absurd (hst.subset ht.point) h

theorem showsOnly_of_short (h : s.toList.length < 20) : ShowsOnly names s := fun _ ht hst =>
  absurd (ht.long.trans hst.length_le) (by omega)

theorem IsTokenLike.notMem {t : String} {c : Char} (ht : IsTokenLike t)
    (hc : (!isTokenChar c) = true) : c ∉ t.toList := fun hm => by
  rw [ht.chars c hm] at hc
  cases hc

theorem ShowsOnly.behind (hp : IsLead p) (hs : ShowsOnly names s) : ShowsOnly names (p ++ s) := by
  intro t ht hst
  obtain ⟨hpoint, hlast⟩ := hp
  obtain ⟨c, hc, hcn⟩ := (Option.any_eq_true _ _).1 hlast
  obtain ⟨r, hr⟩ := List.getLast?_eq_some_iff.1 hc
  rw [Shows, String.toList_append, hr, List.append_assoc, List.singleton_append] at hst
  rcases isInfix_append_cons (ht.notMem hcn) hst with hst | hst
  · have hmem : '.' ∈ p.toList := by
      rw [hr]
      exact List.mem_append_left _ (hst.subset ht.point)
    exact absurd hmem hpoint
  · exact hs t ht hst

theorem ShowsOnly.gap (hs : ShowsOnly names s) (hp : IsGap p) (hs' : ShowsOnly names s') :
    ShowsOnly names (s ++ p ++ s') := by
  intro t ht hst
  obtain ⟨hlead, hfirst⟩ := hp
  obtain ⟨c, hc, hcn⟩ := (Option.any_eq_true _ _).1 hfirst
  obtain ⟨r, hr⟩ := List.head?_eq_some_iff.1 hc
  have hinfix : t.toList <:+: s.toList ++ c :: (r ++ s'.toList) := by
    rwa [Shows, String.toList_append, String.toList_append, hr, List.append_assoc,
      List.cons_append] at hst
  rcases isInfix_append_cons (ht.notMem hcn) hinfix with hst | hst
  · exact hs t ht hst
  · refine hs'.behind hlead t ht ?_
    rw [Shows, String.toList_append, hr, List.cons_append]
    exact hst.trans (List.suffix_cons _ _).isInfix

theorem ShowsOnly.before (hs : ShowsOnly names s) (hp : IsGap p) : ShowsOnly names (s ++ p) := by
  simpa using hs.gap hp (showsOnly_of_plain (s := "") (by decide))

theorem showsOnly_showNat (n : Nat) : ShowsOnly names (showNat n) := by
  refine showsOnly_of_plain fun h => ?_
  rw [showNat, String.toList_ofList] at h
  exact absurd (isDigit_of_mem_naturalDigits n h) (by decide)

theorem showsOnly_showInt (i : Int) : ShowsOnly names (showInt i) := by
  refine showsOnly_of_plain fun h => ?_
  rw [showInt, String.toList_ofList] at h
  exact RefreshToken.notMem_showInt (by decide) (by decide) i h

end ShowsOnly

end Text

namespace Event

open Text (ShowsOnly showsOnly_head showsOnly_of_mem showsOnly_of_plain showsOnly_of_short
  showsOnly_showNat showsOnly_showInt)

/-- The texts that the message of an event was made with: names, addresses, paths, keys of the cache
and the reports of errors. -/
def names : Event → List String
  | memoryCacheFull _ key | cacheWritten key => [key]
  | databaseConnecting url => [url]
  | directoryCreated path | fileCreated path | defaultConfig path => [path]
  | migrationFailed reason => [reason]
  | passwordMismatch username | registered _ username | otpRequested username _
  | otpVerified username | otpMismatch username _ _ | otpLocked username => [username]
  | profileReceived provider => [provider]
  | deliveryFailed recipient error => [recipient, error.message]
  | smsLogged recipient _ => [recipient]
  | emailLogged recipient subject _ => [recipient, subject]
  | groupMissing _ name | groupCreated name | groupUpdated name => [name]
  | permissionDenied _ entity rule => [entity, rule]
  | overridden what => [what]
  | configChecked cacheKind => [cacheKind]
  | commandFailed error => [error.message]
  | _ => []

theorem showsOnly_truth (b : Bool) {names : List String} : ShowsOnly names (truth b) := by
  cases b <;> exact showsOnly_of_plain (by decide)

theorem showsOnly_configSummary (cache : CacheType) (testMode : Bool) {names : List String} :
    ShowsOnly names (configSummary cache testMode) := by
  cases cache <;> cases testMode <;> exact showsOnly_of_plain (by decide)

/-- A message shows no token but through a name. -/
theorem showsOnly_message (e : Event) : ShowsOnly e.names e.message := by
  -- a name behind fixed words, or in front of them
  have hbehind {p : String} (n : String) (hp : Text.IsLead p) : ShowsOnly [n] (p ++ n) :=
    .behind hp (showsOnly_head n [])
  have hbefore {p : String} (n : String) (hp : Text.IsGap p) : ShowsOnly [n] (n ++ p) :=
    (showsOnly_head n []).before hp
  have huser {ns : List String} (user : Int) {p : String} (hp : Text.IsLead p) :
      ShowsOnly ns (p ++ Text.showInt user) :=
    .behind hp (showsOnly_showInt user)
  cases e
  case memoryCacheUsed capacity => exact .behind (by decide) (showsOnly_showNat capacity)
  case memoryCacheFull capacity key =>
    exact (ShowsOnly.behind (by decide) (showsOnly_showNat capacity)).gap (by decide)
      (showsOnly_head key [])
  case redisConnecting => exact showsOnly_of_plain (by decide)
  case redisConnected => exact showsOnly_of_plain (by decide)
  case cacheWritten key => exact hbehind key (by decide)
  case databaseConnecting url => exact hbehind url (by decide)
  case databaseConnected => exact showsOnly_of_plain (by decide)
  case directoryCreated path => exact hbehind path (by decide)
  case fileCreated path => exact hbehind path (by decide)
  case migrationStarted => exact showsOnly_of_short (by decide)
  case migrationDone => exact showsOnly_of_plain (by decide)
  case migrationFailed reason => exact hbehind reason (by decide)
  case migrationsPending count =>
    exact (ShowsOnly.behind (by decide) (showsOnly_showNat count)).before (by decide)
  case signedIn user => exact (huser user (by decide)).before (by decide)
  case passwordMismatch username => exact hbefore username (by decide)
  case registered user username =>
    exact ((huser user (by decide)).gap (by decide) (showsOnly_head username [])).before (by decide)
  case profileReceived provider => exact hbefore provider (by decide)
  case codeExchanged => exact showsOnly_of_plain (by decide)
  case signedOut target actor =>
    exact ((huser target (by decide)).gap (by decide) (showsOnly_showInt actor)).before (by decide)
  case passwordChanged user => exact (huser user (by decide)).before (by decide)
  case tokenIssued user role limited =>
    have hrole : ShowsOnly [] role.name := by cases role <;> exact showsOnly_of_plain (by decide)
    exact (((huser user (by decide)).gap (by decide) hrole).gap (by decide)
      (showsOnly_truth limited)).before (by decide)
  case refreshMismatch user => exact (huser user (by decide)).before (by decide)
  case tokenRefreshed user => exact (huser user (by decide)).before (by decide)
  case otpRequested username purpose =>
    have hpurpose : ShowsOnly [username] purpose.title := by
      cases purpose <;> exact showsOnly_of_plain (by decide)
    exact ((hbehind username (by decide)).gap (by decide) hpurpose).before (by decide)
  case otpVerified username => exact hbefore username (by decide)
  case otpMismatch username retries limit =>
    exact (((showsOnly_head username []).gap (by decide) (showsOnly_showInt retries)).gap
      (by decide) (showsOnly_showInt limit)).before (by decide)
  case otpLocked username => exact hbefore username (by decide)
  case deliveryFailed recipient error =>
    exact (ShowsOnly.behind (by decide) (showsOnly_head recipient _)).gap (by decide)
      (showsOnly_of_mem (List.mem_cons_of_mem _ List.mem_cons_self))
  case smsLogged recipient size =>
    exact ((hbehind recipient (by decide)).gap (by decide) (showsOnly_showNat size)).before
      (by decide)
  case emailLogged recipient subject size =>
    have hsubject : ShowsOnly [recipient, subject] subject :=
      showsOnly_of_mem (List.mem_cons_of_mem _ List.mem_cons_self)
    exact (((ShowsOnly.behind (by decide) (showsOnly_head recipient _)).gap (by decide)
      hsubject).gap (by decide) (showsOnly_showNat size)).before (by decide)
  case webhookDelivered channel => cases channel <;> exact showsOnly_of_plain (by decide)
  case groupMissing user name =>
    exact (huser user (by decide)).gap (by decide) (showsOnly_head name [])
  case permissionDenied user entity rule =>
    exact ((huser user (by decide)).gap (by decide) (showsOnly_head entity _)).gap (by decide)
      (showsOnly_of_mem (List.mem_cons_of_mem _ List.mem_cons_self))
  case groupCreated name => exact hbehind name (by decide)
  case groupUpdated name => exact hbehind name (by decide)
  case groupsDeleted deleted kept =>
    exact ((ShowsOnly.behind (by decide) (showsOnly_showNat deleted)).gap (by decide)
      (showsOnly_showNat kept)).before (by decide)
  case defaultConfig path => exact hbehind path (by decide)
  case overridden what => exact hbehind what (by decide)
  case configReady cache testMode =>
    exact .behind (by decide) (showsOnly_configSummary cache testMode)
  case configLoaded cache testMode =>
    exact (ShowsOnly.behind (by decide) (showsOnly_configSummary cache testMode)).before (by decide)
  case configChecked cacheKind => exact (hbehind cacheKind (by decide)).before (by decide)
  case migrationComplete => exact showsOnly_of_plain (by decide)
  case commandFailed error => exact hbehind error.message (by decide)

/-- The texts in the fields of an event. -/
def texts (e : Event) : List String := e.toJson.members.filterMap fun m => m.2.string?

/-- An event shows a text in one of its fields. -/
def Shows (e : Event) (t : String) : Prop := ∃ s ∈ e.texts, Text.Shows s t

theorem showsOnly_level (e : Event) {ns : List String} : ShowsOnly ns e.level.name := by
  cases e.level <;> exact showsOnly_of_plain (by decide)

theorem showsOnly_origin (e : Event) (ns : List String) {o : Origin} (h : e.origin? = some o) :
    ShowsOnly ns o.stage.name ∧ ShowsOnly ns o.component.name ∧ ShowsOnly ns o.operation := by
  refine ⟨?_, ?_, ?_⟩
  · cases o.stage <;> exact showsOnly_of_plain (by decide)
  · cases o.component <;> exact showsOnly_of_plain (by decide)
  · cases e <;> cases h <;> exact showsOnly_of_plain (by decide)

/-- Whatever token an event shows, one of its names does. -/
theorem name_of_shows {e : Event} {t : String} (ht : Text.IsTokenLike t) (h : e.Shows t) :
    ∃ n ∈ e.names, Text.Shows n t := by
  obtain ⟨s, hs, hst⟩ := h
  have hall : ∀ s ∈ e.texts, ShowsOnly e.names s := by
    have hid : ShowsOnly e.names requestId := showsOnly_of_plain (by decide)
    rw [texts, toJson]
    cases ho : e.origin? with
    | none =>
      simpa [Json.members, Json.string?] using ⟨e.showsOnly_message, e.showsOnly_level⟩
    | some o =>
      obtain ⟨hstage, hcomponent, hoperation⟩ := e.showsOnly_origin e.names ho
      simpa [Json.members, Json.string?] using
        ⟨hid, hstage, hcomponent, hoperation, e.showsOnly_message, e.showsOnly_level⟩
  exact hall s hs t ht hst

end Event

/-! ### Tokens -/

namespace Tokens

open Text

theorem isTokenChar_of_mem_encode {bs : List UInt8} : ∀ c ∈ Alphabet.url.encode bs,
    isTokenChar c = true := fun _ h => isTokenChar_of_mem _ (Alphabet.mem_encode h)

theorem toList_minted (t : Tokens) (user : Int) (m : Moment) :
    (t.minted user m).toList = Alphabet.url.encode (RefreshToken.message user m.nonce) ++
      '.' :: Alphabet.url.encode (t.signer.signRefresh (RefreshToken.message user m.nonce)) := by
  simp [minted, RefreshToken.sign, RefreshToken.ofMessage, base64]

theorem toList_access (t : Tokens) (user : Int) (role : Role) (limited : Bool) (m : Moment) :
    ∃ claims signature, (t.access user role limited m).toList =
      AccessToken.part (AccessToken.header t.signer.algorithm) ++
        '.' :: (Alphabet.url.encode claims ++ '.' :: Alphabet.url.encode signature) := by
  refine ⟨utf8 (AccessClaims.issue user role limited m.second t.accessLifetime).toJson.text,
    t.signer.signAccess (utf8 (String.ofList (AccessToken.signingInput t.signer
      (.issue user role limited m.second t.accessLifetime)))), ?_⟩
  simp only [access, AccessToken.encode, AccessToken.signingInput, AccessToken.part,
    String.toList_ofList, List.append_assoc, List.cons_append]

/-- The nonce alone makes a refresh token long enough. -/
theorem isTokenLike_minted (t : Tokens) (user : Int) (d : Draws) (now : Nat) :
    IsTokenLike (t.minted user (d.moment now)) := by
  have hnonce : 16 ≤ (d.moment now).nonce.toList.length := by
    simp [Draws.moment, Draws.text, RefreshToken.nonceLength]
  constructor
  case chars =>
    rw [toList_minted, List.forall_mem_append, List.forall_mem_cons]
    exact ⟨isTokenChar_of_mem_encode, rfl, isTokenChar_of_mem_encode⟩
  case point =>
    rw [toList_minted]
    exact List.mem_append_right _ List.mem_cons_self
  case long =>
    have hbytes := length_le_utf8ByteSize (showInt user ++ "*" ++ (d.moment now).nonce)
    have hmessage : (RefreshToken.message user (d.moment now).nonce).length =
        (showInt user ++ "*" ++ (d.moment now).nonce).utf8ByteSize := length_utf8 _
    have hencode := Alphabet.url.le_length_encode (RefreshToken.message user (d.moment now).nonce)
    rw [toList_minted, List.length_append, List.length_cons]
    have huser : 0 < (showInt user).toList.length := by
      rw [showInt, String.toList_ofList]
      exact List.length_pos_of_ne_nil (integerDigits_ne_nil user)
    have hstar : "*".toList.length = 1 := rfl
    rw [String.toList_append, String.toList_append, List.length_append, List.length_append,
      hstar] at hbytes
    omega

/-- The header alone makes an access token long enough. -/
theorem isTokenLike_access (t : Tokens) (user : Int) (role : Role) (limited : Bool) (m : Moment) :
    IsTokenLike (t.access user role limited m) := by
  obtain ⟨claims, signature, h⟩ := t.toList_access user role limited m
  constructor
  case chars =>
    rw [h, List.forall_mem_append, List.forall_mem_cons, List.forall_mem_append,
      List.forall_mem_cons]
    exact ⟨isTokenChar_of_mem_encode, rfl, isTokenChar_of_mem_encode, rfl,
      isTokenChar_of_mem_encode⟩
  case point =>
    rw [h]
    exact List.mem_append_right _ List.mem_cons_self
  case long =>
    have hheader (a : Algorithm) : 20 ≤ (AccessToken.part (AccessToken.header a)).length := by
      cases a <;> decide
    rw [h, List.length_append]
    exact Nat.le_add_right_of_le (hheader _)

/-- The key of a refresh token shows no access token, which has two points. -/
theorem not_shows_key_access (t : Tokens) (user : Int) (m : Moment) (user' : Int) (role : Role)
    (limited : Bool) (m' : Moment) :
    ¬ Shows (key (t.minted user m)) (t.access user' role limited m') := by
  obtain ⟨claims, signature, h⟩ := t.toList_access user' role limited m'
  have hnone (bs : List UInt8) : (Alphabet.url.encode bs).count '.' = 0 :=
    List.count_eq_zero.2 (point_notMem_encode bs)
  have haccess : 2 ≤ (t.access user' role limited m').toList.count '.' := by
    rw [h, List.count_append, List.count_cons_self, List.count_append, List.count_cons_self]
    omega
  have hkey : (key (t.minted user m)).toList.count '.' = 1 := by
    rw [key, CacheKey.text, String.toList_append, toList_minted, List.count_append,
      List.count_append, List.count_cons_self, hnone, hnone]
    rfl
  intro hshows
  have hle := hshows.sublist.count_le '.'
  omega

end Tokens

end AuthCore
