import AuthCore.Proofs.Cache.Live
import AuthCore.Proofs.Log.Told
import AuthCore.Proofs.Token.Ledger

/-!
# Tokens in the log

The token of a session that an event shows is in one of the names that were handed in, or it is a
refresh token, and the event tells of the entry that is kept for it in the cache: its key is the
token itself behind a fixed word. Such an event is logged whenever a server takes the entry and
whenever the memory is full (`Accounts.token_logged_as_key`). No key shows an access token, so these
are not logged at all.
-/

namespace AuthCore

open Text (Shows)

theorem Text.Shows.append {s t : String} (h : Shows s t) (p : String) : Shows (p ++ s) t := by
  rw [Shows, String.toList_append]
  exact h.trans (List.suffix_append _ _).isInfix

namespace Event

theorem message_mem_texts (e : Event) : e.message ∈ e.texts := by
  rw [texts, toJson]
  cases e.origin? <;> simp [Json.members, Json.string?]

/-- An event about the entry of a refresh token shows the token. -/
theorem shows_of_isWrite {e : Event} {token : String} (h : e.IsWrite (Tokens.key token)) :
    e.Shows token := by
  refine ⟨e.message, e.message_mem_texts, ?_⟩
  have hkey : Text.Shows (Tokens.key token) token := .append (List.infix_refl _) _
  rcases h with rfl | ⟨capacity, rfl⟩
  · exact hkey.append _
  · exact hkey.append _

end Event

/-- A memory cache without room for the entry of a new refresh token is reported with its key. -/
theorem Tokens.log_issue_of_full {t : Tokens} {m : Moment} {w : World} {c : MemoryCache}
    (user : Int) (role : Role) (limited : Bool) (hc : w.cache = .memory c)
    (hr : (c.makeRoom m.now (key (t.minted user m))).hasRoom (key (t.minted user m)) = false) :
    ((t.issue user role limited).perform m w).2.log =
      w.log ++ [.memoryCacheFull c.capacity (key (t.minted user m))] := by
  have hs : w.cache.set (key (t.minted user m)) (entryText (entry user role))
      (some (seconds t.refreshLifetime)) m.now =
        (.error (.full c.capacity), .memory (c.makeRoom m.now (key (t.minted user m)))) := by
    rw [hc, Cache.set, MemoryCache.set, hr, MemoryCache.capacity_makeRoom]
    rfl
  rw [minted] at hs
  simp only [issue, Action.perform_bind, Action.perform_read, Action.perform_cacheSet, hs]
  rfl

namespace Accounts

variable {a : Accounts} {w : World} {ns : List String}

/-- The names that are handed in during a session, and those that were set up before. -/
def namesIn (a : Accounts) (n : Notifier) (steps : List SessionStep) : List String :=
  a.otp.subjects ++ n.names ++ steps.flatMap fun s => s.call.names

theorem reports_turn {s : SessionStep} (hs : s.call.Discreet) (h : s.call.names ⊆ ns)
    (ha : a.otp.subjects ⊆ ns) (hn : w.notifier.names ⊆ ns) :
    w.Reports (Event.Told ns a.tokens s.moment) (a.turn s w) :=
  .trans (.silent (w.notifier_serve _) (w.log_serve _))
    (s.call.logs_perform hs h ha hn _ (w.notifier_serve _))

/-- Every event of a session is told by the names of one of its steps. -/
theorem reports_afterSession {steps : List SessionStep} (hd : ∀ s ∈ steps, s.call.Discreet)
    (h : ∀ s ∈ steps, s.call.names ⊆ ns) (ha : a.otp.subjects ⊆ ns)
    (hn : w.notifier.names ⊆ ns) :
    w.Reports (fun e => ∃ s ∈ steps, e.Told ns a.tokens s.moment) (a.afterSession w steps) := by
  induction steps generalizing w with
  | nil => exact .silent rfl rfl
  | cons s steps ih =>
    obtain ⟨hds, hd⟩ := List.forall_mem_cons.1 hd
    obtain ⟨hs, h⟩ := List.forall_mem_cons.1 h
    have hturn := reports_turn hds hs ha hn
    refine (hturn.mono fun e he => ⟨s, List.mem_cons_self, he⟩).trans ?_
    refine (ih hd h (hturn.notifier ▸ hn)).mono fun e ⟨s', hs', he⟩ => ?_
    exact ⟨s', List.mem_cons_of_mem _ hs', he⟩

/-- Over any session, on any cache and with any replies of its server: an event that shows an access
token of the session shows it in a name that was handed in. One that shows a refresh token does so
too, or it tells of the entry of a refresh token in the cache: the server took the value, or the
memory was full. -/
theorem token_logged_only_as_key (a : Accounts) (w : World) (steps : List SessionStep)
    (hd : ∀ s ∈ steps, s.call.Discreet) :
    ∃ es, (a.afterSession w steps).log = w.log ++ es ∧ ∀ e ∈ es, ∀ s ∈ steps, ∀ user,
      (∀ role limited, e.Shows (a.tokens.access user role limited s.moment) →
        ∃ name ∈ a.namesIn w.notifier steps,
          Shows name (a.tokens.access user role limited s.moment)) ∧
      (e.Shows (a.tokens.minted user s.moment) →
        (∃ name ∈ a.namesIn w.notifier steps, Shows name (a.tokens.minted user s.moment)) ∨
        ∃ s' ∈ steps, ∃ user', e.IsWrite (Tokens.key (a.tokens.minted user' s'.moment))) := by
  have hbefore : a.otp.subjects ++ w.notifier.names ⊆ a.namesIn w.notifier steps :=
    List.subset_append_left _ _
  obtain ⟨ha, hn⟩ := List.append_subset.1 hbefore
  have hsteps (s : SessionStep) (hs : s ∈ steps) : s.call.names ⊆ a.namesIn w.notifier steps :=
    fun _ hname => List.mem_append_right _ (List.mem_flatMap.2 ⟨s, hs, hname⟩)
  obtain ⟨-, es, hlog, hes⟩ := reports_afterSession (w := w) hd hsteps ha hn
  refine ⟨es, hlog, fun e he s hs user => ?_⟩
  obtain ⟨s', hs', ⟨user', hwrite⟩ | hnames⟩ := hes e he
  · refine ⟨fun role limited hshows => ?_, fun _ => .inr ⟨s', hs', user', hwrite⟩⟩
    obtain ⟨name, hname, hshows⟩ :=
      Event.name_of_shows (a.tokens.isTokenLike_access user role limited s.moment) hshows
    have hkey : name = Tokens.key (a.tokens.minted user' s'.moment) := by
      rcases hwrite with rfl | ⟨capacity, rfl⟩ <;> exact List.mem_singleton.1 hname
    exact absurd (hkey ▸ hshows) (a.tokens.not_shows_key_access _ _ _ _ _ _)
  · have hnamed {token : String} (ht : Text.IsTokenLike token) (hshows : e.Shows token) :
        ∃ name ∈ a.namesIn w.notifier steps, Shows name token := by
      obtain ⟨name, hname, hshows⟩ := Event.name_of_shows ht hshows
      exact hnames name hname token ht hshows
    exact ⟨fun role limited => hnamed (a.tokens.isTokenLike_access user role limited s.moment),
      fun hshows => .inl (hnamed (a.tokens.isTokenLike_minted user s.draws s.now) hshows)⟩

/-- Somebody signs in with the account of another service, on a server that takes every value. -/
theorem token_logged_only_as_key_google :
    let a : Accounts := ⟨⟨⟨"secret", .hs256⟩, 60, 120⟩, { testMode := true }, 4, 16⟩
    let w := Action.worldOf (.remote .idle) (.memory .empty) .log
    let steps : List SessionStep := [⟨0, ⟨id, id, id, id⟩, [.status "OK"],
      .operation (.signInWithProvider (.google {}) "code")⟩]
    (∀ s ∈ steps, s.call.Discreet) ∧
      ∃ es, (a.afterSession w steps).log = w.log ++ es ∧ ∀ e ∈ es, ∀ s ∈ steps, ∀ user,
        ∀ role limited, e.Shows (a.tokens.access user role limited s.moment) →
          ∃ name ∈ a.namesIn w.notifier steps,
            Shows name (a.tokens.access user role limited s.moment) := by
  intro a w steps
  have hd : ∀ s ∈ steps, s.call.Discreet :=
    List.forall_mem_singleton.2 (OuterProvider.discreet_google {})
  obtain ⟨es, hlog, hes⟩ := a.token_logged_only_as_key w steps hd
  exact ⟨hd, es, hlog, fun e he s hs user => (hes e he s hs user).1⟩

/-- A server takes the entry of a new refresh token, and a line of the log shows the token that is
answered. In memory the same happens, as a warning, when a one-time code has the only place. -/
theorem token_logged_as_key :
    let a : Accounts := ⟨⟨⟨"secret", .hs256⟩, 60, 120⟩, { testMode := true }, 4, 16⟩
    let d : Draws := ⟨id, id, id, id⟩
    let request : SessionStep :=
      ⟨0, d, [], .operation (.requestCode (.phone "+491234567") .verification none)⟩
    let issue : SessionStep := ⟨1, d, [.status "OK"], .operation (.issue 1 .customer false)⟩
    let server := Action.worldOf (.remote .idle) (.memory .empty) .log
    let memory := Action.worldOf (.memory (.new 1)) (.memory .empty) .log
    let p := a.tokens.pair 1 .customer false issue.moment
    ((a.tokens.issue 1 .customer false).perform issue.moment (server.serve issue.replies)).1 =
        .ok p ∧
      (∃ e ∈ (a.afterSession server [issue]).log, e.level = .debug ∧ e.Shows p.refreshToken) ∧
      ∃ e ∈ (a.afterSession memory [request, issue]).log, e.level = .warn ∧
        e.Shows p.refreshToken := by
  intro a d request issue server memory p
  have hserver : Event.cacheWritten (Tokens.key p.refreshToken) ∈
      (a.afterSession server [issue]).log := List.mem_cons_self
  have hmemory : Event.memoryCacheFull 1 (Tokens.key p.refreshToken) ∈
      (a.afterSession memory [request, issue]).log := by
    let k : MemoryCache := (MemoryCache.new 1).put (Otp.key (.phone "+491234567"))
      ⟨.hash (.ofList [(Otp.codeField, "12345"), (Otp.retryField, "0")]),
        some (request.moment.now + seconds (Otp.window a.otp))⟩
    have hk : (a.turn request memory).cache = .memory k := rfl
    have hfull : (k.makeRoom issue.moment.now (Tokens.key p.refreshToken)).hasRoom
        (Tokens.key p.refreshToken) = false := by
      refine (MemoryCache.hasRoom_makeRoom (le_refl 1)).2 ⟨?_, le_refl 1⟩
      exact MemoryCache.live?_put_of_ne (Tokens.key_ne_otpKey _ _) _
    have hlog : (a.afterSession memory [request, issue]).log =
        (a.turn request memory).log ++ [.memoryCacheFull 1 (Tokens.key p.refreshToken)] := by
      rw [afterSession_cons, afterSession_cons, afterSession_nil, turn_of_operation rfl,
        World.serve_of_memory hk, Operation.perform, Action.perform_map]
      exact a.tokens.log_issue_of_full 1 .customer false hk hfull
    rw [hlog]
    exact List.mem_append_right _ List.mem_cons_self
  exact ⟨rfl, ⟨_, hserver, rfl, Event.shows_of_isWrite (.inl rfl)⟩,
    _, hmemory, rfl, Event.shows_of_isWrite (.inr ⟨1, rfl⟩)⟩

end Accounts

end AuthCore
