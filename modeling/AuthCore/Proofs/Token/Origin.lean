import AuthCore.Proofs.Token.Ledger

/-!
# Where the entries of refresh tokens come from

Over a run that starts with an empty memory cache, whatever is live under the key of a refresh token
was noted there when that token was minted, and names the user whom it was minted for
(`Accounts.honest_after`). This holds even if the same nonce is drawn twice, so it does not need the
ledger. From then on the entry stays until it expires, the token is exchanged, or the same token is
minted again (`Operation.leaves_entry`).
-/

namespace AuthCore

namespace Tokens

/-- Each live entry of a refresh token was noted when that token was minted. -/
def Honest (t : Tokens) (now : Nat) (c : MemoryCache) : Prop :=
  ∀ token later e, now ≤ later → c.live? later (key token) = some e →
    ∃ user role m, m.nonce ≠ "" ∧ token = t.minted user m ∧ e = t.noted user role m

namespace Honest

variable {t : Tokens} {now later : Nat} {c d : MemoryCache} {m : Moment} {taken : Option String}

/-- An operation that notes no entry, or just that of a new pair, leaves the entries honest. -/
theorem of_booked {r : Answer Result} (h : t.Honest now c) (hnow : now ≤ m.now)
    (hn : m.nonce ≠ "")
    (hd : match answeredPair? r with
      | some p => t.Notes m taken c d p
      | none => ∀ token later, m.now ≤ later → d.live? later (key token) =
          c.live? later (key token)) :
    t.Honest m.now d := by
  intro token later e hlater he
  split at hd
  next =>
    obtain ⟨user, role, -, -, hl⟩ := hd
    rw [hl token later hlater] at he
    split at he
    next htoken =>
      exact ⟨user, role, m, hn, htoken, (Option.some.inj (Option.filter_eq_some_iff.1 he).1).symm⟩
    next =>
      split at he
      next => cases he
      next => exact h token later e (hnow.trans hlater) he
  next =>
    rw [hd token later hlater] at he
    exact h token later e (hnow.trans hlater) he

/-- The entry of a token that verifies names the user of the token. -/
theorem entry_of_verify (h : t.Honest now c) (hnow : now ≤ later) {token : String} {e : CacheEntry}
    (he : c.live? later (key token) = some e) {id : Int}
    (hv : RefreshToken.verify t.signer token = .ok id) :
    ∃ role expiry, e = ⟨.plain (entryText (entry id role)), expiry⟩ := by
  obtain ⟨user, role, m, hn, rfl, rfl⟩ := h token later e hnow he
  obtain rfl := RefreshToken.eq_of_verify_sign hn hv
  exact ⟨role, _, rfl⟩

end Honest

end Tokens

/-- With a free place in the cache a pair is issued. -/
theorem Accounts.issues_of_hasRoom {a : Accounts} {s : Step} {w : World} {c : MemoryCache}
    {user : Int} {role : Role} {limited : Bool} (hop : s.operation = .issue user role limited)
    (hc : w.cache = .memory c)
    (hr : (c.makeRoom s.now (Tokens.key (a.tokens.minted user s.moment))).hasRoom
      (Tokens.key (a.tokens.minted user s.moment)) = true) :
    (a.record s w).Issues a user (a.tokens.minted user s.moment) := by
  have hi := (a.tokens.issue_of_hasRoom (m := s.moment) user role limited hc hr).1
  refine ⟨role, limited, ?_, rfl⟩
  rw [Record.pair?, record, step, hop, Operation.perform, Action.perform_map, hi]
  rfl

/-- With another nonce another token is minted, for whomever it is. -/
theorem Tokens.minted_ne {t : Tokens} {user user' : Int} {m m' : Moment} (h : m.nonce ≠ m'.nonce) :
    t.minted user m ≠ t.minted user' m' := fun he =>
  h (RefreshToken.message_injective (RefreshToken.ofMessage_injective he)).2

/-- An operation that neither exchanges nor mints a token leaves its entry alone. -/
theorem Operation.leaves_entry (a : Accounts) (op : Operation) {token : String} {m : Moment}
    (w : World) (hx : op.exchanged? ≠ some token) (hm : ∀ user, token ≠ a.tokens.minted user m) :
    (Frame.keys (· = Tokens.key token)).Allows m w ((op.perform a).perform m w).2 := by
  intro c hc hw
  obtain ⟨d, hd, hdw, hbooked⟩ := op.booked a m w c hc hw
  refine ⟨d, hd, hdw, ?_⟩
  rintro k rfl later hlater
  split at hbooked
  next =>
    obtain ⟨user, _, _, -, hl⟩ := hbooked
    rw [hl token later hlater, if_neg (hm user), if_neg hx]
  next => exact hbooked token later hlater

/-- A run that starts with an empty cache has honest entries. -/
theorem Accounts.honest_after {a : Accounts} {entries : Nat} {w : World}
    (hw : w.cache = .memory (.new entries)) (steps : List Step) (hs : InOrder steps) :
    ∃ c now, (a.after w steps).cache = .memory c ∧ a.tokens.Honest now c ∧
      ∀ later, (∀ s ∈ steps, s.now ≤ later) → now ≤ later := by
  obtain ⟨now, ⟨c, hc, -, hh⟩, hnow⟩ := run_induction
    (P := fun _ now v => ∃ c, v.cache = .memory c ∧ c.Within ∧ a.tokens.Honest now c)
    ⟨_, hw, MemoryCache.within_new entries, nofun⟩
    (fun _ now v s ⟨c, hc, hcw, hh⟩ hle => by
      obtain ⟨d, hd, hdw, hbooked⟩ := Operation.booked a s.operation s.moment v c hc hcw
      exact ⟨d, hd, hdw, hh.of_booked hle (RefreshToken.nonce_ne_empty _ _) hbooked⟩) steps hs
  exact ⟨c, now, hc, hh, hnow⟩

end AuthCore
