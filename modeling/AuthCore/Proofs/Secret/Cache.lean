import AuthCore.Otp.Codes
import AuthCore.Proofs.Cache.Live
import AuthCore.Proofs.Session

/-!
# Caches without one-time codes

A memory cache keeps one-time codes in a field of its entries. Most calls do not look at what is in
that field, so it does not matter whether it is emptied before a call or after it. A guess is
compared with the field: there two caches that differ in codes only go the same way if the guess is
right in both or in none (`MemoryCache.check_akin`). Adding to a number in the field may succeed in
one of them and fail in the other, but in both the field is all that changes.
-/

namespace AuthCore

/-! ### Taking codes out -/

/-- The content of a field, unless it is a one-time code. -/
def CacheValue.veilField (field text : String) : String :=
  if field = Otp.codeField then "" else text

/-- A value without one-time codes. -/
def CacheValue.veil : CacheValue → CacheValue
  | plain text => plain text
  | hash fields => hash (fields.mapValues veilField)

/-- An entry without one-time codes. -/
def CacheEntry.veil (e : CacheEntry) : CacheEntry := { e with value := e.value.veil }

/-- A memory cache without one-time codes. -/
def MemoryCache.veil (c : MemoryCache) : MemoryCache :=
  { c with entries := c.entries.mapValues fun _ => CacheEntry.veil }

namespace MemoryCache

theorem eq_of_entries {c d : MemoryCache} (he : c.entries = d.entries)
    (hc : c.capacity = d.capacity) : c = d := by
  cases c
  cases d
  cases he
  cases hc
  rfl

variable (c : MemoryCache) (now : Nat) (key : String)

theorem contains_entries_veil : c.veil.entries.contains key = c.entries.contains key :=
  c.entries.contains_mapValues key

theorem size_veil : c.veil.size = c.size := c.entries.size_mapValues

theorem hasRoom_veil : c.veil.hasRoom key = c.hasRoom key := by
  simp only [hasRoom, size_veil, contains_entries_veil]
  rfl

theorem live?_veil : c.veil.live? now key = (c.live? now key).map CacheEntry.veil := by
  rw [live?, veil, OrderedMap.get?_mapValues, live?, Option.filter_map]
  rfl

theorem put_veil (e : CacheEntry) : (c.put key e).veil = c.veil.put key e.veil := by
  simp only [put, veil, OrderedMap.mapValues_insert]

theorem drop_veil : (c.drop key).veil = c.veil.drop key :=
  eq_of_entries (OrderedMap.mapValues_filter (f := fun _ => CacheEntry.veil)
    (p := fun k _ => compare key k != .eq) (q := fun k _ => compare key k != .eq)
    (fun _ _ => rfl) c.entries) rfl

theorem purge_veil : (c.purge now).veil = c.veil.purge now :=
  eq_of_entries (OrderedMap.mapValues_filter (f := fun _ => CacheEntry.veil)
    (p := fun _ e => e.isLive now) (q := fun _ (e : CacheEntry) => e.isLive now)
    (fun _ _ => rfl) c.entries) rfl

theorem makeRoom_veil : (c.makeRoom now key).veil = c.veil.makeRoom now key := by
  have hcapacity : c.veil.capacity = c.capacity := rfl
  simp only [makeRoom, size_veil, contains_entries_veil, hcapacity]
  split
  · rfl
  · exact c.purge_veil now

theorem dropExpired_veil : (c.dropExpired now key).veil = c.veil.dropExpired now key := by
  have hget : c.veil.entries.get? key = (c.entries.get? key).map CacheEntry.veil :=
    c.entries.get?_mapValues key
  simp only [dropExpired, hget]
  cases c.entries.get? key with
  | none => rfl
  | some e =>
    have hlive : e.veil.isLive now = e.isLive now := rfl
    simp only [Option.map_some, hlive]
    split
    · rfl
    · exact c.drop_veil key

/-! ### Calls that do not look at codes -/

theorem set_veil (text : String) (ttl : Option Nat) :
    c.veil.set now key text ttl =
      ((c.set now key text ttl).1, (c.set now key text ttl).2.veil) := by
  simp only [set, ← makeRoom_veil, hasRoom_veil]
  split
  · refine congrArg (Prod.mk _) (put_veil (c.makeRoom now key) key ⟨.plain text, _⟩).symm
  · rfl

theorem get_veil :
    c.veil.get now key = ((c.get now key).1, (c.get now key).2.veil) := by
  simp only [get, live?_veil]
  rcases c.live? now key with _ | ⟨_ | _, _⟩
  · exact congrArg (Prod.mk _) (c.dropExpired_veil now key).symm
  · rfl
  · rfl

theorem delete_veil :
    c.veil.delete now key = ((c.delete now key).1, (c.delete now key).2.veil) := by
  rw [delete, live?_veil, Option.isSome_map, ← drop_veil]
  rfl

theorem expire_veil (ttl : Nat) :
    c.veil.expire now key ttl = ((c.expire now key ttl).1, (c.expire now key ttl).2.veil) := by
  simp only [expire, live?_veil]
  cases c.live? now key with
  | none => rfl
  | some e => exact congrArg (Prod.mk _) (c.put_veil key ⟨e.value, some (now + ttl)⟩).symm

theorem getHash_veil : (c.veil.getHash now key).2 = (c.getHash now key).2.veil := by
  simp only [getHash, live?_veil]
  rcases c.live? now key with _ | ⟨_ | _, _⟩
  · exact (c.dropExpired_veil now key).symm
  · rfl
  · rfl

theorem createHash_veil (fields : List (String × String)) (ttl : Nat) :
    c.veil.createHash now key (fields.map fun f => (f.1, CacheValue.veilField f.1 f.2)) ttl =
      ((c.createHash now key fields ttl).1, (c.createHash now key fields ttl).2.veil) := by
  have hcontains (c : MemoryCache) : c.veil.contains now key = c.contains now key := by
    rw [contains, live?_veil, Option.isSome_map, contains]
  simp only [createHash, ← makeRoom_veil, hasRoom_veil, hcontains]
  split
  · split
    · rfl
    · refine congrArg (Prod.mk _) ?_
      rw [put_veil, CacheEntry.veil, CacheValue.veil, OrderedMap.mapValues_ofList]
  · rfl

theorem compareAndDelete_veil (text : String) :
    c.veil.compareAndDelete now key text =
      ((c.compareAndDelete now key text).1, (c.compareAndDelete now key text).2.veil) := by
  have hvalue : (c.veil.live? now key).map (·.value) = some (.plain text) ↔
      (c.live? now key).map (·.value) = some (.plain text) := by
    rw [live?_veil]
    rcases c.live? now key with _ | ⟨_ | _, _⟩
    · exact Iff.rfl
    · exact Iff.rfl
    · exact iff_of_false nofun nofun
  simp only [compareAndDelete, hvalue]
  split
  · exact congrArg (Prod.mk _) (c.drop_veil key).symm
  · rfl

end MemoryCache

/-! ### Calls that look at codes -/

/-- Fields that differ in one-time codes only have the same content elsewhere. -/
theorem CacheValue.get?_of_akin {fs fs' : OrderedMap String String} {field : String}
    (h : fs.mapValues veilField = fs'.mapValues veilField) (hf : field ≠ Otp.codeField) :
    fs.get? field = fs'.get? field := by
  have hget := congrArg (·.get? field) h
  have hveil : veilField field = id := funext fun text => if_neg hf
  simpa only [OrderedMap.get?_mapValues, hveil, Option.map_id, id] using hget

namespace MemoryCache

variable {c d : MemoryCache} {now : Nat} {key field counter guess guess' : String} {limit : Int}

/-- Two calls that come to the same once codes are taken out answer the same, and leave caches that
differ in codes only. -/
theorem akin_of_veil {α : Type} {g g' k : MemoryCache → α × MemoryCache} (h : c.veil = d.veil)
    (hg : k c.veil = ((g c).1, (g c).2.veil)) (hg' : k d.veil = ((g' d).1, (g' d).2.veil)) :
    (g c).1 = (g' d).1 ∧ (g c).2.veil = (g' d).2.veil :=
  Prod.mk.inj (hg.symm.trans ((congrArg k h).trans hg'))

/-- Caches that differ in one-time codes only show the same entry at a key, up to codes. -/
theorem live?_cases (h : c.veil = d.veil) (now : Nat) (key : String) :
    (c.live? now key = none ∧ d.live? now key = none) ∨
    (∃ text expiry, c.live? now key = some ⟨.plain text, expiry⟩ ∧
      d.live? now key = some ⟨.plain text, expiry⟩) ∨
    ∃ fs fs' expiry, c.live? now key = some ⟨.hash fs, expiry⟩ ∧
      d.live? now key = some ⟨.hash fs', expiry⟩ ∧
      fs.mapValues CacheValue.veilField = fs'.mapValues CacheValue.veilField := by
  have hlive := congrArg (·.live? now key) h
  simp only [live?_veil] at hlive
  rcases hc : c.live? now key with _ | ⟨_ | fs, expiry⟩ <;>
    rcases hd : d.live? now key with _ | ⟨_ | fs', expiry'⟩ <;> rw [hc, hd] at hlive
  case none.none => exact .inl ⟨rfl, rfl⟩
  case some.plain.some.plain => cases hlive; exact .inr (.inl ⟨_, _, rfl, rfl⟩)
  case some.hash.some.hash =>
    obtain ⟨hvalue, hexpiry⟩ := CacheEntry.mk.inj (Option.some.inj hlive)
    cases hexpiry
    exact .inr (.inr ⟨fs, fs', expiry, rfl, rfl, CacheValue.hash.inj hvalue⟩)
  all_goals cases hlive

/-- Whether the live entry at a key has a field with a text. -/
def holds (now : Nat) (key field text : String) (c : MemoryCache) : Bool :=
  match c.live? now key with
  | some ⟨.hash fields, _⟩ => fields.get? field == some text
  | _ => false

/-- Whether the live entry at a key takes no more guesses. -/
def locks (now : Nat) (key counter : String) (limit : Int) (c : MemoryCache) : Bool :=
  match c.live? now key with
  | some ⟨.hash fields, _⟩ => (guesses? fields counter limit).isNone
  | _ => false

/-- A field is filled in both caches, with the same text unless it is a code. -/
theorem put_hash_akin (h : c.veil = d.veil) {fs fs' : OrderedMap String String}
    (hfs : fs.mapValues CacheValue.veilField = fs'.mapValues CacheValue.veilField)
    {text text' : String} (ht : CacheValue.veilField field text = CacheValue.veilField field text')
    (expiry : Option Nat) :
    (c.put key ⟨.hash (fs.insert field text), expiry⟩).veil =
      (d.put key ⟨.hash (fs'.insert field text'), expiry⟩).veil := by
  simp only [put_veil, CacheEntry.veil, CacheValue.veil, OrderedMap.mapValues_insert, h, hfs, ht]

/-- A guess at a one-time code that is right in both caches or in none goes the same way in both,
and so does one at another field. The number of wrong guesses is the same too, unless it is counted
in the field of the code itself. -/
theorem check_akin (h : c.veil = d.veil) (hguess : field ≠ Otp.codeField → guess = guess')
    (hholds : field = Otp.codeField → c.holds now key field guess = d.holds now key field guess')
    (hlocks : counter = Otp.codeField →
      c.locks now key counter limit = d.locks now key counter limit) :
    (counter ≠ Otp.codeField → (c.check now key field guess counter limit).1 =
      (d.check now key field guess' counter limit).1) ∧
    (c.check now key field guess counter limit).2.veil =
      (d.check now key field guess' counter limit).2.veil := by
  have hdrop : (c.drop key).veil = (d.drop key).veil := by rw [drop_veil, drop_veil, h]
  rcases live?_cases h now key with ⟨hc, hd⟩ | ⟨text, expiry, hc, hd⟩ |
    ⟨fs, fs', expiry, hc, hd, hfs⟩
  · simp only [check, hc, hd, dropExpired_veil, h]
    exact ⟨fun _ => trivial, trivial⟩
  · simp only [check, hc, hd]
    exact ⟨fun _ => trivial, h⟩
  · simp only [holds, locks, hc, hd] at hholds hlocks
    -- whether a guess is compared, and whether it is right
    have hcount (hn : counter ≠ Otp.codeField) :
        guesses? fs counter limit = guesses? fs' counter limit := by
      rw [guesses?, guesses?, CacheValue.get?_of_akin hfs hn]
    have hlocked : (guesses? fs counter limit).isNone = (guesses? fs' counter limit).isNone := by
      by_cases hn : counter = Otp.codeField
      · exact hlocks hn
      · rw [hcount hn]
    have hright : fs.get? field = some guess ↔ fs'.get? field = some guess' := by
      by_cases hf : field = Otp.codeField
      · rw [← beq_iff_eq, hholds hf, beq_iff_eq]
      · rw [CacheValue.get?_of_akin hfs hf, hguess hf]
    simp only [check, hc, hd]
    cases hg : guesses? fs counter limit with
    | none =>
      rw [hg] at hlocked
      rw [Option.isNone_iff_eq_none.1 hlocked.symm]
      exact ⟨fun _ => rfl, h⟩
    | some n =>
      rw [hg] at hlocked
      obtain ⟨n', hg'⟩ := Option.isSome_iff_exists.1 (Option.isNone_eq_false_iff.1 hlocked.symm)
      have hn (h : counter ≠ Otp.codeField) : n = n' :=
        Option.some.inj (hg.symm.trans ((hcount h).trans hg'))
      have htext : CacheValue.veilField counter (Text.showInt (n + 1)) =
          CacheValue.veilField counter (Text.showInt (n' + 1)) := by
        by_cases h : counter = Otp.codeField
        · rw [CacheValue.veilField, CacheValue.veilField, if_pos h, if_pos h]
        · rw [hn h]
      simp only [hg', hright]
      split
      · exact ⟨fun _ => rfl, hdrop⟩
      · exact ⟨fun h => by rw [hn h], put_hash_akin h hfs htext expiry⟩

/-- Adding to a one-time code that is there changes no more than the code. -/
theorem veil_increment_code {fs : OrderedMap String String} {expiry : Option Nat}
    (hc : c.live? now key = some ⟨.hash fs, expiry⟩)
    (hf : (fs.get? Otp.codeField).isSome = true) (delta : Int) :
    (c.increment now key Otp.codeField delta).2.veil = c.veil := by
  simp only [increment, hc]
  cases fieldNumber fs Otp.codeField with
  | error f => rfl
  | ok n =>
    obtain ⟨text, htext⟩ := Option.isSome_iff_exists.1 hf
    have hcode : (fs.mapValues CacheValue.veilField).get? Otp.codeField =
        some (CacheValue.veilField Otp.codeField (Text.showInt (n + delta))) := by
      rw [OrderedMap.get?_mapValues, htext]
      rfl
    have hentry : c.veil.entries.get? key =
        some ⟨.hash (fs.mapValues CacheValue.veilField), expiry⟩ := by
      rw [veil, OrderedMap.get?_mapValues, (live?_eq_some_iff.1 hc).1]
      rfl
    simp only [put_veil, CacheEntry.veil, CacheValue.veil, OrderedMap.mapValues_insert,
      OrderedMap.insert_of_get? hcode]
    exact eq_of_entries (OrderedMap.insert_of_get? hentry) rfl

/-- Adding to a number changes the same in both caches, up to codes. -/
theorem increment_akin (h : c.veil = d.veil) (delta : Int) :
    (c.increment now key field delta).2.veil = (d.increment now key field delta).2.veil := by
  rcases live?_cases h now key with ⟨hc, hd⟩ | ⟨text, expiry, hc, hd⟩ |
    ⟨fs, fs', expiry, hc, hd, hfs⟩
  · simp only [increment, hc, hd, h]
  · simp only [increment, hc, hd, h]
  · by_cases hf : field = Otp.codeField
    · subst hf
      have hsome : (fs.get? Otp.codeField).isSome = (fs'.get? Otp.codeField).isSome := by
        simpa only [OrderedMap.get?_mapValues, Option.isSome_map] using
          congrArg (fun fs => (fs.get? Otp.codeField).isSome) hfs
      cases hcode : (fs.get? Otp.codeField).isSome with
      | true =>
        rw [veil_increment_code hc hcode, veil_increment_code hd (hsome ▸ hcode), h]
      | false =>
        have hnone := Option.isSome_eq_false_iff.1 hcode
        have hnone' := Option.isSome_eq_false_iff.1 (hsome ▸ hcode)
        simp only [increment, hc, hd, fieldNumber, Option.isNone_iff_eq_none.1 hnone,
          Option.isNone_iff_eq_none.1 hnone']
        exact put_hash_akin h hfs rfl expiry
    · have hnumber : fieldNumber fs field = fieldNumber fs' field := by
        rw [fieldNumber, fieldNumber, CacheValue.get?_of_akin hfs hf]
      simp only [increment, hc, hd, hnumber]
      cases fieldNumber fs' field with
      | error f => exact h
      | ok n => exact put_hash_akin h hfs rfl expiry

end MemoryCache

/-- Whether a cache in memory has a live entry at a key with a text in a field. -/
def Cache.holds (now : Nat) (key field text : String) : Cache → Bool
  | memory c => c.holds now key field text
  | remote _ => false

/-- Whether a cache in memory has a live entry at a key that takes no more guesses. -/
def Cache.locks (now : Nat) (key counter : String) (limit : Int) : Cache → Bool
  | memory c => c.locks now key counter limit
  | remote _ => false

end AuthCore
