import AuthCore.Proofs.Account.Inward
import AuthCore.Proofs.Cache.Conversation
import AuthCore.Proofs.Otp.Codes

/-!
# Deliveries of one-time codes

A request for a one-time code has two parts. The first one makes the code and puts it into the
cache; it is inward, so how messages are delivered makes no difference to it. The second one hands
over one message and succeeds whatever becomes of it. Nothing else is ever delivered: what a run
delivers is read off its record (`Record.delivery?`), one message for every code that was granted
outside the test mode.

Whoever delivers the messages may be another one at every step, so deliveries may succeed and fail
in any order. What is answered, and what is in the cache and the store, does not depend on it.

## The model

* `Accounts.afterVia`, `Accounts.traceVia`: a run whose steps have notifiers of their own.
* `Record.Delivers`: what a step delivers, and what the message says.
-/

namespace AuthCore

open AuthCore.Action

variable {α β : Type}

/-! ### The two parts of a request -/

namespace Otp

variable {c : OtpConfig} {u : Username} {m : Moment} {w : World}

/-- The first part of a request: a code is made and kept. The answer is what there is to deliver. -/
def prepare (c : OtpConfig) (u : Username) (purpose : OtpPurpose) (greeted : Option String) :
    Action Delivery := do
  let code := code c (← read)
  let created ← Action.cacheCreate (key u) [(codeField, code), (retryField, "0")]
    (seconds (window c))
  Action.require created .otpExists
  Action.log (.otpRequested u.value purpose)
  return ⟨u.value, message c u code purpose greeted⟩

/-- The second part of a request: what there is to deliver is delivered, but for the test mode. -/
def handOver (c : OtpConfig) (d : Delivery) : Action Unit :=
  if c.testMode then pure () else deliver d.recipient d.message

theorem request_eq (purpose : OtpPurpose) (greeted : Option String) :
    request c u purpose greeted = prepare c u purpose greeted >>= handOver c := by
  simp only [request, prepare, handOver, bind_assoc, pure_bind]

theorem inward_prepare (purpose : OtpPurpose) (greeted : Option String) :
    (prepare c u purpose greeted).Inward :=
  inward_read.bind fun _ => (inward_cacheCreate _ _ _).bind fun _ => (inward_require _ _).bind
    fun _ => (inward_log _).bind fun _ => inward_pure _

theorem perform_handOver (d : Delivery) : (handOver c d).perform m w =
    (.ok (), if c.testMode then w else ((deliver d.recipient d.message).perform m w).2) := by
  unfold handOver
  split
  · rfl
  · rw [← deliver_ok d.recipient d.message]

theorem same_handOver (d : Delivery) : Frame.same.Keeps (handOver c d) :=
  (Frame.keeps_pure ()).ite (keeps_deliver _ _)

/-- What a server is asked in order to store a code: to create an entry that lasts some seconds,
unless there is one. -/
def creation (u : Username) (ttl : Nat) (code : String) : RemoteCache.Command :=
  .script .createHash (key u) [Text.showNat ttl, codeField, code, retryField, "0"]

/-- A server is asked one thing in order to store a code. -/
theorem createHash_remote (k : RemoteCache) (u : Username) (code : String) (ttl : Nat) :
    k.createHash (key u) [(codeField, code), (retryField, "0")] ttl =
      RemoteCache.read (fun r => r.integer?.map (· == 1)) (.createHash (key u))
        (k.ask (creation u (RemoteCache.seconds ttl) code)) := rfl

/-- The cache holds a code for a username: in memory it is a field of the entry, and a server was
last told to create an entry with it. -/
def Stores (u : Username) (code : String) : Cache → Prop
  | .memory k => ∃ fields expiry,
      k.entries.get? (key u) = some ⟨.hash fields, expiry⟩ ∧ fields.get? codeField = some code
  | .remote c => ∃ ttl, c.sent.head? = some (creation u ttl code).words

/-- A message says a code in the words of a configuration: to a phone in those of the template, and
to an address under the subject for the purpose, with a greeting. -/
inductive Worded (c : OtpConfig) (purpose : OtpPurpose) (greeted : Option String) (code : String) :
    Username → Delivery → Prop
  | sms (number : String) : Worded c purpose greeted code (.phone number)
      ⟨number, .sms (Text.replace c.smsTemplate OtpConfig.codePlace code)⟩
  | email (address : String) : Worded c purpose greeted code (.email address)
      ⟨address, .email (c.subject purpose)
        (OtpConfig.greeting greeted ++ "\n\nYour code is " ++ code ++ ".\n")⟩

theorem worded_message (c : OtpConfig) (u : Username) (code : String) (purpose : OtpPurpose)
    (greeted : Option String) :
    Worded c purpose greeted code u ⟨u.value, message c u code purpose greeted⟩ := by
  cases u with
  | phone number => exact .sms number
  | email address => exact .email address

/-- A code that was new to the cache is stored in it. -/
theorem stores_of_createHash {cache f : Cache} {code : String} {ttl now : Nat}
    (h : cache.createHash (key u) [(codeField, code), (retryField, "0")] ttl now = (.ok true, f)) :
    Stores u code f := by
  cases cache with
  | memory k =>
    simp only [Cache.createHash, Cache.ofMemory, MemoryCache.createHash] at h
    split at h
    next =>
      split at h
      next => cases h
      next =>
        obtain ⟨-, rfl⟩ := Prod.mk.inj h
        refine ⟨_, _, OrderedMap.get?_insert_self _ _ _, ?_⟩
        have hne : codeField ≠ retryField := by decide
        exact (OrderedMap.get?_insert_of_ne hne _ _).trans (OrderedMap.get?_insert_self _ _ _)
    next => cases h
  | remote k =>
    rw [Cache.createHash, Cache.ofRemote, createHash_remote] at h
    obtain ⟨hanswer, rfl⟩ := Prod.mk.inj h
    obtain ⟨n, hn, -⟩ := Option.map_eq_some_iff.1 (RemoteCache.read_fst_eq_ok.1 hanswer)
    rw [RemoteCache.read_snd]
    exact ⟨_, RemoteCache.head?_sent_run hn⟩

/-- A code that was prepared is stored, and it is the one in the message. -/
theorem prepare_eq_ok {purpose : OtpPurpose} {greeted : Option String} {d : Delivery} {v : World}
    (h : (prepare c u purpose greeted).perform m w = (.ok d, v)) :
    d = ⟨u.value, message c u (code c m) purpose greeted⟩ ∧ Stores u (code c m) v.cache := by
  rw [prepare, perform_bind_ok perform_read] at h
  obtain ⟨created, x, hcreate, hrest⟩ := perform_bind_eq_ok.1 h
  obtain ⟨_, _, hnew, hend⟩ := perform_bind_eq_ok.1 hrest
  obtain ⟨rfl, rfl⟩ := require_eq_ok.1 hnew
  obtain ⟨hd, rfl⟩ := Prod.mk.inj hend
  have hstores := stores_of_createHash (createHash_of_cacheCreate hcreate)
  exact ⟨(Except.ok.inj hd).symm, hstores⟩

end Otp

/-! ### Requests among the operations -/

/-- What an action hands over in a world: nothing, so that it makes no difference how messages are
delivered, or one message, which is the last thing it does. -/
def Action.HandsOver (m : Moment) (w : World) (x : Action α) : Option Delivery → Prop
  | none => x.SilentAt m w
  | some d => ∃ v : World,
      v.notifier = w.notifier ∧ v.outbox = w.outbox ∧ v.network = w.network ∧
      (x.perform m w).2 = ((Otp.deliver d.recipient d.message).perform m v).2

theorem Action.HandsOver.map {m : Moment} {w : World} {x : Action α} {d : Option Delivery}
    (f : α → β) (h : x.HandsOver m w d) : (f <$> x).HandsOver m w d := by
  cases d with
  | none => exact SilentAt.map f h
  | some d =>
    obtain ⟨v, hn, ho, hw, hv⟩ := h
    refine ⟨v, hn, ho, hw, ?_⟩
    rw [perform_map]
    exact hv

namespace Otp

variable {c : OtpConfig} {m : Moment} {w v : World} {x : Action Delivery}

/-- What was prepared is handed over. -/
theorem handsOver_of_ok {d : Delivery} (hx : x.Inward) (h : x.perform m w = (.ok d, v)) :
    (x >>= handOver c).HandsOver m w (if c.testMode then none else some d) := by
  cases ht : c.testMode with
  | true =>
    have hnothing (d : Delivery) : handOver c d = pure () := if_pos ht
    refine (hx.bind fun d => ?_).silentAt m w
    rw [hnothing d]
    exact inward_pure ()
  | false =>
    obtain ⟨r, cache, store, es, hperform⟩ := hx m w.cache w.store
    have hv : v = { w with cache := cache, store := store, log := w.log ++ es } :=
      (Prod.mk.inj (h.symm.trans (hperform w rfl rfl))).2
    refine ⟨v, by rw [hv], by rw [hv], by rw [hv], ?_⟩
    have hdeliver : handOver c d = deliver d.recipient d.message :=
      if_neg (ht.symm ▸ Bool.false_ne_true)
    rw [perform_bind_ok h, hdeliver]

/-- Nothing is handed over if nothing was prepared. -/
theorem handsOver_of_error {e : Error} (hx : x.Inward) (h : x.perform m w = (.error e, v)) :
    (x >>= handOver c).HandsOver m w none := by
  have hsilent := hx.silentAt m w
  constructor
  · refine hsilent.toQuietAt.bind fun d v' hok => ?_
    cases h.symm.trans hok
  · have hnetwork := hsilent.network
    rw [h] at hnetwork
    rw [perform_bind_error h]
    exact hnetwork

/-- A message that is delivered to an outbox lies in it, whatever is said about it. -/
theorem outbox_deliver {failure : Option Error} (h : v.notifier = .outbox failure) (d : Delivery) :
    ((deliver d.recipient d.message).perform m v).2.outbox = v.outbox ++ [d] := by
  rw [perform_deliver, h]
  cases failure <;> rfl

end Otp

namespace Operation

variable {a : Accounts} {op : Operation} {m : Moment} {w w' : World} {x : Action Delivery}

/-- The user who is found under a name, if one is. -/
def found? (s : Store) (name : Username) : Option User := (s.findByUsername name none).toOption.join

/-- Whom a requested code is for, what it is for, and whom the message greets. -/
def asks? (s : Store) : Operation → Option (Username × OtpPurpose × Option String)
  | requestSignInCode name => some (name, .verification, (found? s name).bind User.displayName)
  | requestResetCode name => some (name, .resetPassword, (found? s name).bind User.displayName)
  | requestCode name purpose greeted => some (name, purpose, greeted)
  | _ => none

/-- The first part of an operation that requests a code: up to what there is to deliver. -/
def prepare? (a : Accounts) : Operation → Option (Action Delivery)
  | requestSignInCode name => some do
    let u ← Action.query (·.findByUsername name none)
    Otp.prepare a.otp name .verification (u.bind User.displayName)
  | requestResetCode name => some do
    let u ← Accounts.needUser name
    Otp.prepare a.otp name .resetPassword u.displayName
  | requestCode name purpose greeted => some (Otp.prepare a.otp name purpose greeted)
  | _ => none

theorem asks?_eq_none (h : op.requestsCode = false) {s : Store} : op.asks? s = none := by
  cases op <;> first | rfl | cases h

theorem isSome_prepare? : (op.prepare? a).isSome = op.requestsCode := by
  cases op <;> rfl

theorem perform_of_prepare? (h : op.prepare? a = some x) :
    op.perform a = (fun _ => Result.done) <$> (x >>= Otp.handOver a.otp) := by
  cases op with
  | requestSignInCode name =>
    obtain rfl := Option.some.inj h
    simp only [perform, Accounts.requestSignInCode, Otp.request_eq, bind_assoc]
  | requestResetCode name =>
    obtain rfl := Option.some.inj h
    simp only [perform, Accounts.requestResetCode, Otp.request_eq, bind_assoc]
  | requestCode name purpose greeted =>
    obtain rfl := Option.some.inj h
    rw [perform, Otp.request_eq]
  | _ => cases h

theorem inward_of_prepare? (h : op.prepare? a = some x) : x.Inward := by
  cases op with
  | requestSignInCode name =>
    obtain rfl := Option.some.inj h
    exact (inward_query _).bind fun u => Otp.inward_prepare _ _
  | requestResetCode name =>
    obtain rfl := Option.some.inj h
    exact (Accounts.inward_needUser name).bind fun u => Otp.inward_prepare _ _
  | requestCode name purpose greeted =>
    obtain rfl := Option.some.inj h
    exact Otp.inward_prepare purpose greeted
  | _ => cases h

/-- What there is to deliver says the code that is stored. -/
theorem eq_ok_of_prepare? {d : Delivery} {v : World} (h : op.prepare? a = some x)
    (hx : x.perform m w = (.ok d, v)) : ∃ name purpose greeted,
      op.asks? w.store = some (name, purpose, greeted) ∧
      d = ⟨name.value, Otp.message a.otp name (Otp.code a.otp m) purpose greeted⟩ ∧
      Otp.Stores name (Otp.code a.otp m) v.cache := by
  cases op with
  | requestSignInCode name =>
    obtain rfl := Option.some.inj h
    obtain ⟨u, _, hquery, hprepare⟩ := perform_bind_eq_ok.1 hx
    obtain ⟨hfound, rfl⟩ := query_eq_ok.1 hquery
    refine ⟨name, _, _, rfl, ?_⟩
    rw [found?, hfound]
    exact Otp.prepare_eq_ok hprepare
  | requestResetCode name =>
    obtain rfl := Option.some.inj h
    obtain ⟨u, _, hneed, hprepare⟩ := perform_bind_eq_ok.1 hx
    obtain ⟨o, _, hquery, hthere⟩ := perform_bind_eq_ok.1 hneed
    obtain ⟨hfound, rfl⟩ := query_eq_ok.1 hquery
    obtain ⟨rfl, rfl⟩ := orReject_eq_ok.1 hthere
    refine ⟨name, _, _, rfl, ?_⟩
    rw [found?, hfound]
    exact Otp.prepare_eq_ok hprepare
  | requestCode name purpose greeted =>
    obtain rfl := Option.some.inj h
    exact ⟨name, purpose, greeted, rfl, Otp.prepare_eq_ok hx⟩
  | _ => cases h

end Operation

/-! ### Steps -/

namespace Record

/-- The world that a step leaves. -/
def after (a : Accounts) (r : Record) : World := (a.step r.step r.before).2

/-- What a step has to deliver: the message with the code that was granted, but for the test
mode. -/
def delivery? (a : Accounts) (r : Record) : Option Delivery :=
  if !a.otp.testMode && r.answer.isOk then
    (r.step.operation.asks? r.before.store).map fun (name, purpose, greeted) =>
      ⟨name.value, Otp.message a.otp name (Otp.code a.otp r.step.moment) purpose greeted⟩
  else none

/-- What a step delivers: one message if it has granted a code outside the test mode, with that
code in it, and else nothing. The network is then left alone as well, unless a provider is asked. -/
inductive Delivers (a : Accounts) (r : Record) : Option Delivery → Prop
  | nothing (idle : a.otp.testMode = true ∨ r.step.operation.requestsCode = false ∨
        ∃ e, r.answer = .error e)
      (handed : (r.step.operation.perform a).HandsOver r.step.moment r.before none) :
      Delivers a r none
  | asked {provider : OuterProvider} {code : String}
      (idle : r.step.operation.provider? = some (provider, code))
      (quiet : (r.step.operation.perform a).QuietAt r.step.moment r.before) : Delivers a r none
  | one {name : Username} {purpose : OtpPurpose} {greeted : Option String} {code : String}
      {d : Delivery} (live : a.otp.testMode = false)
      (asked : r.step.operation.asks? r.before.store = some (name, purpose, greeted))
      (granted : r.answer = .ok .done) (worded : Otp.Worded a.otp purpose greeted code name d)
      (stored : Otp.Stores name code (r.after a).cache)
      (handed : (r.step.operation.perform a).HandsOver r.step.moment r.before (some d)) :
      Delivers a r (some d)

variable {a : Accounts} {r : Record}

theorem delivery?_eq_none (h : a.otp.testMode = true ∨ r.step.operation.requestsCode = false ∨
    ∃ e, r.answer = .error e) : r.delivery? a = none := by
  unfold delivery?
  rcases h with h | h | ⟨e, h⟩
  · simp [h]
  · simp [Operation.asks?_eq_none h]
  · simp [h, Except.isOk, Except.toBool]

theorem delivery?_eq_some {name : Username} {purpose : OtpPurpose} {greeted : Option String}
    {x : Result} (live : a.otp.testMode = false)
    (asked : r.step.operation.asks? r.before.store = some (name, purpose, greeted))
    (granted : r.answer = .ok x) : r.delivery? a = some ⟨name.value,
      Otp.message a.otp name (Otp.code a.otp r.step.moment) purpose greeted⟩ := by
  rw [delivery?, live, granted, asked]
  rfl

end Record

namespace Operation

variable {a : Accounts} {op : Operation} {m : Moment} {w w' : World}

/-- An operation that has prepared a message succeeds and hands it over, but for the test mode. -/
theorem perform_of_prepared {x : Action Delivery} {d : Delivery} {v : World}
    (hx : op.prepare? a = some x) (h : x.perform m w = (.ok d, v)) :
    ((op.perform a).perform m w).1 = .ok .done ∧
      ((op.perform a).perform m w).2.cache = v.cache ∧
      (op.perform a).HandsOver m w (if a.otp.testMode then none else some d) := by
  have hhanded := Otp.handsOver_of_ok (c := a.otp) (inward_of_prepare? hx) h
  rw [perform_of_prepare? hx, perform_map, perform_bind_ok h]
  refine ⟨?_, ?_, hhanded.map _⟩
  · rw [Otp.perform_handOver]
    rfl
  · exact (Otp.same_handOver d m v).1

/-- An operation that has prepared no message fails and hands nothing over. -/
theorem perform_of_unprepared {x : Action Delivery} {e : Error} {v : World}
    (hx : op.prepare? a = some x) (h : x.perform m w = (.error e, v)) :
    ((op.perform a).perform m w).1 = .error e ∧ (op.perform a).HandsOver m w none := by
  have hhanded := Otp.handsOver_of_error (c := a.otp) (inward_of_prepare? hx) h
  rw [perform_of_prepare? hx, perform_map, perform_bind_error h]
  exact ⟨rfl, hhanded.map _⟩

/-- An operation answers the same in two worlds with the same cache and the same store, as long as
the provider that it asks says the same. -/
theorem agrees_perform (hw : w.SameInside w')
    (hp : ∀ provider code, op.provider? = some (provider, code) →
      ((provider.exchangeCode code).perform m w').1 =
        ((provider.exchangeCode code).perform m w).1) :
    (op.perform a).Agrees m w w' := by
  cases hr : op.requestsCode with
  | true =>
    obtain ⟨x, hx⟩ := Option.isSome_iff_exists.1 ((isSome_prepare? (a := a)).trans hr)
    rw [perform_of_prepare? hx]
    refine Agrees.map _ (((inward_of_prepare? hx).agrees hw).bind fun d v v' hv => ?_)
    exact agrees_of_same (Otp.same_handOver d) (fun _ => by rw [Otp.perform_handOver]) hv
  | false =>
    cases hask : op.provider? with
    | none => exact (inward_perform hr hask).agrees hw
    | some asked =>
      obtain ⟨provider, code⟩ := asked
      obtain ⟨rest, hrest, hperform⟩ := exists_perform_of_provider? (a := a) hask
      rw [hperform]
      obtain ⟨hcache, hstore⟩ := provider.keeps_exchangeCode code m w
      obtain ⟨hcache', hstore'⟩ := provider.keeps_exchangeCode code m w'
      refine Agrees.bind ⟨hp provider code hask, ?_, ?_⟩ fun p v v' hv => (hrest p).agrees hv
      · rw [hcache, hcache', hw.cache]
      · rw [hstore, hstore', hw.store]

end Operation

namespace Accounts

variable {a : Accounts} {s : Step} {w : World}

/-- A step delivers what its record says. -/
theorem delivers_record (hq : s.Quiet) :
    (a.record s w).Delivers a ((a.record s w).delivery? a) := by
  cases hr : s.operation.requestsCode with
  | false =>
    have hidle : a.otp.testMode = true ∨ (a.record s w).step.operation.requestsCode = false ∨
        ∃ e, (a.record s w).answer = .error e := .inr (.inl hr)
    rw [Record.delivery?_eq_none hidle]
    cases hp : s.operation.provider? with
    | none => exact .nothing hidle ((Operation.inward_perform hr hp).silentAt s.moment w)
    | some asked => exact .asked hp (Operation.quietAt_perform hr hq)
  | true =>
    obtain ⟨x, hx⟩ := Option.isSome_iff_exists.1 ((Operation.isSome_prepare? (a := a)).trans hr)
    rcases hprepared : x.perform s.moment w with ⟨e | d, v⟩
    · obtain ⟨hanswer, hhanded⟩ := Operation.perform_of_unprepared hx hprepared
      have hidle : a.otp.testMode = true ∨ (a.record s w).step.operation.requestsCode = false ∨
          ∃ e, (a.record s w).answer = .error e := .inr (.inr ⟨e, hanswer⟩)
      rw [Record.delivery?_eq_none hidle]
      exact .nothing hidle hhanded
    · obtain ⟨hanswer, hcache, hhanded⟩ := Operation.perform_of_prepared hx hprepared
      cases ht : a.otp.testMode with
      | true =>
        rw [if_pos ht] at hhanded
        rw [Record.delivery?_eq_none (.inl ht)]
        exact .nothing (.inl ht) hhanded
      | false =>
        obtain ⟨name, purpose, greeted, hasked, rfl, hstores⟩ :=
          Operation.eq_ok_of_prepare? hx hprepared
        rw [if_neg (ht.symm ▸ Bool.false_ne_true)] at hhanded
        rw [Record.delivery?_eq_some (r := a.record s w) ht hasked hanswer]
        refine .one ht hasked hanswer (Otp.worded_message _ _ _ _ _) ?_ hhanded
        exact hcache.symm ▸ hstores

/-- A step that finds an outbox puts into it what it delivers. -/
theorem outbox_step {failure : Option Error} (hw : w.notifier = .outbox failure) (hq : s.Quiet) :
    (a.step s w).2.outbox = w.outbox ++ ((a.record s w).delivery? a).toList := by
  have h := a.delivers_record (w := w) hq
  generalize (a.record s w).delivery? a = d at h ⊢
  cases h with
  | nothing _ handed => rw [Option.toList_none, List.append_nil]; exact handed.outbox
  | asked _ quiet => rw [Option.toList_none, List.append_nil]; exact quiet.outbox
  | @one _ _ _ _ d live asked granted worded stored handed =>
    obtain ⟨v, hnotifier, houtbox, -, hv⟩ := handed
    calc (a.step s w).2.outbox
        = ((Otp.deliver d.recipient d.message).perform s.moment v).2.outbox :=
          congrArg World.outbox hv
      _ = v.outbox ++ [d] := Otp.outbox_deliver (hnotifier.trans hw) d
      _ = w.outbox ++ [d] := congrArg (· ++ [d]) houtbox

/-! ### Runs -/

/-- The world after some steps, each of which finds a notifier of its own. -/
def afterVia (a : Accounts) (n : Nat → Notifier) (w : World) : List Step → World
  | [] => w
  | s :: steps => a.afterVia (fun i => n (i + 1)) (a.step s (w.via (n 0))).2 steps

/-- The record of some steps, each of which finds a notifier of its own. -/
def traceVia (a : Accounts) (n : Nat → Notifier) (w : World) : List Step → List Record
  | [] => []
  | s :: steps => a.record s (w.via (n 0)) ::
      a.traceVia (fun i => n (i + 1)) (a.step s (w.via (n 0))).2 steps

/-- In two runs the providers that are asked say the same. -/
def HearsSame (a : Accounts) (n n' : Nat → Notifier) (w w' : World) (steps : List Step) : Prop :=
  ∀ before s since provider code, steps = before ++ s :: since →
    s.operation.provider? = some (provider, code) →
    ((provider.exchangeCode code).perform s.moment
        ((a.afterVia n' w' before).via (n' before.length))).1 =
      ((provider.exchangeCode code).perform s.moment
        ((a.afterVia n w before).via (n before.length))).1

theorem delivers_traceVia {steps : List Step} (hq : ∀ s ∈ steps, s.Quiet) (n : Nat → Notifier)
    (w : World) : ∀ r ∈ a.traceVia n w steps, r.Delivers a (r.delivery? a) := by
  induction steps generalizing n w with
  | nil => exact List.forall_mem_nil _
  | cons s steps ih =>
    obtain ⟨hs, hsteps⟩ := List.forall_mem_cons.1 hq
    exact List.forall_mem_cons.2 ⟨a.delivers_record hs, ih hsteps _ _⟩

/-- What was delivered in a run lies in the outbox, in order. -/
theorem outbox_afterVia {steps : List Step} (hq : ∀ s ∈ steps, s.Quiet) {n : Nat → Notifier}
    (hn : ∀ i, ∃ failure, n i = .outbox failure) (w : World) :
    (a.afterVia n w steps).outbox =
      w.outbox ++ (a.traceVia n w steps).filterMap (·.delivery? a) := by
  induction steps generalizing n w with
  | nil => exact (List.append_nil _).symm
  | cons s steps ih =>
    obtain ⟨hs, hsteps⟩ := List.forall_mem_cons.1 hq
    obtain ⟨failure, hfirst⟩ := hn 0
    have hstep := a.outbox_step (w := w.via (n 0)) hfirst hs
    rw [afterVia, ih hsteps fun i => hn (i + 1), hstep, traceVia, List.append_assoc]
    rw [List.filterMap_cons]
    cases (a.record s (w.via (n 0))).delivery? a <;> rfl

/-- Two runs from the same cache and the same store answer the same and leave the same cache and
the same store. -/
theorem agrees_runVia {steps : List Step} {n n' : Nat → Notifier} {w w' : World}
    (hw : w.SameInside w') (h : a.HearsSame n n' w w' steps) :
    (a.traceVia n' w' steps).map Record.answer = (a.traceVia n w steps).map Record.answer ∧
      (a.afterVia n w steps).SameInside (a.afterVia n' w' steps) := by
  induction steps generalizing n n' w w' with
  | nil => exact ⟨rfl, hw⟩
  | cons s steps ih =>
    have hvia : (w.via (n 0)).SameInside (w'.via (n' 0)) := ⟨hw.cache, hw.store⟩
    have hstep : (s.operation.perform a).Agrees s.moment (w.via (n 0)) (w'.via (n' 0)) :=
      Operation.agrees_perform hvia fun provider code hask => h [] s steps provider code rfl hask
    obtain ⟨hanswer, hinside⟩ := hstep
    obtain ⟨hanswers, hend⟩ := ih hinside fun before t since provider code hsteps hask =>
      h (s :: before) t since provider code (congrArg (s :: ·) hsteps) hask
    exact ⟨congrArg₂ List.cons hanswer hanswers, hend⟩

/-- For every code that is granted outside the test mode exactly one message is delivered, on the
channel of the username and with the code that the cache stores for it; nothing else is delivered.
Outboxes hold those messages, whatever they say about them. Runs from the same cache and the same
store whose deliveries succeed and fail in different ways answer the same, step by step, and leave
the same cache and the same store. -/
theorem delivers_once (a : Accounts) {steps : List Step} (hq : ∀ s ∈ steps, s.Quiet) (w : World)
    (n : Nat → Notifier) :
    (∀ r ∈ a.traceVia n w steps, r.Delivers a (r.delivery? a)) ∧
      ((∀ i, ∃ failure, n i = .outbox failure) →
        (a.afterVia n w steps).outbox =
          w.outbox ++ (a.traceVia n w steps).filterMap (·.delivery? a)) ∧
      ∀ (n' : Nat → Notifier) (w' : World), w.SameInside w' → a.HearsSame n n' w w' steps →
        (a.traceVia n' w' steps).map Record.answer = (a.traceVia n w steps).map Record.answer ∧
          (a.afterVia n w steps).SameInside (a.afterVia n' w' steps) :=
  ⟨a.delivers_traceVia hq n w, fun hn => a.outbox_afterVia hq hn w, fun _ _ => a.agrees_runVia⟩

/-- Deliveries that fail in turns, once the even and once the odd ones: every code that is granted
is delivered once, and the answers are the same. -/
theorem delivers_once_at_odds :
    let a : Accounts := ⟨⟨⟨"secret", .hs256⟩, 60, 120⟩, {}, 4, 16⟩
    let w := Action.worldOf (.memory (.new 2)) (.memory .empty) .log
    let mute : OuterProvider :=
      ⟨⟨"mute", fun _ => throw (.network .failed), fun _ => throw (.network .failed)⟩,
        fun _ => Frame.keeps_throw _⟩
    let steps : List Step :=
      [⟨0, .ofSeed 0, .requestCode (.phone "+4915") .verification none⟩,
       ⟨1, .ofSeed 1, .requestCode (.phone "+4915") .resetPassword (some "Ann")⟩,
       ⟨2, .ofSeed 2, .requestResetCode (.email "ann@example.org")⟩,
       ⟨3, .ofSeed 4, .requestSignInCode (.email "ann@example.org")⟩,
       ⟨4, .ofSeed 5, .requestSignInCode (.phone "+4916")⟩,
       ⟨5, .ofSeed 6, .signInWithProvider mute "code"⟩]
    let n : Nat → Notifier := fun i =>
      .outbox (if i % 2 = 0 then some (.network .failed) else none)
    let n' : Nat → Notifier := fun i =>
      .outbox (if i % 2 = 0 then none else some (.network .failed))
    (∀ s ∈ steps, s.Quiet) ∧ a.HearsSame n n' w w steps ∧
      (∀ r ∈ a.traceVia n w steps, r.Delivers a (r.delivery? a)) ∧
      (a.afterVia n w steps).outbox =
        [⟨"+4915", .sms "Your verification code: 79246"⟩,
         ⟨"ann@example.org", .email "Verification code" "Hello,\n\nYour code is 89246.\n"⟩] ∧
      (a.traceVia n' w steps).map Record.answer = (a.traceVia n w steps).map Record.answer ∧
      (a.afterVia n w steps).SameInside (a.afterVia n' w steps) := by
  intro a w mute steps n n'
  -- only the last step asks a provider
  have hmute : ∀ s ∈ steps, ∀ provider code, s.operation.provider? = some (provider, code) →
      provider = mute := by
    intro s hs provider code h
    simp only [steps, List.mem_cons, List.not_mem_nil, or_false] at hs
    rcases hs with rfl | rfl | rfl | rfl | rfl | rfl
    case inr.inr.inr.inr.inr => exact (congrArg Prod.fst (Option.some.inj h)).symm
    all_goals cases h
  have hq : ∀ s ∈ steps, s.Quiet := by
    intro s hs provider code h
    rw [hmute s hs provider code h]
    exact fun _ _ _ => quietAt_throw _
  have hsame : a.HearsSame n n' w w steps := by
    intro before s since provider code hsteps h
    have hs : s ∈ steps := hsteps ▸ List.mem_append_right _ List.mem_cons_self
    rw [hmute s hs provider code h]
    rfl
  obtain ⟨hdelivers, houtbox, hagrees⟩ := delivers_once a hq w n
  obtain ⟨hanswers, hinside⟩ := hagrees n' w ⟨rfl, rfl⟩ hsame
  refine ⟨hq, hsame, hdelivers, (houtbox fun i => ⟨_, rfl⟩).trans ?_, hanswers, hinside⟩
  decide +kernel

end Accounts

end AuthCore
