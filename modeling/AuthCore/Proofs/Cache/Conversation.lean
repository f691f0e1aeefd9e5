import AuthCore.Cache.Basic

/-!
# Talking to a cache server

What a server is asked, one thing after the other, and what it replies. A script counts as one thing
that is asked, with one reply, whether or not its text had to be sent first. A dialogue leads from
one connection to another (`Talk`); as long as the server knows all scripts, what was asked is word
for word what was sent (`Talk.sent_eq`). What a use of the cache answers is read off the reply
(`read_fst_eq_ok`).
-/

namespace AuthCore

namespace RemoteCache

/-- What a server is asked: a plain command, or to run a script on a key. -/
inductive Command where
  | plain (words : List String)
  | script (s : Script) (key : String) (args : List String)

/-- The words of a command. -/
def Command.words : Command → List String
  | plain words => words
  | script s key args => call s key args

/-- What was asked, one after the other, each with the reply to it. -/
abbrev Dialogue := List (Command × Reply)

/-- Asks a server, and takes its reply. -/
def ask (c : RemoteCache) : Command → Reply × RemoteCache
  | .plain words => c.exec words
  | .script s key args => c.run s key args

/-- A dialogue leads from one connection to another. -/
inductive Talk : RemoteCache → Dialogue → RemoteCache → Prop
  | done (c : RemoteCache) : Talk c [] c
  | ask {c d : RemoteCache} (command : Command) {talk : Dialogue}
      (h : Talk (c.ask command).2 talk d) : Talk c ((command, (c.ask command).1) :: talk) d

/-- The server knows every script it is asked to run. -/
def KnowsScripts (c : RemoteCache) : Prop := ∀ r ∈ c.replies, r.isUnknownScript = false

variable {c d : RemoteCache}

/-- One thing was asked. -/
theorem Talk.single (c : RemoteCache) (command : Command) :
    c.Talk [(command, (c.ask command).1)] (c.ask command).2 :=
  .ask command (.done _)

/-! ### What is sent -/

theorem sent_exec (words : List String) : (c.exec words).2.sent = words :: c.sent := by
  unfold exec
  split
  · rfl
  · rfl

theorem replies_exec (words : List String) : (c.exec words).2.replies = c.replies.tail := by
  unfold exec
  split
  next h => rw [h]; rfl
  next h => rw [h]; rfl

theorem KnowsScripts.exec (h : c.KnowsScripts) (words : List String) :
    (c.exec words).1.isUnknownScript = false ∧ (c.exec words).2.KnowsScripts := by
  constructor
  · unfold RemoteCache.exec
    split
    next => rfl
    next r rs hr => exact h r (hr ▸ List.mem_cons_self)
  · intro r hr
    rw [replies_exec] at hr
    exact h r (List.mem_of_mem_tail hr)

/-- A server that knows all scripts is asked in one command. -/
theorem KnowsScripts.ask_eq (h : c.KnowsScripts) (command : Command) :
    c.ask command = c.exec command.words := by
  cases command with
  | plain words => rfl
  | script s key args =>
    have hknown := (h.exec (call s key args)).1
    simp only [ask, run, hknown, Bool.false_eq_true, if_false]
    rfl

/-- If the server knows all scripts, what was asked is what was sent. -/
theorem Talk.sent_eq {talk : Dialogue} (h : c.Talk talk d) (hc : c.KnowsScripts) :
    d.sent = (talk.map (·.1.words)).reverse ++ c.sent := by
  induction h with
  | done c => rfl
  | @ask c d command talk _ ih =>
    rw [hc.ask_eq command] at ih
    rw [ih (hc.exec command.words).2, sent_exec, List.map_cons, List.reverse_cons,
      List.append_assoc]
    rfl

/-- A script that has answered a number was the last thing that was sent. -/
theorem head?_sent_run {s : Script} {key : String} {args : List String} {n : Int}
    (h : (c.run s key args).1.integer? = some n) :
    (c.run s key args).2.sent.head? = some (call s key args) := by
  unfold run at h ⊢
  simp only at h ⊢
  split
  next hunknown =>
    split
    next => rw [sent_exec, List.head?_cons]
    next hfine =>
      -- what is no fine reply is an error, which is no number
      rw [if_pos hunknown, if_neg hfine] at h
      cases hr : ((c.exec (call s key args)).2.exec ["SCRIPT", "LOAD", s.source]).1 with
      | error text => rw [hr] at h; cases h
      | _ => rw [hr] at hfine; exact absurd rfl hfine
  next => rw [sent_exec, List.head?_cons]

/-! ### What is answered -/

variable {α : Type} {f : Reply → Option α} {fault : CacheFault} {r : Reply × RemoteCache}

@[simp] theorem read_snd : (read f fault r).2 = r.2 := by
  unfold read
  split
  · rfl
  · rfl

theorem read_fst_eq_ok {a : α} : (read f fault r).1 = .ok a ↔ f r.1 = some a := by
  unfold read
  split
  next b h => rw [h, Except.ok.injEq, Option.some.injEq]
  next h => rw [h]; exact iff_of_false nofun nofun

end RemoteCache

end AuthCore
