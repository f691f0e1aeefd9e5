import AuthCore.Startup.Basic

/-!
# Reasoning about the start

How an operation of the start that is composed of others is performed.
-/

namespace AuthCore.Startup

variable {α β : Type} {g g' : Ground} {e : Error}

@[simp] theorem perform_pure (a : α) : (pure a : Startup α).perform g = (.ok a, g) := rfl

@[simp] theorem perform_throw (e : Error) : (throw e : Startup α).perform g = (.error e, g) := rfl

theorem perform_bind (x : Startup α) (f : α → Startup β) :
    (x >>= f).perform g =
      match x.perform g with
      | (.ok a, g) => (f a).perform g
      | (.error e, g) => (.error e, g) := by
  unfold perform
  rw [ExceptT.run_bind, StateT.run_bind]
  show (match x.run.run g with | (a, s) => _) = _
  rcases x.run.run g with ⟨_ | a, g'⟩ <;> rfl

theorem perform_bind_ok {x : Startup α} {a : α} (h : x.perform g = (.ok a, g'))
    (f : α → Startup β) : (x >>= f).perform g = (f a).perform g' := by
  rw [perform_bind, h]

theorem perform_bind_error {x : Startup α} (h : x.perform g = (.error e, g'))
    (f : α → Startup β) : (x >>= f).perform g = (.error e, g') := by
  rw [perform_bind, h]

@[simp] theorem perform_get : (get : Startup Ground).perform g = (.ok g, g) := rfl

@[simp] theorem perform_log (v : Event) :
    (log v).perform g = (.ok (), { g with log := g.log ++ [v] }) := rfl

@[simp] theorem perform_environment? (name : String) :
    (environment? name).perform g = (.ok (g.environment.lookup name), g) := rfl

theorem perform_create (f : FileTree → Bool × FileTree) (e : Error) :
    (create f e).perform g =
      (if (f g.files).1 then .ok () else .error e, { g with files := (f g.files).2 }) := rfl

end AuthCore.Startup
