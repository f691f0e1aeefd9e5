import AuthCore.Json.Decode

/-!
# Decoding what was written

A list whose items read back reads back as a whole, and a record is read field by field.
-/

namespace AuthCore.Json

variable {α β : Type}

/-! ### Lists -/

/-- An array is read item by item. -/
theorem list?_map {f : Json → Option α} {g : β → Json} {h : β → α} {bs : List β}
    (hf : ∀ b ∈ bs, f (g b) = some (h b)) : list? f (.array (bs.map g)) = some (bs.map h) := by
  rw [list?]
  induction bs with
  | nil => rfl
  | cons b bs ih =>
    have hb := hf b List.mem_cons_self
    have hbs := ih fun c hc => hf c (List.mem_cons_of_mem b hc)
    rw [List.map_cons, List.mapM_cons, hb, hbs]
    rfl

/-- An array of written items is read item by item. -/
theorem list?_array_map {f : Json → Option α} {g : α → Json} {as : List α}
    (h : ∀ a ∈ as, f (g a) = some a) : list? f (.array (as.map g)) = some as :=
  (list?_map h).trans (congrArg some (List.map_id' as))

theorem list?_strings (texts : List String) : list? string? (strings texts) = some texts :=
  list?_array_map fun _ _ => rfl

/-! ### Fields -/

namespace Fields

variable {fs : Fields} {name : String} {j : Json} {f : Json → Option β} {a : α}

theorem maybe_of_none (h : fs.lookup name = none) : fs.maybe name f = some none := by
  rw [maybe, h]

theorem maybe_of_null (h : fs.lookup name = some .null) : fs.maybe name f = some none := by
  rw [maybe, h]

theorem maybe_of_some (h : fs.lookup name = some j) (hj : j ≠ .null) :
    fs.maybe name f = (f j).map some := by
  rw [maybe, h]
  cases j <;> first | rfl | contradiction

/-- A record is read by its known members. -/
theorem fields?_bind {names : List String} {g : Fields → Option α} (hj : fields? names j = some fs)
    (hg : g fs = some a) : (fields? names j >>= g) = some a := by
  rw [hj]
  exact hg

/-- A field that is there is read, and then the others. -/
theorem need_bind {b : β} {g : β → Option α} (hj : fs.lookup name = some j) (hb : f j = some b)
    (hg : g b = some a) : (fs.need name f >>= g) = some a := by
  rw [need, hj, Option.bind_some, hb]
  exact hg

/-- A field that may be `null` is read, and then the others. -/
theorem maybe_bind {g : Option β → Option α} {write : β → Json} {o : Option β}
    (hj : fs.lookup name = some (orNull write o)) (hnull : f .null = none)
    (hb : ∀ b, o = some b → f (write b) = some b) (hg : g o = some a) :
    (fs.maybe name f >>= g) = some a := by
  cases o with
  | none =>
    rw [maybe_of_null hj]
    exact hg
  | some b =>
    have hread := hb b rfl
    have hne : write b ≠ .null := fun h => by
      rw [h, hnull] at hread
      cases hread
    have hmaybe : fs.maybe name f = (f (write b)).map some := maybe_of_some hj hne
    rw [hmaybe, hread]
    exact hg

/-- A text that may be `null` is read, and then the others. -/
theorem maybe_string_bind {g : Option String → Option α} {o : Option String}
    (hj : fs.lookup name = some (stringOrNull o)) (hg : g o = some a) :
    (fs.maybe name string? >>= g) = some a :=
  maybe_bind hj rfl (fun _ _ => rfl) hg

/-- A field that is not there is passed over. -/
theorem maybe_absent_bind {g : Option β → Option α} (h : fs.lookup name = none)
    (hg : g none = some a) : (fs.maybe name f >>= g) = some a := by
  rw [maybe_of_none h]
  exact hg

end Fields

end AuthCore.Json
