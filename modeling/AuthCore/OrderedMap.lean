/-!
# Ordered maps

Finite maps as lists of entries in strictly ascending order of their keys. The order is part of the
type, so each map has one list of entries, and two maps with the same entries are equal.

## Main definitions

* `OrderedMap κ ν`: the maps from `κ` to `ν`.
* `get?`, `insert`, `erase`: look up, put and remove one key.
-/

namespace AuthCore

/-- A finite map, its entries in strictly ascending order of their keys. -/
structure OrderedMap (κ : Type) (ν : Type) [Ord κ] where
  /-- The entries. -/
  entries : List (κ × ν)
  /-- Every key is smaller than the keys behind it. -/
  ordered : entries.Pairwise fun a b => compare a.1 b.1 = .lt

namespace OrderedMap

variable {κ ν μ : Type} [Ord κ]

@[ext] theorem ext {m n : OrderedMap κ ν} (h : m.entries = n.entries) : m = n := by
  cases m; cases n; cases h; rfl

/-- The map without entries. -/
def empty : OrderedMap κ ν := ⟨[], .nil⟩

instance : EmptyCollection (OrderedMap κ ν) := ⟨empty⟩

instance : Inhabited (OrderedMap κ ν) := ⟨empty⟩

instance [DecidableEq κ] [DecidableEq ν] : DecidableEq (OrderedMap κ ν) := fun m n =>
  if h : m.entries = n.entries then .isTrue (ext h) else .isFalse fun e => h (e ▸ rfl)

/-- The value at a key. -/
def find (k : κ) : List (κ × ν) → Option ν
  | [] => none
  | (a, v) :: es =>
    match compare k a with
    | .lt => none
    | .eq => some v
    | .gt => find k es

/-- The value at a key. -/
def get? (m : OrderedMap κ ν) (k : κ) : Option ν := find k m.entries

/-- Whether a key has a value. -/
def contains (m : OrderedMap κ ν) (k : κ) : Bool := (m.get? k).isSome

/-- The number of entries. -/
def size (m : OrderedMap κ ν) : Nat := m.entries.length

/-- The keys, ascending. -/
def keys (m : OrderedMap κ ν) : List κ := m.entries.map (·.1)

/-- The values, in the order of their keys. -/
def values (m : OrderedMap κ ν) : List ν := m.entries.map (·.2)

/-- Puts an entry where the order wants it, in the place of one with the same key. -/
def put (k : κ) (v : ν) : List (κ × ν) → List (κ × ν)
  | [] => [(k, v)]
  | (a, w) :: es =>
    match compare k a with
    | .lt => (k, v) :: (a, w) :: es
    | .eq => (k, v) :: es
    | .gt => (a, w) :: put k v es

theorem mem_put {k : κ} {v : ν} {es : List (κ × ν)} {e : κ × ν} (h : e ∈ put k v es) :
    e = (k, v) ∨ e ∈ es := by
  induction es with
  | nil => simpa [put] using h
  | cons x es ih =>
    obtain ⟨a, w⟩ := x
    simp only [put] at h
    split at h
    · simpa using h
    · rcases List.mem_cons.1 h with h | h
      · exact .inl h
      · exact .inr (List.mem_cons_of_mem _ h)
    · rcases List.mem_cons.1 h with h | h
      · exact .inr (h ▸ List.mem_cons_self)
      · exact (ih h).imp id (List.mem_cons_of_mem _)

theorem pairwise_put [Std.TransOrd κ] [Std.LawfulEqOrd κ] {k : κ} {v : ν} {es : List (κ × ν)}
    (h : es.Pairwise fun a b => compare a.1 b.1 = .lt) :
    (put k v es).Pairwise fun a b => compare a.1 b.1 = .lt := by
  induction es with
  | nil => simp [put]
  | cons x es ih =>
    obtain ⟨a, w⟩ := x
    obtain ⟨hx, hes⟩ := List.pairwise_cons.1 h
    simp only [put]
    split
    next hk =>
      refine List.pairwise_cons.2 ⟨fun e he => ?_, h⟩
      rcases List.mem_cons.1 he with rfl | he
      · exact hk
      · exact Std.TransCmp.lt_trans hk (hx e he)
    next hk =>
      have : k = a := Std.LawfulEqCmp.eq_of_compare hk
      subst this
      exact List.pairwise_cons.2 ⟨hx, hes⟩
    next hk =>
      refine List.pairwise_cons.2 ⟨fun e he => ?_, ih hes⟩
      rcases mem_put he with rfl | he
      · exact Std.OrientedCmp.lt_of_gt hk
      · exact hx e he

/-- The map with a value put at a key. -/
def insert [Std.TransOrd κ] [Std.LawfulEqOrd κ] (m : OrderedMap κ ν) (k : κ) (v : ν) :
    OrderedMap κ ν :=
  ⟨put k v m.entries, pairwise_put m.ordered⟩

/-- The map without the entries that fail a test. -/
def filter (p : κ → ν → Bool) (m : OrderedMap κ ν) : OrderedMap κ ν :=
  ⟨m.entries.filter fun e => p e.1 e.2, m.ordered.filter _⟩

/-- The map without a key. -/
def erase (m : OrderedMap κ ν) (k : κ) : OrderedMap κ ν :=
  m.filter fun a _ => compare k a != .eq

/-- The map with every value replaced. -/
def mapValues (f : κ → ν → μ) (m : OrderedMap κ ν) : OrderedMap κ μ :=
  ⟨m.entries.map fun e => (e.1, f e.1 e.2), List.pairwise_map.2 m.ordered⟩

/-- The map of a list of entries; a later one replaces an earlier one of the same key. -/
def ofList [Std.TransOrd κ] [Std.LawfulEqOrd κ] (es : List (κ × ν)) : OrderedMap κ ν :=
  es.foldl (fun m e => m.insert e.1 e.2) empty

end OrderedMap

end AuthCore
