import AuthCore.Permission.Management
import AuthCore.Proofs.Action
import AuthCore.Proofs.Store.Groups
import AuthCore.Proofs.Store.Seed

/-!
# Groups stay within the rule catalog

A permission is within the catalog if the catalog has its entity, with all its rules. Groups are
written only with permissions that were checked, so as long as no entity loses a rule, whatever is
kept stays within the catalog: that is kept by each call that changes groups or the catalog, and
with it by a run of any number of them (`CatalogCall.Reaches`).

The check goes through the permissions in their order and stops at the first that is not within the
catalog. What it says of that permission is told by `Permission.Offends`.
-/

namespace AuthCore

/-! ### Checking permissions -/

theorem Answer.forM_eq_ok {α : Type} {f : α → Answer PUnit} {as : List α} :
    as.forM f = .ok ⟨⟩ ↔ ∀ a ∈ as, f a = .ok ⟨⟩ := by
  induction as with
  | nil => exact iff_of_true rfl nofun
  | cons a as ih =>
    show (f a >>= fun _ => as.forM f) = .ok ⟨⟩ ↔ _
    rw [List.forall_mem_cons, ← ih]
    cases f a with
    | error e => exact iff_of_false nofun nofun
    | ok u => exact (and_iff_right rfl).symm

/-- A loop fails at the first item that fails. -/
theorem Answer.forM_eq_error {α : Type} {f : α → Answer PUnit} {as : List α} {e : Error} :
    as.forM f = .error e ↔ ∃ before a since, as = before ++ a :: since ∧
      (∀ b ∈ before, f b = .ok ⟨⟩) ∧ f a = .error e := by
  have step (a : α) (as : List α) : (a :: as).forM f = f a >>= fun _ => as.forM f := rfl
  constructor
  · intro h
    induction as with
    | nil => cases h
    | cons a as ih =>
      rw [step] at h
      cases ha : f a with
      | error e' =>
        rw [ha] at h
        exact ⟨[], a, as, rfl, nofun, ha.trans h⟩
      | ok u =>
        rw [ha] at h
        obtain ⟨before, b, since, rfl, hbefore, hb⟩ := ih h
        exact ⟨a :: before, b, since, rfl, List.forall_mem_cons.2 ⟨ha, hbefore⟩, hb⟩
  · rintro ⟨before, a, since, rfl, hbefore, ha⟩
    induction before with
    | nil =>
      rw [List.nil_append, step, ha]
      rfl
    | cons b before ih =>
      obtain ⟨hb, hbefore⟩ := List.forall_mem_cons.1 hbefore
      rw [List.cons_append, step, hb]
      exact ih hbefore

namespace Store

variable {s : Store} {p : Permission} {e : AuthError}

/-- A permission is within the catalog: its entity is there, with all rules of the permission. -/
def Admits (s : Store) (p : Permission) : Prop :=
  ∃ entity, s.findEntity p.entity = .ok (some entity) ∧
    ∀ rule, p.rules.contains rule = true → entity.validRules.contains rule = true

/-- How a permission is not within the catalog: its entity is unknown, or some of its rules, listed
in ascending order, are not rules of the entity. -/
inductive Offends (s : Store) (p : Permission) : AuthError → Prop
  | unknownEntity : s.findEntity p.entity = .ok none → s.Offends p (.unknownEntity p.entity)
  | invalidRules {entity : EntityRules} {rules : List String} :
    s.findEntity p.entity = .ok (some entity) →
    (∀ rule, rule ∈ rules ↔
      p.rules.contains rule = true ∧ ¬ entity.validRules.contains rule = true) →
    rules.Pairwise (· < ·) → rules ≠ [] → s.Offends p (.invalidRules p.entity rules)

/-- The error is about the first permission of a list that is not within the catalog. -/
def FirstOffends (s : Store) (ps : List Permission) (e : AuthError) : Prop :=
  ∃ before p since, ps = before ++ p :: since ∧ (∀ q ∈ before, s.Admits q) ∧ s.Offends p e

/-- The answer to the check of one permission. -/
def verdict (s : Store) (p : Permission) : Answer PUnit :=
  match s.findEntity p.entity with
  | .error e => .error e
  | .ok none => .error (.auth (.unknownEntity p.entity))
  | .ok (some entity) =>
    if (Permissions.invalid entity p.rules).isEmpty then .ok ⟨⟩
    else .error (.auth (.invalidRules p.entity (Permissions.invalid entity p.rules)))

theorem mem_invalid {entity : EntityRules} {rules : RuleSet} {rule : String} :
    rule ∈ Permissions.invalid entity rules ↔
      rules.contains rule = true ∧ ¬ entity.validRules.contains rule = true := by
  rw [Permissions.invalid, List.mem_filter, RuleSet.mem_toList, Bool.not_eq_true',
    Bool.not_eq_true]

theorem pairwise_invalid (entity : EntityRules) (rules : RuleSet) :
    (Permissions.invalid entity rules).Pairwise (· < ·) := by
  refine List.Pairwise.filter _ ?_
  rw [RuleSet.toList, OrderedMap.keys, List.pairwise_map]
  exact rules.names.ordered.imp fun h => compareOfLessAndEq_eq_lt.1 h

theorem verdict_eq_ok : s.verdict p = .ok ⟨⟩ ↔ s.Admits p := by
  unfold verdict Admits
  cases s.findEntity p.entity with
  | error e => exact iff_of_false nofun fun ⟨_, h, _⟩ => nomatch h
  | ok found =>
    cases found with
    | none => exact iff_of_false nofun fun ⟨_, h, _⟩ => nomatch h
    | some entity =>
      have hempty : (Permissions.invalid entity p.rules).isEmpty = true ↔
          ∀ rule, p.rules.contains rule = true → entity.validRules.contains rule = true := by
        simp only [List.isEmpty_iff, List.eq_nil_iff_forall_not_mem, mem_invalid, not_and, not_not]
      by_cases h : (Permissions.invalid entity p.rules).isEmpty = true
      · simp only [h, if_true, true_iff]
        exact ⟨entity, rfl, hempty.1 h⟩
      · simp only [h, if_false, reduceCtorEq, false_iff]
        rintro ⟨_, ⟨⟩, hrules⟩
        exact h (hempty.2 hrules)

/-- The check of a permission says how it is not within the catalog. -/
theorem verdict_eq_error : s.verdict p = .error (.auth e) ↔ s.Offends p e := by
  constructor
  · intro h
    unfold verdict at h
    split at h
    next e' he' =>
      cases h
      exact absurd (s.fails_findEntity _ _ he') nofun
    next hnone =>
      cases h
      exact .unknownEntity hnone
    next entity hentity =>
      split at h
      next => cases h
      next hrules =>
        cases h
        exact .invalidRules hentity (fun _ => mem_invalid) (pairwise_invalid _ _)
          fun hnil => hrules (List.isEmpty_iff.2 hnil)
  · rintro (hnone | ⟨hentity, hmem, hsorted, hne⟩)
    · rw [verdict, hnone]
    · rename_i entity rules
      -- an ascending list is determined by what is in it
      have hrules : rules = Permissions.invalid entity p.rules :=
        hsorted.eq_of_mem_iff (pairwise_invalid _ _) fun rule => (hmem rule).trans mem_invalid.symm
      rw [hrules] at hne ⊢
      rw [verdict, hentity]
      show (if _ then _ else _) = _
      rw [if_neg (fun h => hne (List.isEmpty_iff.1 h))]

end Store

namespace Permissions

variable {m : Moment} {w : World} {ps : List Permission} {e : AuthError}

theorem perform_validateRules (p : Permission) (m : Moment) (w : World) :
    (validateRules p.entity p.rules).perform m w = (w.store.verdict p, w) := by
  unfold validateRules Store.verdict
  rw [Action.perform_bind, Action.perform_query]
  cases w.store.findEntity p.entity with
  | error e => rfl
  | ok found =>
    cases found with
    | none => rfl
    | some entity =>
      show (Action.require (invalid entity p.rules).isEmpty _).perform m w = _
      rw [Action.perform_require]

theorem perform_validate (ps : List Permission) (m : Moment) (w : World) :
    (validate ps).perform m w = (ps.forM w.store.verdict, w) := by
  induction ps with
  | nil => rfl
  | cons p ps ih =>
    have hvalidate : validate (p :: ps) =
        validateRules p.entity p.rules >>= fun _ => validate ps := rfl
    rw [hvalidate, Action.perform_bind, perform_validateRules]
    show _ = (w.store.verdict p >>= fun _ => ps.forM w.store.verdict, w)
    cases w.store.verdict p with
    | error e => rfl
    | ok u => exact ih

/-- The check of a list passes if all its permissions are within the catalog. -/
theorem validate_eq_ok : ((validate ps).perform m w).1 = .ok ⟨⟩ ↔ ∀ p ∈ ps, w.store.Admits p := by
  rw [perform_validate, Answer.forM_eq_ok]
  simp only [Store.verdict_eq_ok]

/-- The check of a list stops at its first permission that is not within the catalog. -/
theorem validate_eq_error :
    ((validate ps).perform m w).1 = .error (.auth e) ↔ w.store.FirstOffends ps e := by
  rw [perform_validate, Answer.forM_eq_error]
  simp only [Store.verdict_eq_ok, Store.verdict_eq_error, Store.FirstOffends]

end Permissions

/-! ### Stores within the catalog -/

/-- An error about a permission that is not within the catalog. -/
def AuthError.isOffence : AuthError → Bool
  | unknownEntity _ | invalidRules _ _ => true
  | _ => false

namespace Store

variable {s s' : Store} {p : Permission} {entity : EntityRules}

/-- The groups have names of their own, and each of their permissions is within the catalog. -/
structure WithinCatalog (s : Store) : Prop where
  distinct : s.DistinctGroups
  admitted : ∀ name g, s.KeepsGroup name g → ∀ p ∈ g.permissions, s.Admits p

theorem Offends.isOffence {e : AuthError} (h : s.Offends p e) : e.isOffence = true := by
  cases h <;> rfl

theorem Admits.congr (h : ∀ name, s'.findEntity name = s.findEntity name) (hp : s.Admits p) :
    s'.Admits p := by
  obtain ⟨entity, he, hrules⟩ := hp
  exact ⟨entity, (h _).trans he, hrules⟩

/-- An entity drops no rule that the catalog has of it. -/
def DropsNothing (s : Store) (entity : EntityRules) : Prop :=
  ∀ old, s.findEntity entity.codeName = .ok (some old) →
    ∀ rule, old.validRules.contains rule = true → entity.validRules.contains rule = true

/-- What is within the catalog stays within it as long as no rule is dropped. -/
theorem Admits.upsertEntity (hp : s.Admits p) (h : s.DropsNothing entity) :
    (s.upsertEntity entity).2.Admits p := by
  rcases s.findEntity_upsertEntity entity with hsame | hfind
  · rw [hsame]
    exact hp
  · obtain ⟨old, hold, hrules⟩ := hp
    by_cases hname : p.entity = entity.codeName
    · refine ⟨entity, (hfind _).trans (if_pos hname), fun rule hrule => ?_⟩
      exact h old (hname ▸ hold) rule (hrules rule hrule)
    · exact ⟨old, ((hfind _).trans (if_neg hname)).trans hold, hrules⟩

namespace WithinCatalog

theorem createGroup (hs : s.WithinCatalog) {g : Group} (hg : ∀ p ∈ g.permissions, s.Admits p) :
    (s.createGroup g).2.WithinCatalog := by
  refine ⟨hs.distinct.createGroup g, fun name h hk p hp => ?_⟩
  rcases keepsGroup_createGroup hk with hk | rfl
  · exact (hs.admitted name h hk p hp).congr (s.findEntity_createGroup g)
  · exact (hg p hp).congr (s.findEntity_createGroup h)

theorem updateGroup (hs : s.WithinCatalog) (name : String) {u : GroupUpdate}
    (hu : ∀ ps, u.permissions = some ps → ∀ p ∈ ps, s.Admits p) :
    (s.updateGroup name u).2.WithinCatalog := by
  refine ⟨hs.distinct.updateGroup name u, fun k h hk p hp => ?_⟩
  rcases keepsGroup_updateGroup hk with hps | ⟨k, g, hg, hps⟩
  · exact (hu _ hps p hp).congr (s.findEntity_updateGroup name u)
  · exact (hs.admitted k g hg p (hps ▸ hp)).congr (s.findEntity_updateGroup name u)

theorem deleteGroups (hs : s.WithinCatalog) (names : List String) :
    (s.deleteGroups names).2.WithinCatalog := by
  refine ⟨hs.distinct.deleteGroups names, fun k h hk p hp => ?_⟩
  exact (hs.admitted k h (keepsGroup_deleteGroups hk) p hp).congr (s.findEntity_deleteGroups names)

theorem upsertEntity (hs : s.WithinCatalog) (h : s.DropsNothing entity) :
    (s.upsertEntity entity).2.WithinCatalog := by
  refine ⟨hs.distinct.upsertEntity entity, fun k g hk p hp => ?_⟩
  exact (hs.admitted k g (keepsGroup_upsertEntity.1 hk) p hp).upsertEntity h

end WithinCatalog

end Store

/-! ### The calls -/

namespace Groups

variable {m : Moment} {w : World} {g : Group} {name : String} {u : GroupUpdate} {e : Error}

/-- A group is created after its permissions were checked. -/
theorem create_cases (g : Group) (m : Moment) (w : World) :
    (∃ e, ((Permissions.validate g.permissions).perform m w).1 = .error e ∧
      (create g).perform m w = (.error e, w)) ∨
    (∀ p ∈ g.permissions, w.store.Admits p) ∧
      ((create g).perform m w).1 = (w.store.createGroup g).1 ∧
      ((create g).perform m w).2.store = (w.store.createGroup g).2 := by
  have hw := Permissions.perform_validate g.permissions m w
  unfold create
  cases hv : g.permissions.forM w.store.verdict with
  | error e =>
    rw [hv] at hw
    exact .inl ⟨e, congrArg Prod.fst hw, Action.perform_bind_error hw _⟩
  | ok _ =>
    rw [hv] at hw
    refine .inr ⟨Permissions.validate_eq_ok.1 (congrArg Prod.fst hw), ?_⟩
    rw [Action.perform_bind_ok hw, Action.perform_bind, Action.perform_change]
    cases (w.store.createGroup g).1 <;> exact ⟨rfl, rfl⟩

/-- A group is updated after the permissions of the update, if it has any, were checked. -/
theorem update_cases (name : String) (u : GroupUpdate) (m : Moment) (w : World) :
    (∃ ps e, u.permissions = some ps ∧
      ((Permissions.validate ps).perform m w).1 = .error e ∧
      (update name u).perform m w = (.error e, w)) ∨
    (∀ ps, u.permissions = some ps → ∀ p ∈ ps, w.store.Admits p) ∧
      ((update name u).perform m w).1 = (w.store.updateGroup name u).1 ∧
      ((update name u).perform m w).2.store = (w.store.updateGroup name u).2 := by
  unfold update
  cases hu : u.permissions with
  | none =>
    refine .inr ⟨nofun, ?_⟩
    dsimp only
    rw [Action.perform_bind, Action.perform_change]
    cases (w.store.updateGroup name u).1 <;> exact ⟨rfl, rfl⟩
  | some ps =>
    have hw := Permissions.perform_validate ps m w
    cases hv : ps.forM w.store.verdict with
    | error e =>
      rw [hv] at hw
      exact .inl ⟨ps, e, rfl, congrArg Prod.fst hw, Action.perform_bind_error hw _⟩
    | ok _ =>
      rw [hv] at hw
      refine .inr ⟨?_, ?_⟩
      · rintro _ ⟨⟩
        exact Permissions.validate_eq_ok.1 (congrArg Prod.fst hw)
      · rw [Action.perform_bind_ok hw, Action.perform_bind, Action.perform_change]
        cases (w.store.updateGroup name u).1 <;> exact ⟨rfl, rfl⟩

/-- Deleting changes the store by taking groups away, if at all. -/
theorem store_delete (names : List String) (m : Moment) (w : World) :
    ((delete names).perform m w).2.store = w.store ∨
    ∃ free, ((delete names).perform m w).2.store = (w.store.deleteGroups free).2 := by
  unfold delete
  rw [Action.perform_bind, Action.perform_query]
  cases w.store.countUsers names with
  | error e => exact .inl rfl
  | ok counts =>
    refine .inr ⟨names.filter fun name => !inUse counts name, ?_⟩
    dsimp only
    rw [Action.perform_bind, Action.perform_change]
    cases (w.store.deleteGroups (names.filter fun name => !inUse counts name)).1 with
    | error e => rfl
    | ok deleted =>
      dsimp only
      rw [Action.perform_bind, Action.perform_log]
      dsimp only
      split <;> rfl

/-- A group that is not created leaves the store as it was. -/
theorem store_of_create_error (h : ((create g).perform m w).1 = .error e) :
    ((create g).perform m w).2.store = w.store := by
  rcases create_cases g m w with ⟨e', -, hx⟩ | ⟨-, hanswer, hstore⟩
  · rw [hx]
  · rw [hstore]
    exact (Store.createGroup_of_error (hanswer.symm.trans h)).1

/-- What is wrong with the permissions of a group is told by creating it. -/
theorem create_eq_offence {err : AuthError} (he : err.isOffence = true) :
    ((create g).perform m w).1 = .error (.auth err) ↔
      w.store.FirstOffends g.permissions err := by
  rw [← Permissions.validate_eq_error (m := m)]
  rcases create_cases g m w with ⟨e', hv, hx⟩ | ⟨hall, hanswer, -⟩
  · have hfst : ((create g).perform m w).1 = .error e' := congrArg Prod.fst hx
    rw [hfst, hv, Except.error.injEq, Except.error.injEq]
  · have hv : ((Permissions.validate g.permissions).perform m w).1 = .ok ⟨⟩ :=
      Permissions.validate_eq_ok.2 hall
    rw [hv]
    refine iff_of_false (fun h => ?_) nofun
    rcases (Store.createGroup_of_error (hanswer.symm.trans h)).2 with hnone | hexists
    · cases hnone
    · cases hexists
      cases he

/-- What is wrong with the permissions of an update is told by the update. -/
theorem update_eq_offence {err : AuthError} (he : err.isOffence = true) :
    ((update name u).perform m w).1 = .error (.auth err) ↔
      ∃ ps, u.permissions = some ps ∧ w.store.FirstOffends ps err := by
  simp only [← Permissions.validate_eq_error (m := m)]
  rcases update_cases name u m w with ⟨ps, e', hps, hv, hx⟩ | ⟨hall, hanswer, -⟩
  · have hfst : ((update name u).perform m w).1 = .error e' := congrArg Prod.fst hx
    rw [hfst, hps]
    constructor
    · intro h
      exact ⟨ps, rfl, hv.trans (congrArg Except.error (Except.error.inj h))⟩
    · rintro ⟨_, ⟨⟩, hv'⟩
      exact congrArg Except.error (Except.error.inj (hv.symm.trans hv'))
  · refine iff_of_false (fun h => ?_) ?_
    · rcases Store.updateGroup_of_error (hanswer.symm.trans h) with
        ⟨-, hnone | hmissing⟩ | ⟨hnone, -⟩
      · cases hnone
      · cases hmissing
        cases he
      · cases hnone
    · rintro ⟨ps, hps, hv⟩
      cases (Permissions.validate_eq_ok.2 (hall ps hps)).symm.trans hv

/-- An update that fails changes no group that can be read, and nothing at all if all can be
read. -/
theorem update_of_error (hs : w.store.DistinctGroups)
    (h : ((update name u).perform m w).1 = .error e) :
    (∀ k g, ((update name u).perform m w).2.store.KeepsGroup k g ↔ w.store.KeepsGroup k g) ∧
    (w.store.LegibleGroups → ((update name u).perform m w).2.store = w.store) := by
  rcases update_cases name u m w with ⟨ps, e', -, -, hx⟩ | ⟨-, hanswer, hstore⟩
  · rw [hx]
    exact ⟨fun _ _ => Iff.rfl, fun _ => rfl⟩
  · have he := hanswer.symm.trans h
    rw [hstore]
    exact ⟨fun k g => Store.keepsGroup_of_updateGroup_error hs he,
      fun hall => hall.updateGroup_error he⟩

end Groups

/-! ### Runs -/

/-- A call that changes the groups or the rule catalog. -/
inductive CatalogCall where
  | createGroup (g : Group)
  | updateGroup (name : String) (u : GroupUpdate)
  | deleteGroups (names : List String)
  | upsertEntity (entity : EntityRules)

namespace CatalogCall

/-- Makes a call. -/
def perform : CatalogCall → Action Unit
  | createGroup g => (fun _ => ()) <$> Groups.create g
  | updateGroup name u => (fun _ => ()) <$> Groups.update name u
  | deleteGroups names => (fun _ => ()) <$> Groups.delete names
  | upsertEntity entity => Action.change (·.upsertEntity entity)

/-- A call drops no rule of an entity that the catalog has. -/
def DropsNothing (s : Store) : CatalogCall → Prop
  | upsertEntity entity => s.DropsNothing entity
  | _ => True

/-- How a call changes the store, if it does. -/
inductive Changes (s : Store) : CatalogCall → Store → Prop
  | nothing {c : CatalogCall} : Changes s c s
  | created {g : Group} : (∀ p ∈ g.permissions, s.Admits p) →
    Changes s (.createGroup g) (s.createGroup g).2
  | updated {name : String} {u : GroupUpdate} :
    (∀ ps, u.permissions = some ps → ∀ p ∈ ps, s.Admits p) →
    Changes s (.updateGroup name u) (s.updateGroup name u).2
  | deleted {names : List String} (free : List String) :
    Changes s (.deleteGroups names) (s.deleteGroups free).2
  | upserted {entity : EntityRules} : Changes s (.upsertEntity entity) (s.upsertEntity entity).2

theorem changes (c : CatalogCall) (m : Moment) (w : World) :
    c.Changes w.store (Action.perform c.perform m w).2.store := by
  cases c with
  | createGroup g =>
    rw [perform, Action.perform_map]
    rcases Groups.create_cases g m w with ⟨e, -, hx⟩ | ⟨hall, -, hstore⟩
    · rw [hx]
      exact .nothing
    · rw [hstore]
      exact .created hall
  | updateGroup name u =>
    rw [perform, Action.perform_map]
    rcases Groups.update_cases name u m w with ⟨ps, e, -, -, hx⟩ | ⟨hall, -, hstore⟩
    · rw [hx]
      exact .nothing
    · rw [hstore]
      exact .updated hall
  | deleteGroups names =>
    rw [perform, Action.perform_map]
    rcases Groups.store_delete names m w with hsame | ⟨free, hstore⟩
    · rw [hsame]
      exact .nothing
    · rw [hstore]
      exact .deleted free
  | upsertEntity entity => exact .upserted

variable {c : CatalogCall} {s s' : Store}

theorem Changes.withinCatalog (h : c.Changes s s') (hs : s.WithinCatalog)
    (hc : c.DropsNothing s) : s'.WithinCatalog := by
  cases h with
  | nothing => exact hs
  | created hall => exact hs.createGroup hall
  | updated hall => exact hs.updateGroup _ hall
  | deleted free => exact hs.deleteGroups free
  | upserted => exact hs.upsertEntity hc

theorem Changes.legibleGroups (h : c.Changes s s') (hs : s.LegibleGroups) :
    s'.LegibleGroups := by
  cases h with
  | nothing => exact hs
  | created _ => exact hs.createGroup _
  | updated _ => exact hs.updateGroup _ _
  | deleted free => exact hs.deleteGroups free
  | upserted => exact hs.upsertEntity _

/-- A world comes about from another by calls that drop no rule. -/
inductive Reaches (w : World) : World → Prop
  | start : Reaches w w
  | call {v : World} (m : Moment) (c : CatalogCall) :
    Reaches w v → c.DropsNothing v.store → Reaches w (Action.perform c.perform m v).2

namespace Reaches

variable {w v : World}

theorem withinCatalog (h : Reaches w v) (hs : w.store.WithinCatalog) : v.store.WithinCatalog := by
  induction h with
  | start => exact hs
  | call m c _ hc ih => exact (c.changes m _).withinCatalog ih hc

theorem legibleGroups (h : Reaches w v) (hs : w.store.LegibleGroups) : v.store.LegibleGroups := by
  induction h with
  | start => exact hs
  | call m c _ _ ih => exact (c.changes m _).legibleGroups ih

end Reaches

end CatalogCall

/-! ### The default contents -/

namespace Seed

variable {e : String × List String} {ps : List (String × List String)}

/-- Some rules are rules of their entity in the default catalog. -/
def covers (e : String × List String) : Bool :=
  (catalog.find? fun c => c.1 == e.1).any fun c => e.2.all c.2.contains

/-- What the default groups may do. -/
def granted : List (List (String × List String)) :=
  [catalog, catalog.map adminRules, customerRules, catalog.map fun e => (e.1, readOnlyRules)]

theorem covers_granted : ∀ ps ∈ granted, ∀ e ∈ ps, covers e = true := by decide +kernel

theorem list?_permissions (ps : List (String × List String)) :
    Permission.list? (.array (ps.map permission)) = some (ps.map fun e => ⟨e.1, .ofList e.2⟩) := by
  refine Json.list?_map fun e _ => ?_
  have hrules : RuleSet.ofJson? (.strings e.2) = some (.ofList e.2) := by
    rw [RuleSet.ofJson?, Json.list?_strings, Option.map_some]
  show ((RuleSet.ofJson? (.strings e.2)).bind fun rules => some (⟨e.1, rules⟩ : Permission)) = _
  rw [hrules]
  rfl

theorem permissions_groupRow {name description : String} {g : Group}
    (h : (groupRow name description ps).Holds g) :
    g.permissions = ps.map fun e => ⟨e.1, .ofList e.2⟩ :=
  Option.some.inj ((GroupRow.toGroup_eq_ok.1 h).1.symm.trans (list?_permissions ps))

theorem admits_of_covers {db : Database} (hdb : db.entities = some entityRows)
    (h : covers e = true) : (Store.database db).Admits ⟨e.1, .ofList e.2⟩ := by
  obtain ⟨c, hc, hall⟩ := (Option.any_eq_true _ _).1 h
  have hrow : entityRows.find? (fun r => r.codeName == e.1) = some ⟨c.1, .strings c.2⟩ := by
    rw [entityRows, List.find?_map]
    exact congrArg (Option.map _) hc
  refine ⟨⟨c.1, .ofList c.2⟩, ?_, fun rule hrule => ?_⟩
  · have hread : EntityRow.toRules ⟨c.1, .strings c.2⟩ = .ok ⟨c.1, .ofList c.2⟩ := by
      rw [EntityRow.toRules, readColumn, RuleSet.ofJson?, Json.list?_strings]
      rfl
    simp only [Store.findEntity, Database.findEntity, hdb, Database.need, orFault, bind,
      Except.bind, hrow, hread]
    rfl
  · have hmem := List.all_eq_true.1 hall rule (RuleSet.contains_ofList.1 hrule)
    exact RuleSet.contains_ofList.2 (List.contains_iff_mem.1 hmem)

theorem exists_groupRow {r : GroupRow} (h : r ∈ groupRows) :
    ∃ name description, ∃ ps ∈ granted, r = groupRow name description ps := by
  simp only [groupRows, List.mem_cons, List.not_mem_nil, or_false] at h
  rcases h with rfl | rfl | rfl | rfl <;> exact ⟨_, _, _, by simp [granted], rfl⟩

/-- The default groups are within the default catalog. -/
theorem withinCatalog {db : Database} (hg : db.groups = some groupRows)
    (he : db.entities = some entityRows) : (Store.database db).WithinCatalog := by
  constructor
  · intro rows hrows
    obtain rfl := Option.some.inj (hg.symm.trans hrows)
    exact nodup_groupNames
  · rintro name g ⟨rows, hrows, r, hr, -, hh⟩ p hp
    obtain rfl := Option.some.inj (hg.symm.trans hrows)
    obtain ⟨name, description, ps, hps, rfl⟩ := exists_groupRow hr
    rw [permissions_groupRow hh] at hp
    obtain ⟨e, hmem, rfl⟩ := List.mem_map.1 hp
    exact admits_of_covers he (covers_granted ps hps e hmem)

/-- The default groups can be read. -/
theorem legibleGroups {db : Database} (hg : db.groups = some groupRows) :
    (Store.database db).LegibleGroups := by
  intro rows hrows r hr
  obtain rfl := Option.some.inj (hg.symm.trans hrows)
  obtain ⟨name, description, ps, -, rfl⟩ := exists_groupRow hr
  exact ⟨⟨name, some description, _, true⟩, GroupRow.toGroup_eq_ok.2 ⟨list?_permissions ps, rfl⟩⟩

end Seed

/-! ### The catalog holds for every run -/

/-- In every world that comes about from groups within the catalog by calls that drop no rule, the
groups are within the catalog, and they can all be read if they could before; a database that was
just migrated is such a start. A group that is not created leaves the store as it was, and an update
that fails leaves every group as it was. Whether permissions are refused, and for what, is decided
by the first of them that is not within the catalog. -/
theorem Groups.stay_within_catalog {w v : World} (hw : w.store.WithinCatalog)
    (h : CatalogCall.Reaches w v) :
    v.store.WithinCatalog ∧
    (w.store.LegibleGroups → v.store.LegibleGroups) ∧
    ((Store.database (Database.empty.migrateUp none).2).WithinCatalog ∧
      (Store.database (Database.empty.migrateUp none).2).LegibleGroups) ∧
    (∀ g m, (∀ e, ((create g).perform m v).1 = .error e →
        ((create g).perform m v).2.store = v.store) ∧
      ∀ err : AuthError, err.isOffence = true →
        (((create g).perform m v).1 = .error (.auth err) ↔
          v.store.FirstOffends g.permissions err)) ∧
    ∀ name u m, (∀ e, ((update name u).perform m v).1 = .error e →
        (∀ k g, ((update name u).perform m v).2.store.KeepsGroup k g ↔ v.store.KeepsGroup k g) ∧
        (v.store.LegibleGroups → ((update name u).perform m v).2.store = v.store)) ∧
      ∀ err : AuthError, err.isOffence = true →
        (((update name u).perform m v).1 = .error (.auth err) ↔
          ∃ ps, u.permissions = some ps ∧ v.store.FirstOffends ps err) := by
  have hv := h.withinCatalog hw
  refine ⟨hv, h.legibleGroups, ⟨Seed.withinCatalog rfl rfl, Seed.legibleGroups rfl⟩,
    fun g m => ⟨?_, ?_⟩, fun name u m => ⟨?_, ?_⟩⟩
  · exact fun e he => store_of_create_error he
  · exact fun err herr => create_eq_offence herr
  · exact fun e he => update_of_error hv.distinct he
  · exact fun err herr => update_eq_offence herr

/-- An entity is put into the catalog of a migrated database. A group may then read it; one that may
also write and burn it is refused for these two rules, whatever else is wrong with it. -/
theorem Groups.stay_within_catalog_migrated :
    let m : Moment := ⟨0, "", fun _ => "", [], fun _ => ""⟩
    let w := Action.worldOf (.memory (.new 1)) (.database (Database.empty.migrateUp none).2) .log
    let call : CatalogCall := .upsertEntity ⟨"docs", .ofList ["read"]⟩
    let v := (Action.perform call.perform m w).2
    let g : Group := .enabled "readers" [⟨"docs", .ofList ["read"]⟩,
      ⟨"docs", .ofList ["write", "read", "burn"]⟩, ⟨"ghosts", .ofList ["read"]⟩]
    w.store.WithinCatalog ∧ CatalogCall.Reaches w v ∧ v.store.WithinCatalog ∧
      ((create g).perform m v).1 = .error (.auth (.invalidRules "docs" ["burn", "write"])) := by
  intro m w call v g
  have hw : w.store.WithinCatalog := Seed.withinCatalog rfl rfl
  have hnew : w.store.findEntity "docs" = .ok none := rfl
  have hreaches : CatalogCall.Reaches w v := by
    refine .call m call .start fun old hold => ?_
    cases hnew.symm.trans hold
  have hdocs : v.store.findEntity "docs" = .ok (some ⟨"docs", .ofList ["read"]⟩) := rfl
  obtain ⟨hv, -, -, hcreate, -⟩ := stay_within_catalog hw hreaches
  refine ⟨hw, hreaches, hv, ((hcreate g m).2 _ rfl).2 ?_⟩
  refine ⟨[⟨"docs", .ofList ["read"]⟩], ⟨"docs", .ofList ["write", "read", "burn"]⟩,
    [⟨"ghosts", .ofList ["read"]⟩], rfl, ?_, ?_⟩
  · intro q hq
    obtain rfl := List.mem_singleton.1 hq
    exact ⟨_, hdocs, fun _ hrule => hrule⟩
  · refine .invalidRules hdocs (fun rule => ?_) (by decide) (by decide)
    simp only [RuleSet.contains_ofList, List.mem_cons, List.not_mem_nil, or_false]
    constructor
    · rintro (rfl | rfl) <;> decide
    · tauto

end AuthCore
