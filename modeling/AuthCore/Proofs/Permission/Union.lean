import AuthCore.Account.SignIn
import AuthCore.Proofs.Action
import AuthCore.Proofs.Store.Groups

/-!
# What users may do is the union of what they are granted

A permission is granted to a user directly, or by an enabled group that the store keeps under one of
the names of the user's groups (`Permissions.Granted`). The map of what a user may do says of each
entity which rules are granted, and nothing else: neither the order of the lists and rows nor how
often something stands in them is seen in it.

A permission map is described by two questions, which entities it has and which rules it has of an
entity. Granting and merging are described by what they do to the answers.
-/

namespace AuthCore

/-! ### Permission maps -/

namespace PermissionMap

variable {m n : PermissionMap} {p : Permission} {ps qs : List Permission} {e r : String}

theorem allows_eq (m : PermissionMap) (s : Scope) :
    m.allows s = (m.rules s.entity).contains s.rule := by
  unfold allows rules
  cases m.get? s.entity <;> rfl

/-- Maps with the same entities and the same rules of each are the same. -/
theorem ext_rules (hkeys : ∀ e, m.contains e = true ↔ n.contains e = true)
    (hrules : ∀ e r, (m.rules e).contains r = true ↔ (n.rules e).contains r = true) : m = n := by
  refine OrderedMap.ext_get? fun e => ?_
  have hr : m.rules e = n.rules e := by
    refine RuleSet.ext_contains fun r => ?_
    exact Bool.eq_iff_iff.2 (hrules e r)
  have hk : (m.get? e).isSome = (n.get? e).isSome := Bool.eq_iff_iff.2 (hkeys e)
  unfold rules at hr
  cases hm : m.get? e <;> cases hn : n.get? e
  · rfl
  · rw [hm, hn] at hk
    cases hk
  · rw [hm, hn] at hk
    cases hk
  · rw [hm, hn] at hr
    exact congrArg some hr

theorem contains_grant :
    (m.grant p).contains e = true ↔ m.contains e = true ∨ p.entity = e := by
  rw [grant, OrderedMap.contains, OrderedMap.get?_insert]
  split
  next h => exact iff_of_true rfl (.inr h.symm)
  next h => exact (or_iff_left fun he => h he.symm).symm

theorem rules_grant : ((m.grant p).rules e).contains r = true ↔
    (m.rules e).contains r = true ∨ p.entity = e ∧ p.rules.contains r = true := by
  rw [rules, grant, OrderedMap.get?_insert]
  split
  next h =>
    rw [Option.getD_some, RuleSet.union, RuleSet.contains_insertAll, RuleSet.mem_toList, h]
    simp only [true_and, or_comm]
  next h => exact (or_iff_left fun hp => h hp.1.symm).symm

theorem contains_merge :
    (m.merge ps).contains e = true ↔ m.contains e = true ∨ ∃ p ∈ ps, p.entity = e := by
  induction ps generalizing m with
  | nil => simp [merge]
  | cons p ps ih =>
    rw [show m.merge (p :: ps) = (m.grant p).merge ps from rfl, ih, contains_grant, or_assoc]
    simp only [List.mem_cons, exists_eq_or_imp]

theorem rules_merge : ((m.merge ps).rules e).contains r = true ↔
    (m.rules e).contains r = true ∨ ∃ p ∈ ps, p.entity = e ∧ p.rules.contains r = true := by
  induction ps generalizing m with
  | nil => simp [merge]
  | cons p ps ih =>
    rw [show m.merge (p :: ps) = (m.grant p).merge ps from rfl, ih, rules_grant, or_assoc]
    simp only [List.mem_cons, exists_eq_or_imp]

/-- Merging looks at nothing but which permissions there are. -/
theorem merge_congr (h : ∀ p, p ∈ ps ↔ p ∈ qs) : m.merge ps = m.merge qs := by
  apply ext_rules
  · intro e
    simp only [contains_merge, h]
  · intro e r
    simp only [rules_merge, h]

theorem merge_append : m.merge (ps ++ qs) = (m.merge ps).merge qs := List.foldl_append

/-- Nothing is added by merging again. -/
theorem merge_merge_self : (m.merge ps).merge ps = m.merge ps := by
  rw [← merge_append]
  refine merge_congr fun p => ?_
  rw [List.mem_append, or_self_iff]

theorem merge_comm : (m.merge ps).merge qs = (m.merge qs).merge ps := by
  rw [← merge_append, ← merge_append]
  refine merge_congr fun p => ?_
  rw [List.mem_append, List.mem_append, or_comm]

end PermissionMap

/-! ### What a user is granted -/

namespace Permissions

variable {u u' : User} {m m' : Moment} {w w' : World} {gs gs' : List Group} {p : Permission}

/-- A permission is granted to a user, directly or by an enabled group of the store that is named
among the user's groups. -/
def Granted (s : Store) (u : User) (p : Permission) : Prop :=
  p ∈ u.permissions ∨
    ∃ name ∈ u.groups, ∃ g, s.KeepsGroup name g ∧ g.isEnable = true ∧ p ∈ g.permissions

/-- All permissions that a user has directly and from groups. -/
def grants (u : User) (gs : List Group) : List Permission :=
  u.permissions ++ (gs.filter (·.isEnable)).flatMap (·.permissions)

theorem granted_eq (u : User) (gs : List Group) :
    granted u gs = PermissionMap.merge .empty (grants u gs) := by
  rw [grants, PermissionMap.merge_append]
  exact List.foldl_flatMap.symm

theorem mem_grants : p ∈ grants u gs ↔
    p ∈ u.permissions ∨ ∃ g ∈ gs, g.isEnable = true ∧ p ∈ g.permissions := by
  simp only [grants, List.mem_append, List.mem_flatMap, List.mem_filter, and_assoc]

theorem mem_grants_of_findGroups {s : Store} (h : s.findGroups u.groups = .ok gs) :
    p ∈ grants u gs ↔ Granted s u p := by
  rw [mem_grants, Granted]
  refine or_congr_right ?_
  simp only [Store.mem_of_findGroups h]
  constructor
  · rintro ⟨g, ⟨name, hname, hg⟩, hon, hp⟩
    exact ⟨name, hname, g, hg, hon, hp⟩
  · rintro ⟨name, hname, g, hg, hon, hp⟩
    exact ⟨g, ⟨name, hname, hg⟩, hon, hp⟩

theorem perform_forM_log (events : String → Event) (names : List String) :
    ∃ log, (names.forM fun name => Action.log (events name)).perform m w =
      (.ok (), { w with log := log }) := by
  induction names generalizing w with
  | nil => exact ⟨w.log, rfl⟩
  | cons name names ih =>
    obtain ⟨log, h⟩ := ih (w := { w with log := w.log ++ [events name] })
    exact ⟨log, h⟩

/-- What a user may do is read off the groups that the store finds. -/
theorem perform_effective (u : User) (m : Moment) (w : World) :
    ((effective u).perform m w).1 = (w.store.findGroups u.groups).map (granted u) := by
  unfold effective
  by_cases hn : u.groups = []
  · rw [if_pos (List.isEmpty_iff.2 hn), hn]
    cases w.store <;> rfl
  · rw [if_neg (by simpa using hn), Action.perform_bind, Action.perform_query]
    cases w.store.findGroups u.groups with
    | error e => rfl
    | ok gs =>
      obtain ⟨log, hlog⟩ := perform_forM_log (m := m) (w := w) (.groupMissing u.id)
        (missing gs u.groups)
      show ((_ >>= _ : Action PermissionMap).perform m w).1 = _
      rw [Action.perform_bind_ok hlog]
      rfl

/-- A scope is allowed if its rule is among what the user may do. -/
theorem perform_check (u : User) (s : Scope) (m : Moment) (w : World) :
    ((check u (some s)).perform m w).1 = ((effective u).perform m w).1.bind fun map =>
      if (map.rules s.entity).contains s.rule then .ok ()
      else .error (.auth (.permissionDenied s.entity s.rule)) := by
  unfold check
  rw [Action.perform_bind]
  rcases (effective u).perform m w with ⟨e | map, v⟩
  · rfl
  · show (Action.perform (if map.allows s then _ else _) m v).1 =
      if (map.rules s.entity).contains s.rule then _ else _
    rw [PermissionMap.allows_eq]
    split
    · rfl
    · rfl

/-- The error of a check is a missing permission or a fault of the store, never a missing role. -/
theorem check_ne_accessDenied (u : User) (scope : Option Scope) (m : Moment) (w : World) :
    ((check u scope).perform m w).1 ≠ .error (.auth .accessDenied) := by
  cases scope with
  | none => exact nofun
  | some s =>
    rw [perform_check, perform_effective]
    rcases w.store.findGroups_cases u.groups with ⟨gs, hgs, -⟩ | ⟨e, he, -, -, db, -, hwhy⟩
    · rw [hgs]
      show (if _ then _ else _ : Answer Unit) ≠ _
      split
      · exact nofun
      · exact nofun
    · rw [he]
      rcases hwhy with ⟨-, rfl⟩ | ⟨-, rfl⟩
      · exact nofun
      · exact nofun

/-- What a user may do depends on which groups and permissions there are, and on nothing else. -/
theorem effective_congr (hp : ∀ p, p ∈ u'.permissions ↔ p ∈ u.permissions)
    (hg : ∀ name, name ∈ u'.groups ↔ name ∈ u.groups) (hs : w.store.SameGroups w'.store) :
    ((effective u').perform m' w').1 = ((effective u).perform m w).1 := by
  rw [perform_effective, perform_effective]
  rcases hs.findGroups_cases hg with ⟨gs, gs', hgs, hgs', hmem⟩ | ⟨e, he, he'⟩
  · rw [hgs, hgs']
    refine congrArg Except.ok ?_
    rw [granted_eq, granted_eq]
    refine PermissionMap.merge_congr fun p => ?_
    simp only [mem_grants, hp, hmem]
  · rw [he, he']
    rfl

end Permissions

/-- Staff are the administrators and the auditors. -/
theorem Role.isStaff_iff {r : Role} : r.isStaff = true ↔ r = .admin ∨ r = .audit := by
  cases r <;> simp [isStaff]

namespace Accounts

variable {u : User} {scope : Option Scope} {m : Moment} {w : World}

theorem perform_authorizeStaff (h : u.role.isStaff = true) :
    (authorizeStaff u scope).perform m w = (Permissions.check u scope).perform m w := by
  unfold authorizeStaff
  rw [h]
  rfl

theorem authorizeStaff_eq_accessDenied :
    ((authorizeStaff u scope).perform m w).1 = .error (.auth .accessDenied) ↔
      ¬ u.role.isStaff = true := by
  by_cases h : u.role.isStaff = true
  · rw [perform_authorizeStaff h]
    exact iff_of_false (Permissions.check_ne_accessDenied u scope m w) (not_not_intro h)
  · have hf : u.role.isStaff = false := Bool.eq_false_iff.2 h
    refine iff_of_true ?_ h
    unfold authorizeStaff
    rw [hf]
    rfl

end Accounts

/-! ### The union of the grants -/

/-- What a user may do is answered exactly if the groups can be read. It has an entity exactly if a
permission on it is granted to the user, and a rule of an entity exactly if one of these permissions
has the rule; the order and the repetition of groups, permissions and rows make no difference.
Merging looks at nothing but which permissions there are, adds nothing the second time, and can be
done in either order. A check answers whether the rule is there; the check of staff denies access
to everybody else and answers as the check otherwise. -/
theorem Permissions.effective_is_union (u : User) (m : Moment) (w : World) :
    ((∃ map, ((effective u).perform m w).1 = .ok map) ↔ w.store.ReadsGroups u.groups) ∧
    (∀ map, ((effective u).perform m w).1 = .ok map →
      (∀ e, map.contains e = true ↔ ∃ p, Granted w.store u p ∧ p.entity = e) ∧
      (∀ e r, (map.rules e).contains r = true ↔
        ∃ p, Granted w.store u p ∧ p.entity = e ∧ p.rules.contains r = true) ∧
      ∀ e r, ((check u (some ⟨e, r⟩)).perform m w).1 =
        if (map.rules e).contains r then .ok () else .error (.auth (.permissionDenied e r))) ∧
    (∀ err, ((effective u).perform m w).1 = .error err →
      ∀ s, ((check u (some s)).perform m w).1 = .error err) ∧
    (∀ u' m' w', (∀ p, p ∈ u'.permissions ↔ p ∈ u.permissions) →
      (∀ name, name ∈ u'.groups ↔ name ∈ u.groups) → w.store.SameGroups w'.store →
      ((effective u').perform m' w').1 = ((effective u).perform m w).1) ∧
    (∀ (map : PermissionMap) (ps qs : List Permission),
      ((∀ p, p ∈ ps ↔ p ∈ qs) → map.merge ps = map.merge qs) ∧
      (map.merge ps).merge ps = map.merge ps ∧
      (map.merge ps).merge qs = (map.merge qs).merge ps) ∧
    ∀ scope,
      (((Accounts.authorizeStaff u scope).perform m w).1 = .error (.auth .accessDenied) ↔
        ¬ (u.role = .admin ∨ u.role = .audit)) ∧
      (u.role = .admin ∨ u.role = .audit →
        (Accounts.authorizeStaff u scope).perform m w = (check u scope).perform m w) := by
  have heffective := perform_effective u m w
  refine ⟨?_, fun map hmap => ?_, fun err herr s => ?_, fun _ _ _ => effective_congr,
    fun map ps qs => ⟨PermissionMap.merge_congr, PermissionMap.merge_merge_self,
      PermissionMap.merge_comm⟩, fun scope => ⟨?_, fun h => ?_⟩⟩
  · rw [heffective, ← Store.exists_findGroups_iff]
    constructor
    · rintro ⟨map, hmap⟩
      obtain ⟨gs, hgs, -⟩ := Answer.map_eq_ok.1 hmap
      exact ⟨gs, hgs⟩
    · rintro ⟨gs, hgs⟩
      exact ⟨granted u gs, Answer.map_eq_ok.2 ⟨gs, hgs, rfl⟩⟩
  · obtain ⟨gs, hgs, rfl⟩ := Answer.map_eq_ok.1 (heffective.symm.trans hmap)
    refine ⟨fun e => ?_, fun e r => ?_, fun e r => ?_⟩
    · rw [granted_eq, PermissionMap.contains_merge]
      simp only [mem_grants_of_findGroups hgs]
      exact or_iff_right Bool.false_ne_true
    · rw [granted_eq, PermissionMap.rules_merge]
      simp only [mem_grants_of_findGroups hgs]
      exact or_iff_right Bool.false_ne_true
    · rw [perform_check, hmap]
      rfl
  · rw [perform_check, herr]
    rfl
  · rw [Accounts.authorizeStaff_eq_accessDenied, Role.isStaff_iff]
  · exact Accounts.perform_authorizeStaff (Role.isStaff_iff.2 h)

/-- An auditor who may read, who is twice in a group that may write, in one that is disabled and in
one that does not exist, is let write and nothing else. -/
theorem Permissions.effective_of_repeated_groups :
    let m : Moment := ⟨0, "", fun _ => "", [], fun _ => ""⟩
    let editors : Group := .enabled "editors" [⟨"docs", .ofList ["write"]⟩]
    let retired : Group := ⟨"retired", none, [⟨"docs", .ofList ["delete"]⟩], false⟩
    let rows := [GroupRow.ofGroup retired, GroupRow.ofGroup editors]
    let w := Action.worldOf (.memory (.new 1)) (.database { Database.empty with groups := some rows })
      .log
    let u : User := { (NewUser.customer (.email "a")).toUser 1 with
      role := .audit
      groups := ["editors", "ghosts", "retired", "editors"]
      permissions := [⟨"docs", .ofList ["read"]⟩, ⟨"docs", .ofList ["read"]⟩] }
    ((Accounts.authorizeStaff u (some ⟨"docs", "write"⟩)).perform m w).1 = .ok () ∧
    ((Accounts.authorizeStaff u (some ⟨"docs", "delete"⟩)).perform m w).1 =
      .error (.auth (.permissionDenied "docs" "delete")) := by
  intro m editors retired rows w u
  obtain ⟨hanswers, hmap, -, -, -, hstaff⟩ := effective_is_union u m w
  have hreads : w.store.ReadsGroups u.groups := by
    refine .inr ⟨rows, rfl, fun r hr _ => ?_⟩
    rcases List.mem_cons.1 hr with rfl | hr
    · exact ⟨retired, GroupRow.holds_ofGroup retired⟩
    · obtain rfl := List.mem_singleton.1 hr
      exact ⟨editors, GroupRow.holds_ofGroup editors⟩
  obtain ⟨map, hanswer⟩ := hanswers.2 hreads
  obtain ⟨-, hrules, hcheck⟩ := hmap map hanswer
  have hwrite : (map.rules "docs").contains "write" = true := by
    refine (hrules _ _).2 ⟨⟨"docs", .ofList ["write"]⟩, .inr ⟨"editors", ?_, editors, ?_⟩, rfl, ?_⟩
    · exact List.mem_cons_self
    · exact ⟨⟨rows, rfl, GroupRow.ofGroup editors, by simp [rows], rfl,
        GroupRow.holds_ofGroup editors⟩, rfl, List.mem_cons_self⟩
    · exact RuleSet.contains_ofList.2 List.mem_cons_self
  have hdelete : ¬ (map.rules "docs").contains "delete" = true := by
    intro h
    obtain ⟨p, hp | ⟨_, _, g, ⟨_, hrows, r, hr, rfl, hg⟩, hon, hp⟩, -, hd⟩ := (hrules _ _).1 h
    · have hread : p = ⟨"docs", .ofList ["read"]⟩ := by simpa [u] using hp
      rw [hread, RuleSet.contains_ofList] at hd
      exact absurd hd (by decide)
    · obtain rfl := Option.some.inj hrows
      rcases List.mem_cons.1 hr with rfl | hr
      · obtain rfl := Except.ok.inj ((GroupRow.holds_ofGroup retired).symm.trans hg)
        cases hon
      · obtain rfl := List.mem_singleton.1 hr
        obtain rfl := Except.ok.inj ((GroupRow.holds_ofGroup editors).symm.trans hg)
        obtain rfl := List.mem_singleton.1 hp
        rw [RuleSet.contains_ofList] at hd
        exact absurd hd (by decide)
  constructor
  · rw [(hstaff _).2 (.inr rfl), hcheck, if_pos hwrite]
  · rw [(hstaff _).2 (.inr rfl), hcheck, if_neg hdelete]

end AuthCore
