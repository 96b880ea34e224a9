import FastapiTemplate.AdminSessions
import FastapiTemplate.KeysetPages

/-!
# The admin form of a role

The form shows the names of the permissions of a role. `create` and `edit` look the submitted names
up in a page of the permissions table: the newest twenty permissions. A name that is not on this
page is dropped without an error.
-/

namespace FastapiTemplate

/-! ## The view -/

/-- `RoleDAO.get_all_permissions` without a cursor, over the table of the permissions. -/
def RoleDAO.getAllPermissions (permissions : List PermissionData) (limit : ℕ) :
    List PermissionData :=
  (Keyset.sortDescending PermissionData.id permissions).take limit

structure RoleForm where
  name : Option String
  description : Option String
  permissions : Option (List String)
  deriving DecidableEq, Repr

namespace RoleAdminView

def toAdminObject (role : RoleData) : RoleForm :=
  ⟨some role.name, role.description, some (role.permissions.map (·.name))⟩

/-- `{p.name: p.id for p in all_perms}`: of two permissions with one name the later one counts. -/
def permMap (allPerms : List PermissionData) (name : String) : Option PermissionId :=
  (allPerms.reverse.find? (·.name = name)).map (·.id)

/-- `[perm_map[name] for name in permission_names if name in perm_map]`; the default limit is 20. -/
def permissionIds (permissions : List PermissionData) (permissionNames : List String) :
    List PermissionId :=
  permissionNames.filterMap (permMap (RoleDAO.getAllPermissions permissions 20))

def create (permissions : List PermissionData) (data : RoleForm) : App RoleForm :=
  match data.name with
  | none => App.raise (.key "name")
  | some name => do
    let role ← RoleDAO.createRole
      ⟨name, data.description, permissionIds permissions (data.permissions.getD [])⟩
    pure (toAdminObject role)

def edit (permissions : List PermissionData) (pk : RoleId) (data : RoleForm) : App RoleForm := do
  let role ← RoleDAO.updateRole pk
    ⟨data.name, data.description, data.permissions.map (permissionIds permissions)⟩
  match role with
  | none => App.raise (.value s!"Role with ID {pk} not found")
  | some role => pure (toAdminObject role)

end RoleAdminView

/-! ## The constraints of the tables -/

/-- The keys of `roles`, `permissions` and `role_permissions`; the next id is new. -/
structure RoleConstraints (s : State) : Prop where
  rolesPkey : (s.db.roles.map (·.id)).Nodup
  rolesNameKey : (s.db.roles.map (·.name)).Nodup
  rolesName : ∀ r ∈ s.db.roles, r.name.length ≤ 50
  permissionsPkey : (s.db.permissions.map (·.id)).Nodup
  permissionsNameKey : (s.db.permissions.map (·.name)).Nodup
  roleIdFkey : ∀ x ∈ s.db.rolePermissions, ∃ r ∈ s.db.roles, r.id = x.1
  permissionIdFkey : ∀ x ∈ s.db.rolePermissions, ∃ p ∈ s.db.permissions, p.id = x.2
  fresh : ∀ r ∈ s.db.roles, r.id ≠ s.nextId

def Database.Named (db : Database) (names : List String) (id : PermissionId) : Prop :=
  ∃ p ∈ db.permissions, p.id = id ∧ p.name ∈ names

/-- Fewer than twenty permissions have a larger id. -/
def Database.AmongNewest (db : Database) (p : PermissionData) : Prop :=
  db.permissions.countP (p.id < ·.id) < 20

def Database.knows (db : Database) (name : String) : Bool := db.permissions.any (·.name = name)

/-- The submitted names of permissions are those of the newest ones, and each is submitted once. -/
structure Database.NamesReach (db : Database) (names : List String) : Prop where
  newest : ∀ p ∈ db.permissions, p.name ∈ names → db.AmongNewest p
  once : (names.filter db.knows).Nodup

/-! ## The page of the permissions -/

section page
variable {permissions : List PermissionData}

theorem mem_take_descending {rows : List PermissionData}
    (h : Keyset.Descending PermissionData.id rows) {p : PermissionData} (hp : p ∈ rows)
    (limit : ℕ) : p ∈ rows.take limit ↔ rows.countP (p.id < ·.id) < limit := by
  obtain ⟨before, after, rfl⟩ := List.append_of_mem hp
  obtain ⟨-, hafter, hbefore⟩ := List.pairwise_append.mp h
  have hcount : (before ++ p :: after).countP (p.id < ·.id) = before.length := by
    have hall : before.countP (p.id < ·.id) = before.length :=
      List.countP_eq_length.mpr (fun q hq => decide_eq_true (hbefore q hq p List.mem_cons_self))
    have hnone : (p :: after).countP (p.id < ·.id) = 0 := by
      refine List.countP_eq_zero.mpr (fun q hq => ?_)
      rcases List.mem_cons.mp hq with rfl | hq
      · simp
      · have hless := (List.pairwise_cons.mp hafter).1 q hq
        simpa using hless.le
    rw [List.countP_append, hall, hnone, Nat.add_zero]
  rw [hcount]
  by_cases hlimit : before.length < limit
  · obtain ⟨k, rfl⟩ := Nat.exists_eq_add_of_lt hlimit
    have htake : (before ++ p :: after).take (before.length + k + 1) =
        before ++ p :: after.take k := by
      rw [Nat.add_assoc, List.take_length_add_append, List.take_succ_cons]
    rw [htake]
    exact iff_of_true (by simp) hlimit
  · rw [List.take_append_of_le_length (by omega)]
    refine iff_of_false (fun hmem => ?_) hlimit
    exact absurd (hbefore p (List.mem_of_mem_take hmem) p List.mem_cons_self) (lt_irrefl _)

theorem mem_getAllPermissions (hids : (permissions.map (·.id)).Nodup) {p : PermissionData}
    {limit : ℕ} : p ∈ RoleDAO.getAllPermissions permissions limit ↔
      p ∈ permissions ∧ permissions.countP (p.id < ·.id) < limit := by
  have hperm : (Keyset.sortDescending PermissionData.id permissions).Perm permissions :=
    Keyset.sortDescending_perm permissions
  have hdescending := Keyset.sortDescending_descending hids
  constructor
  · intro hp
    have hmem : p ∈ permissions := hperm.mem_iff.mp (List.mem_of_mem_take hp)
    rw [← hperm.countP_eq]
    exact ⟨hmem, (mem_take_descending hdescending (hperm.mem_iff.mpr hmem) limit).mp hp⟩
  · rintro ⟨hmem, hcount⟩
    rw [← hperm.countP_eq] at hcount
    exact (mem_take_descending hdescending (hperm.mem_iff.mpr hmem) limit).mpr hcount

theorem eq_of_id (hids : (permissions.map (·.id)).Nodup) {p q : PermissionData}
    (hp : p ∈ permissions) (hq : q ∈ permissions) (hid : p.id = q.id) : p = q :=
  List.inj_on_of_nodup_map hids hp hq hid

theorem permMap_eq_some {allPerms : List PermissionData}
    (hnames : ∀ p ∈ allPerms, ∀ q ∈ allPerms, p.name = q.name → p = q) {name : String}
    {id : PermissionId} : RoleAdminView.permMap allPerms name = some id ↔
      ∃ p ∈ allPerms, p.name = name ∧ p.id = id := by
  unfold RoleAdminView.permMap
  rw [Option.map_eq_some_iff]
  constructor
  · rintro ⟨p, hfound, rfl⟩
    have hname : p.name = name := by simpa using List.find?_some hfound
    exact ⟨p, List.mem_reverse.mp (List.mem_of_find?_eq_some hfound), hname, rfl⟩
  · rintro ⟨p, hp, rfl, rfl⟩
    cases hfound : allPerms.reverse.find? (·.name = p.name) with
    | none =>
      have hnone := List.find?_eq_none.mp hfound p (List.mem_reverse.mpr hp)
      simp at hnone
    | some q =>
      have hname : q.name = p.name := by simpa using List.find?_some hfound
      have hq := List.mem_reverse.mp (List.mem_of_find?_eq_some hfound)
      exact ⟨q, rfl, by rw [hnames q hq p hp hname]⟩

end page

/-! ## The submitted names -/

section names
variable {s : State} {names : List String}

abbrev idsOf (s : State) (names : List String) : List PermissionId :=
  RoleAdminView.permissionIds s.db.permissions names

theorem permMap_listed (hs : RoleConstraints s) {name : String} {id : PermissionId} :
    RoleAdminView.permMap (RoleDAO.getAllPermissions s.db.permissions 20) name = some id ↔
      ∃ p ∈ s.db.permissions, s.db.AmongNewest p ∧ p.name = name ∧ p.id = id := by
  have hnames : ∀ p ∈ RoleDAO.getAllPermissions s.db.permissions 20,
      ∀ q ∈ RoleDAO.getAllPermissions s.db.permissions 20, p.name = q.name → p = q := by
    intro p hp q hq hname
    have hp' := ((mem_getAllPermissions hs.permissionsPkey).mp hp).1
    have hq' := ((mem_getAllPermissions hs.permissionsPkey).mp hq).1
    exact List.inj_on_of_nodup_map hs.permissionsNameKey hp' hq' hname
  rw [permMap_eq_some hnames]
  constructor
  · rintro ⟨p, hp, hname, hid⟩
    obtain ⟨hmem, hnewest⟩ := (mem_getAllPermissions hs.permissionsPkey).mp hp
    exact ⟨p, hmem, hnewest, hname, hid⟩
  · rintro ⟨p, hmem, hnewest, hname, hid⟩
    exact ⟨p, (mem_getAllPermissions hs.permissionsPkey).mpr ⟨hmem, hnewest⟩, hname, hid⟩

theorem mem_idsOf (hs : RoleConstraints s) {id : PermissionId} : id ∈ idsOf s names ↔
    ∃ p ∈ s.db.permissions, s.db.AmongNewest p ∧ p.name ∈ names ∧ p.id = id := by
  unfold idsOf RoleAdminView.permissionIds
  rw [List.mem_filterMap]
  constructor
  · rintro ⟨name, hname, hfound⟩
    obtain ⟨p, hp, hnewest, rfl, hid⟩ := (permMap_listed hs).mp hfound
    exact ⟨p, hp, hnewest, hname, hid⟩
  · rintro ⟨p, hp, hnewest, hname, hid⟩
    exact ⟨p.name, hname, (permMap_listed hs).mpr ⟨p, hp, hnewest, rfl, hid⟩⟩

/-- The ids are exactly those of the names when no name is of an older permission. -/
theorem newest_iff (hs : RoleConstraints s) : (∀ id, id ∈ idsOf s names ↔ s.db.Named names id) ↔
    ∀ p ∈ s.db.permissions, p.name ∈ names → s.db.AmongNewest p := by
  constructor
  · intro h p hp hname
    obtain ⟨q, hq, hnewest, -, hid⟩ := (mem_idsOf hs).mp ((h p.id).mpr ⟨p, hp, rfl, hname⟩)
    rwa [eq_of_id hs.permissionsPkey hp hq hid.symm]
  · intro h id
    rw [mem_idsOf hs]
    constructor
    · rintro ⟨p, hp, -, hname, hid⟩
      exact ⟨p, hp, hid, hname⟩
    · rintro ⟨p, hp, hid, hname⟩
      exact ⟨p, hp, h p hp hname, hname, hid⟩

/-- The ids repeat where a name does. -/
theorem nodup_idsOf (hs : RoleConstraints s)
    (hnewest : ∀ p ∈ s.db.permissions, p.name ∈ names → s.db.AmongNewest p) :
    (idsOf s names).Nodup ↔ (names.filter s.db.knows).Nodup := by
  induction names with
  | nil => exact iff_of_true List.nodup_nil List.nodup_nil
  | cons name rest ih =>
    have hrest := ih (fun p hp hname => hnewest p hp (List.mem_cons_of_mem name hname))
    by_cases hknown : ∃ p ∈ s.db.permissions, p.name = name
    · obtain ⟨p, hp, rfl⟩ := hknown
      have hmap : RoleAdminView.permMap (RoleDAO.getAllPermissions s.db.permissions 20) p.name =
          some p.id := (permMap_listed hs).mpr ⟨p, hp, hnewest p hp List.mem_cons_self, rfl, rfl⟩
      have hids : idsOf s (p.name :: rest) = p.id :: idsOf s rest :=
        List.filterMap_cons_some hmap
      have hknows : ∀ q ∈ s.db.permissions, s.db.knows q.name = true := fun q hq =>
        List.any_eq_true.mpr ⟨q, hq, decide_eq_true rfl⟩
      have hsame : p.id ∈ idsOf s rest ↔ p.name ∈ rest.filter s.db.knows := by
        rw [mem_idsOf hs, List.mem_filter]
        constructor
        · rintro ⟨q, hq, -, hname, hid⟩
          rw [← eq_of_id hs.permissionsPkey hq hp hid]
          exact ⟨hname, hknows q hq⟩
        · rintro ⟨hname, -⟩
          exact ⟨p, hp, hnewest p hp List.mem_cons_self, hname, rfl⟩
      rw [hids, List.nodup_cons, List.filter_cons_of_pos (hknows p hp), List.nodup_cons, hsame, hrest]
    · have hmap : RoleAdminView.permMap (RoleDAO.getAllPermissions s.db.permissions 20) name =
          none := by
        rw [Option.eq_none_iff_forall_ne_some]
        intro id hid
        obtain ⟨p, hp, -, hname, -⟩ := (permMap_listed hs).mp hid
        exact hknown ⟨p, hp, hname⟩
      have hids : idsOf s (name :: rest) = idsOf s rest := List.filterMap_cons_none hmap
      have hunknown : ¬ s.db.knows name = true := by
        simpa [Database.knows] using hknown
      rw [hids, List.filter_cons_of_neg hunknown, hrest]

theorem namesReach_iff (hs : RoleConstraints s) : s.db.NamesReach names ↔
    (idsOf s names).Nodup ∧ ∀ id, id ∈ idsOf s names ↔ s.db.Named names id := by
  constructor
  · intro h
    exact ⟨(nodup_idsOf hs h.newest).mpr h.once, (newest_iff hs).mpr h.newest⟩
  · rintro ⟨hnodup, hnamed⟩
    have hnewest := (newest_iff hs).mp hnamed
    exact ⟨hnewest, (nodup_idsOf hs hnewest).mp hnodup⟩

end names

/-! ## The executions -/

section executions
variable {s : State} {role : RoleId}

def Database.HoldsExactly (db : Database) (role : RoleId) (ids : List PermissionId) : Prop :=
  ∀ id, (role, id) ∈ db.rolePermissions ↔ id ∈ ids

/-- The insertion of ids of permissions for a role that has none fails exactly if one repeats. -/
theorem exec_insertPermissions (hrole : ∃ r ∈ s.db.roles, r.id = role)
    (hnone : ∀ x ∈ s.db.rolePermissions, x.1 ≠ role) {ids : List PermissionId}
    (hids : ∀ id ∈ ids, ∃ p ∈ s.db.permissions, p.id = id) :
    (¬ ids.Nodup ∧ ∃ e, (RoleDAO.insertPermissions role ids).exec s = (.error e, s)) ∨
      (ids.Nodup ∧ ∃ t, (RoleDAO.insertPermissions role ids).exec s = (.ok (), t) ∧
        t.db.roles = s.db.roles ∧ t.db.HoldsExactly role ids) := by
  unfold RoleDAO.insertPermissions
  by_cases hempty : ids = []
  · subst hempty
    rw [if_pos rfl]
    refine .inr ⟨List.nodup_nil, s, rfl, rfl, fun id => ?_⟩
    exact iff_of_false (fun hmem => hnone _ hmem rfl) List.not_mem_nil
  · rw [if_neg hempty, exec_ask_bind]
    have hexists : ¬ s.db.roles.all (·.id ≠ role) = true := by simpa using hrole
    have hknown : ¬ ids.any (fun id => s.db.permissions.all (·.id ≠ id)) = true := by
      simpa using hids
    by_cases hnodup : ids.Nodup
    · right
      have hfresh : ¬ (¬ ids.Nodup ∨ ids.any (fun id => (role, id) ∈ s.db.rolePermissions) = true) := by
        rintro (hrepeats | hheld)
        · exact hrepeats hnodup
        · obtain ⟨id, -, hheld⟩ := List.any_eq_true.mp hheld
          exact hnone _ (of_decide_eq_true hheld) rfl
      have hinsert : s.db.insertRolePermissions role ids = (.ok (), { s.db with
          rolePermissions := s.db.rolePermissions ++ ids.map (fun id => (role, id)) }) := by
        rw [Database.insertRolePermissions, if_neg hexists, if_neg hknown, if_neg hfresh]
      refine ⟨hnodup, s.setDb (s.db.insertRolePermissions role ids).2, ?_, ?_, ?_⟩
      · simp only [handler, hinsert]
        rfl
      · rw [hinsert]
        rfl
      · intro id
        rw [hinsert]
        simp only [State.setDb_db, List.mem_append, List.mem_map, Prod.mk.injEq, true_and,
          exists_eq_right]
        exact ⟨fun hmem => hmem.resolve_left (fun hold => hnone _ hold rfl), .inr⟩
    · left
      have hinsert : s.db.insertRolePermissions role ids =
          (.error (.uniqueViolation "role_permissions_pkey"), s.db) := by
        rw [Database.insertRolePermissions, if_neg hexists, if_neg hknown, if_pos (.inl hnodup)]
      refine ⟨hnodup, .db (.uniqueViolation "role_permissions_pkey"), ?_⟩
      simp only [handler, hinsert]
      rfl

/-- The fields are written, and nothing else changes. -/
theorem exec_updateFields {upd : RoleUpdate} (hrole : ∃ r ∈ s.db.roles, r.id = role)
    (hfields : (s.db.updateRoleFields role upd.name upd.description).1 = .ok ()) :
    ∃ t, (RoleDAO.updateFields role upd).exec s = (.ok (), t) ∧
      (∃ r ∈ t.db.roles, r.id = role) ∧ t.db.permissions = s.db.permissions := by
  unfold RoleDAO.updateFields
  split_ifs
  · exact ⟨s, rfl, hrole, rfl⟩
  · refine ⟨s.setDb (s.db.updateRoleFields role upd.name upd.description).2, ?_, ?_, ?_⟩
    · rw [exec_ask_bind]
      simp only [handler, hfields]
      rfl
    · rcases s.db.updateRoleFields_cases role upd.name upd.description with hsame | ⟨f, hid, heq⟩
      · rw [State.setDb_db, hsame]
        exact hrole
      · obtain ⟨r, hr, hrid⟩ := hrole
        rw [heq]
        exact ⟨f r, List.mem_map_of_mem hr, (hid r).trans hrid⟩
    · rcases s.db.updateRoleFields_cases role upd.name upd.description with hsame | ⟨f, -, heq⟩
      · rw [State.setDb_db, hsame]
      · rw [heq]
        rfl

theorem exec_getRoleById (hrole : ∃ r ∈ s.db.roles, r.id = role) :
    ∃ data, (RoleDAO.getRoleById role).exec s = (.ok (some data), s) := by
  obtain ⟨r, hr, hid⟩ := hrole
  cases hfound : s.db.roles.find? (·.id = role) with
  | none =>
    have hnone := List.find?_eq_none.mp hfound r hr
    simp [hid] at hnone
  | some found =>
    refine ⟨s.db.roleData found, ?_⟩
    have hselect : s.db.selectRole role = some (s.db.roleData found) := by
      rw [Database.selectRole, hfound]
      rfl
    have hexec : (RoleDAO.getRoleById role).exec s = (.ok (s.db.selectRole role), s) := rfl
    rw [hexec, hselect]

/-- The role gets the ids unless one of them repeats. -/
theorem exec_updateRole {upd : RoleUpdate} {ids : List PermissionId}
    (hpermissions : upd.permissionIds = some ids) (hrole : ∃ r ∈ s.db.roles, r.id = role)
    (hfields : (s.db.updateRoleFields role upd.name upd.description).1 = .ok ())
    (hids : ∀ id ∈ ids, ∃ p ∈ s.db.permissions, p.id = id) :
    (¬ ids.Nodup ∧ ∃ e t, (RoleDAO.updateRole role upd).exec s = (.error e, t)) ∨
      (ids.Nodup ∧ ∃ data t, (RoleDAO.updateRole role upd).exec s = (.ok (some data), t) ∧
        t.db.HoldsExactly role ids) := by
  obtain ⟨u, hupdated, hrole', hsame⟩ := exec_updateFields hrole hfields
  let v : State := u.setDb (u.db.deleteRolePermissions role)
  have hnone : ∀ x ∈ v.db.rolePermissions, x.1 ≠ role := by
    intro x hx
    simpa using (List.mem_filter.mp hx).2
  have hids' : ∀ id ∈ ids, ∃ p ∈ v.db.permissions, p.id = id := by
    intro id hid
    obtain ⟨p, hp, hpid⟩ := hids id hid
    exact ⟨p, hsame.symm ▸ hp, hpid⟩
  have hdeleted : (RoleDAO.replacePermissions role (some ids)).exec u =
      (RoleDAO.insertPermissions role ids).exec v := rfl
  unfold RoleDAO.updateRole
  rw [exec_bind_of_ok hupdated, hpermissions]
  rcases exec_insertPermissions (s := v) hrole' hnone hids' with
    ⟨hrepeats, e, herror⟩ | ⟨hnodup, t, hinserted, hroles, hholds⟩
  · exact .inl ⟨hrepeats, e, v, exec_bind_of_error (hdeleted.trans herror)⟩
  · right
    rw [exec_bind_of_ok (hdeleted.trans hinserted), exec_ask_bind]
    have hrole'' : ∃ r ∈ (handler (.bumpRoleHolders role) t).2.db.roles, r.id = role := by
      obtain ⟨r, hr, hid⟩ := hrole'
      exact ⟨r, hroles.symm ▸ hr, hid⟩
    obtain ⟨data, hdata⟩ := exec_getRoleById hrole''
    exact ⟨hnodup, data, _, hdata, hholds⟩

theorem idsOf_known (hs : RoleConstraints s) (names : List String) :
    ∀ id ∈ idsOf s names, ∃ p ∈ s.db.permissions, p.id = id := by
  intro id hid
  obtain ⟨p, hp, -, -, hpid⟩ := (mem_idsOf hs).mp hid
  exact ⟨p, hp, hpid⟩

end executions

/-! ## The form -/

section form
variable {s : State}

/-- The program returns, and the role then has the permissions of these names, and no others. -/
def GivesNamed (s : State) (p : App RoleForm) (role : RoleId) (names : List String) : Prop :=
  ∃ shown t, p.exec s = (.ok shown, t) ∧
    ∀ id, (role, id) ∈ t.db.rolePermissions ↔ s.db.Named names id

def SavesUnchanged (s : State) (r : RoleRow) : Prop :=
  ∃ shown t, (RoleAdminView.edit s.db.permissions r.id
      (RoleAdminView.toAdminObject (s.db.roleData r))).exec s = (.ok shown, t) ∧
    ∀ id, (r.id, id) ∈ t.db.rolePermissions ↔ (r.id, id) ∈ s.db.rolePermissions

theorem edit_gives_iff (hs : RoleConstraints s) {pk : RoleId} (hrole : ∃ r ∈ s.db.roles, r.id = pk)
    {data : RoleForm} {names : List String} (hnames : data.permissions = some names)
    (hfields : (s.db.updateRoleFields pk data.name data.description).1 = .ok ()) :
    GivesNamed s (RoleAdminView.edit s.db.permissions pk data) pk names ↔ s.db.NamesReach names := by
  have hpermissions : data.permissions.map (RoleAdminView.permissionIds s.db.permissions) =
      some (idsOf s names) := by rw [hnames]; rfl
  rw [namesReach_iff hs]
  let upd : RoleUpdate :=
    ⟨data.name, data.description, data.permissions.map (RoleAdminView.permissionIds s.db.permissions)⟩
  have hupd : upd.permissionIds = some (idsOf s names) := hpermissions
  rcases exec_updateRole hupd hrole hfields (idsOf_known hs names) with
    ⟨hrepeats, e, t, herror⟩ | ⟨hnodup, shown, t, hok, hholds⟩
  · have hedit : (RoleAdminView.edit s.db.permissions pk data).exec s = (.error e, t) :=
      exec_bind_of_error herror
    refine iff_of_false ?_ (fun h => hrepeats h.1)
    rintro ⟨shown, u, hok, -⟩
    rw [hedit] at hok
    cases hok
  · have hedit : (RoleAdminView.edit s.db.permissions pk data).exec s =
        (.ok (RoleAdminView.toAdminObject shown), t) := exec_bind_of_ok hok
    constructor
    · rintro ⟨shown', u, hok', hnamed⟩
      rw [hedit] at hok'
      cases hok'
      exact ⟨hnodup, fun id => (hholds id).symm.trans (hnamed id)⟩
    · rintro ⟨-, hnamed⟩
      exact ⟨_, t, hedit, fun id => (hholds id).trans (hnamed id)⟩

def fetchedRole (role : Option RoleData) : App RoleForm :=
  role.elim (App.raise (.value "Failed to fetch created role"))
    (fun data => pure (RoleAdminView.toAdminObject data))

theorem createRole_bind (roleCreate : RoleCreate) :
    (RoleDAO.createRole roleCreate >>= fun role => pure (RoleAdminView.toAdminObject role)) =
      (App.ask (.insertRole roleCreate.name roleCreate.description) >>= App.ofDb) >>= fun role =>
        RoleDAO.insertPermissions role roleCreate.permissionIds >>= fun _ =>
          RoleDAO.getRoleById role >>= fetchedRole := by
  unfold RoleDAO.createRole
  simp only [Program.bind_assoc]
  refine congrArg (App.ask _ >>= ·) (funext fun answer => ?_)
  refine congrArg (App.ofDb answer >>= ·) (funext fun role => ?_)
  refine congrArg (RoleDAO.insertPermissions role _ >>= ·) (funext fun _ => ?_)
  refine congrArg (RoleDAO.getRoleById role >>= ·) (funext fun found => ?_)
  cases found <;> rfl

theorem create_gives_iff (hs : RoleConstraints s) {data : RoleForm} {name : String}
    (hname : data.name = some name)
    (hinsert : (s.db.insertRole s.nextId name data.description).1 = .ok s.nextId) :
    GivesNamed s (RoleAdminView.create s.db.permissions data) s.nextId (data.permissions.getD []) ↔
      s.db.NamesReach (data.permissions.getD []) := by
  set names := data.permissions.getD []
  let u : State := { s with
    db := (s.db.insertRole s.nextId name data.description).2, nextId := s.nextId + 1 }
  have hu : u.db = { s.db with roles := s.db.roles ++ [⟨s.nextId, name, data.description⟩] } := by
    change (s.db.insertRole s.nextId name data.description).2 = _
    unfold Database.insertRole at hinsert ⊢
    split_ifs at hinsert ⊢
    rfl
  have hrole : ∃ r ∈ u.db.roles, r.id = s.nextId := by
    rw [hu]
    exact ⟨⟨s.nextId, name, data.description⟩, by simp, rfl⟩
  have hnone : ∀ x ∈ u.db.rolePermissions, x.1 ≠ s.nextId := by
    intro x hx
    rw [hu] at hx
    obtain ⟨r, hr, hid⟩ := hs.roleIdFkey x hx
    exact hid ▸ hs.fresh r hr
  have hids : ∀ id ∈ idsOf s names, ∃ p ∈ u.db.permissions, p.id = id := by
    rw [hu]
    exact idsOf_known hs names
  have hinserted : (App.ask (.insertRole name data.description) >>= App.ofDb).exec s =
      (.ok s.nextId, u) := by
    rw [exec_ask_bind]
    simp only [handler, hinsert]
    rfl
  have hcreate : (RoleAdminView.create s.db.permissions data).exec s =
      (RoleDAO.insertPermissions s.nextId (idsOf s names) >>= fun _ =>
        RoleDAO.getRoleById s.nextId >>= fetchedRole).exec u := by
    unfold RoleAdminView.create
    simp only [hname]
    rw [createRole_bind]
    exact exec_bind_of_ok hinserted
  rw [namesReach_iff hs]
  rcases exec_insertPermissions hrole hnone hids with
    ⟨hrepeats, e, herror⟩ | ⟨hnodup, t, hgiven, hroles, hholds⟩
  · rw [exec_bind_of_error herror] at hcreate
    refine iff_of_false ?_ (fun h => hrepeats h.1)
    rintro ⟨shown, t, hok, -⟩
    rw [hcreate] at hok
    cases hok
  · have hrole' : ∃ r ∈ t.db.roles, r.id = s.nextId := by
      obtain ⟨r, hr, hid⟩ := hrole
      exact ⟨r, hroles.symm ▸ hr, hid⟩
    obtain ⟨shown, hshown⟩ := exec_getRoleById hrole'
    rw [exec_bind_of_ok hgiven, exec_bind_of_ok hshown] at hcreate
    have hcreated : (RoleAdminView.create s.db.permissions data).exec s =
        (.ok (RoleAdminView.toAdminObject shown), t) := hcreate
    constructor
    · rintro ⟨shown', v, hok, hnamed⟩
      rw [hcreated] at hok
      cases hok
      exact ⟨hnodup, fun id => (hholds id).symm.trans (hnamed id)⟩
    · rintro ⟨-, hnamed⟩
      exact ⟨_, t, hcreated, fun id => (hholds id).trans (hnamed id)⟩

/-- A shown name stands for one permission, and the role has it. -/
theorem named_shown (hs : RoleConstraints s) (r : RoleRow) (id : PermissionId) :
    s.db.Named ((s.db.permissionsOf r.id).map (·.name)) id ↔ (r.id, id) ∈ s.db.rolePermissions := by
  constructor
  · rintro ⟨p, hp, rfl, hname⟩
    obtain ⟨q, hq, hsame⟩ := List.mem_map.mp hname
    obtain ⟨hmem, hheld⟩ := List.mem_filter.mp hq
    rw [← List.inj_on_of_nodup_map hs.permissionsNameKey hmem hp hsame]
    exact of_decide_eq_true hheld
  · intro hheld
    obtain ⟨p, hp, hid⟩ := hs.permissionIdFkey _ hheld
    refine ⟨p, hp, hid, List.mem_map_of_mem (List.mem_filter.mpr ⟨hp, ?_⟩)⟩
    rw [hid]
    exact decide_eq_true hheld

theorem namesReach_shown (hs : RoleConstraints s) (r : RoleRow) :
    s.db.NamesReach ((s.db.permissionsOf r.id).map (·.name)) ↔
      ∀ p ∈ s.db.permissionsOf r.id, s.db.AmongNewest p := by
  constructor
  · intro h p hp
    exact h.newest p (List.mem_filter.mp hp).1 (List.mem_map_of_mem hp)
  · intro h
    refine ⟨fun p hp hname => ?_, ?_⟩
    · obtain ⟨q, hq, hsame⟩ := List.mem_map.mp hname
      rw [← List.inj_on_of_nodup_map hs.permissionsNameKey (List.mem_filter.mp hq).1 hp hsame]
      exact h q hq
    · have hnames : ((s.db.permissionsOf r.id).map (·.name)).Nodup :=
        hs.permissionsNameKey.sublist (List.filter_sublist.map _)
      exact hnames.filter _

/-- A role may be given the name that it has. -/
theorem updateRoleFields_same (hs : RoleConstraints s) {r : RoleRow} (hr : r ∈ s.db.roles)
    (description : Option String) :
    (s.db.updateRoleFields r.id (some r.name) description).1 = .ok () := by
  have hname : ¬ s.db.roles.any (fun q => q.id ≠ r.id && some q.name = some r.name) = true := by
    intro hother
    obtain ⟨q, hq, hsame⟩ := List.any_eq_true.mp hother
    obtain ⟨hne, hname⟩ := by simpa using hsame
    exact hne (congrArg RoleRow.id (List.inj_on_of_nodup_map hs.rolesNameKey hq hr hname))
  unfold Database.updateRoleFields
  split_ifs with hmissing hlong
  · rfl
  · exact absurd hlong (Nat.not_lt.mpr (hs.rolesName r hr))
  · rfl

theorem savesUnchanged_iff (hs : RoleConstraints s) {r : RoleRow} (hr : r ∈ s.db.roles) :
    SavesUnchanged s r ↔ ∀ p ∈ s.db.permissionsOf r.id, s.db.AmongNewest p := by
  have hshown : (RoleAdminView.toAdminObject (s.db.roleData r)).permissions =
      some ((s.db.permissionsOf r.id).map (·.name)) := rfl
  have hgives := edit_gives_iff hs ⟨r, hr, rfl⟩ hshown (updateRoleFields_same hs hr r.description)
  rw [namesReach_shown hs] at hgives
  rw [← hgives]
  unfold SavesUnchanged GivesNamed
  simp only [named_shown hs]

/-- Saving a role as it is shown keeps its permissions exactly if all of them are among the newest
twenty of the table. An edit and a creation give the permissions that were named exactly if those
are among the newest twenty and none is named twice. -/
theorem roleForm_gives_iff (hs : RoleConstraints s) :
    (∀ r ∈ s.db.roles, SavesUnchanged s r ↔ ∀ p ∈ s.db.permissionsOf r.id, s.db.AmongNewest p) ∧
    (∀ r ∈ s.db.roles, ∀ (data : RoleForm) (names : List String), data.permissions = some names →
      (s.db.updateRoleFields r.id data.name data.description).1 = .ok () →
      (GivesNamed s (RoleAdminView.edit s.db.permissions r.id data) r.id names ↔
        s.db.NamesReach names)) ∧
    ∀ (data : RoleForm) (name : String), data.name = some name →
      (s.db.insertRole s.nextId name data.description).1 = .ok s.nextId →
      (GivesNamed s (RoleAdminView.create s.db.permissions data) s.nextId
          (data.permissions.getD []) ↔ s.db.NamesReach (data.permissions.getD [])) := by
  refine ⟨fun r hr => savesUnchanged_iff hs hr, ?_, ?_⟩
  · intro r hr data names hnames hfields
    exact edit_gives_iff hs ⟨r, hr, rfl⟩ hnames hfields
  · intro data name hname hinsert
    exact create_gives_iff hs hname hinsert

end form

def newerPermissions (n : ℕ) : State where
  db := {
    roles := [⟨0, "editor", none⟩]
    permissions := (List.range (n + 1)).map (fun id => ⟨id, toString id, none⟩)
    rolePermissions := [(0, 0)] }
  redis := .empty
  clock := 0
  nextId := 100

theorem newerPermissions_constraints {n : ℕ} (hpkey : ((newerPermissions n).db.permissions.map
    (·.id)).Nodup) (hnames : ((newerPermissions n).db.permissions.map (·.name)).Nodup) :
    RoleConstraints (newerPermissions n) where
  rolesPkey := List.nodup_singleton _
  rolesNameKey := List.nodup_singleton _
  rolesName := by
    intro r hr
    rw [List.mem_singleton.mp hr]
    decide
  permissionsPkey := hpkey
  permissionsNameKey := hnames
  roleIdFkey := by
    intro x hx
    rw [List.mem_singleton.mp hx]
    exact ⟨_, List.mem_cons_self, rfl⟩
  permissionIdFkey := by
    intro x hx
    rw [List.mem_singleton.mp hx]
    exact ⟨_, List.mem_map_of_mem (List.mem_range.mpr n.succ_pos), rfl⟩
  fresh := by
    intro r hr
    rw [List.mem_singleton.mp hr]
    exact (by decide : (0 : RoleId) ≠ 100)

/-- With one newer permission the role keeps its own, and may be given both; a new role too. -/
theorem roleForm_gives_newerPermissions :
    SavesUnchanged (newerPermissions 1) ⟨0, "editor", none⟩ ∧
    GivesNamed (newerPermissions 1) (RoleAdminView.edit (newerPermissions 1).db.permissions 0
      ⟨some "writer", none, some ["0", "1"]⟩) 0 ["0", "1"] ∧
    GivesNamed (newerPermissions 1) (RoleAdminView.create (newerPermissions 1).db.permissions
      ⟨some "reader", none, some ["1"]⟩) 100 ["1"] := by
  obtain ⟨hunchanged, hedit, hcreate⟩ :=
    roleForm_gives_iff (newerPermissions_constraints (n := 1) (by decide) (by decide))
  have hnewest : ∀ p, (newerPermissions 1).db.AmongNewest p := fun p =>
    List.countP_le_length.trans_lt (by decide)
  have hrole : ⟨0, "editor", none⟩ ∈ (newerPermissions 1).db.roles := List.mem_cons_self
  refine ⟨(hunchanged _ hrole).mpr (fun p _ => hnewest p), ?_, ?_⟩
  · exact (hedit _ hrole _ _ rfl (by decide)).mpr ⟨fun p _ _ => hnewest p, by decide⟩
  · exact (hcreate _ "reader" rfl (by decide)).mpr ⟨fun p _ _ => hnewest p, by decide⟩

/-- With twenty newer permissions the role loses its own. -/
theorem roleForm_loses_newerPermissions :
    ¬ ∀ s, RoleConstraints s → ∀ r ∈ s.db.roles, SavesUnchanged s r := by
  intro h
  have hs : RoleConstraints (newerPermissions 20) :=
    newerPermissions_constraints (by decide +kernel) (by decide +kernel)
  have hunchanged := h _ hs ⟨0, "editor", none⟩ List.mem_cons_self
  have hold : ⟨0, "0", none⟩ ∈ (newerPermissions 20).db.permissionsOf 0 := by decide +kernel
  have hnewest := (savesUnchanged_iff hs List.mem_cons_self).mp hunchanged _ hold
  have hcount : ¬ (newerPermissions 20).db.permissions.countP (0 < ·.id) < 20 := by decide +kernel
  exact hcount hnewest

end FastapiTemplate
