import FastapiTemplate.RoleAdminForm

/-!
# The default administrator

`scripts/create_default_admin.py`, run between the other operations: it makes the role
"Super Admin", or gives it its permissions anew, makes the account of the default address if there
is none, and assigns the role. The permissions are those of one page of `get_all_permissions`. The
cache of the roles, the published event, the columns `updated_at` and the audit rows are left out.
-/

namespace FastapiTemplate

def Database.getRoleByName (db : Database) (name : String) : Option RoleData :=
  (db.roles.find? (·.name = name)).map db.roleData

namespace DefaultAdmin

/-! ## The script -/

def roleName : String := "Super Admin"

def adminEmail : String := "admin@example.com"

def adminPassword : String := "AdminPassword123!"

def ensureRole (permissionIds : List PermissionId) : Option RoleData → App RoleId
  | some existingRole => do
    let _ ← RoleDAO.updateRole existingRole.id { permissionIds := some permissionIds }
    pure existingRole.id
  | none => do
    let newRole ← RoleDAO.createRole
      ⟨roleName, some "Administrator with all permissions", permissionIds⟩
    pure newRole.id

section
variable [External]

def ensureUser : App UserId := do
  match ← UserDAO.getByEmail adminEmail with
  | some existingUser => pure existingUser.id
  | none =>
    if ¬ External.emailValid adminEmail then
      App.raise (.value "value is not a valid email address")
    else
      let hashedPassword ← getPasswordHash adminPassword
      let newUser ← UserDAO.createUser
        ⟨"admin", adminEmail, some adminPassword, some "System Administrator", true⟩
        (some hashedPassword)
      pure newUser.id

/-- The body of `main`, with the permissions and the role that it has read. -/
def createDefaultAdmin (permissions : List PermissionData) (existingRole : Option RoleData) :
    App Unit := do
  let roleId ← ensureRole (permissions.map (·.id)) existingRole
  let userId ← ensureUser
  UserDAO.assignRoles userId [roleId]

/-- `main`. An exception is printed, and what was written before it stays. -/
def main (s : State) : Except AppError Unit × State :=
  (createDefaultAdmin (RoleDAO.getAllPermissions s.db.permissions 20)
    (s.db.getRoleByName roleName)).exec s

end

/-! ## The constraints of the tables -/

structure Constraints (s : State) : Prop where
  wellFormed : s.WellFormed
  roles : RoleConstraints s
  usersEmailKey : (s.db.users.map (·.email)).Nodup
  userIdFkey : ∀ x ∈ s.db.userRoles, ∃ u ∈ s.db.users, u.id = x.1
  roleIdFkey : ∀ x ∈ s.db.userRoles, ∃ r ∈ s.db.roles, r.id = x.2

/-! ## The role -/

def grant (db : Database) (role : RoleId) (ids : List PermissionId) : Database :=
  { db with rolePermissions :=
      db.rolePermissions.filter (·.1 ≠ role) ++ ids.map (fun id => (role, id)) }

def bump (p : UserRow → Prop) [DecidablePred p] (u : UserRow) : UserRow :=
  if p u then { u with tokenVersion := u.tokenVersion + 1 } else u

/-- A version is all that a bump changes. -/
theorem bump_fields (p : UserRow → Prop) [DecidablePred p] (u : UserRow) :
    ∃ n, bump p u = { u with tokenVersion := n } := by
  unfold bump
  split_ifs
  · exact ⟨_, rfl⟩
  · exact ⟨u.tokenVersion, rfl⟩

theorem bump_email (p : UserRow → Prop) [DecidablePred p] (u : UserRow) :
    (bump p u).email = u.email := by
  obtain ⟨n, hn⟩ := bump_fields p u
  rw [hn]

section role
variable {s : State} {role : RoleId} {ids : List PermissionId}

theorem insertPermissions_exec (hrole : ∃ r ∈ s.db.roles, r.id = role)
    (hnone : ∀ x ∈ s.db.rolePermissions, x.1 ≠ role)
    (hids : ∀ id ∈ ids, ∃ p ∈ s.db.permissions, p.id = id) (hnodup : ids.Nodup) :
    (RoleDAO.insertPermissions role ids).exec s = (.ok (), s.setDb { s.db with
      rolePermissions := s.db.rolePermissions ++ ids.map (fun id => (role, id)) }) := by
  unfold RoleDAO.insertPermissions
  split_ifs with hempty
  · subst hempty
    simp only [List.map_nil, List.append_nil]
    rfl
  · have hexists : ¬ s.db.roles.all (·.id ≠ role) = true := by simpa using hrole
    have hknown : ¬ ids.any (fun id => s.db.permissions.all (·.id ≠ id)) = true := by
      simpa using hids
    have hfresh : ¬ (¬ ids.Nodup ∨
        ids.any (fun id => (role, id) ∈ s.db.rolePermissions) = true) := by
      rintro (hrepeats | hheld)
      · exact hrepeats hnodup
      · obtain ⟨id, -, hheld⟩ := List.any_eq_true.mp hheld
        exact hnone _ (of_decide_eq_true hheld) rfl
    rw [exec_ask_bind]
    simp only [handler, Database.insertRolePermissions, if_neg hexists, if_neg hknown,
      if_neg hfresh]
    rfl

theorem updateRole_exec (hrole : ∃ r ∈ s.db.roles, r.id = role)
    (hids : ∀ id ∈ ids, ∃ p ∈ s.db.permissions, p.id = id) (hnodup : ids.Nodup) :
    ∃ data, (RoleDAO.updateRole role { permissionIds := some ids }).exec s =
      (.ok data, s.setDb ((grant s.db role ids).bumpRoleHolders role)) := by
  let u : State := s.setDb (s.db.deleteRolePermissions role)
  have hnone : ∀ x ∈ u.db.rolePermissions, x.1 ≠ role := by
    intro x hx
    simpa using (List.mem_filter.mp hx).2
  have hinserted := insertPermissions_exec (s := u) hrole hnone hids hnodup
  have hreplaced : (RoleDAO.replacePermissions role (some ids)).exec s =
      (.ok (), s.setDb (grant s.db role ids)) := hinserted
  refine ⟨((grant s.db role ids).bumpRoleHolders role).selectRole role, ?_⟩
  rw [RoleDAO.updateRole, exec_bind_of_ok (show (RoleDAO.updateFields role
    { permissionIds := some ids }).exec s = (.ok (), s) from rfl), exec_bind_of_ok hreplaced]
  rfl

theorem createRole_exec (hs : RoleConstraints s) {name : String} (description : Option String)
    (hname : ∀ r ∈ s.db.roles, r.name ≠ name) (hlength : name.length ≤ 50)
    (hids : ∀ id ∈ ids, ∃ p ∈ s.db.permissions, p.id = id) (hnodup : ids.Nodup) :
    ∃ data : RoleData, data.id = s.nextId ∧
      (RoleDAO.createRole ⟨name, description, ids⟩).exec s = (.ok data, { s with
        db := grant { s.db with roles := s.db.roles ++ [⟨s.nextId, name, description⟩] }
          s.nextId ids
        nextId := s.nextId + 1 }) := by
  let u : State := { s with
    db := { s.db with roles := s.db.roles ++ [⟨s.nextId, name, description⟩] }
    nextId := s.nextId + 1 }
  have hrole : ∃ r ∈ u.db.roles, r.id = s.nextId :=
    ⟨⟨s.nextId, name, description⟩, List.mem_append_right _ List.mem_cons_self, rfl⟩
  have hnone : ∀ x ∈ s.db.rolePermissions, x.1 ≠ s.nextId := by
    intro x hx
    obtain ⟨r, hr, hid⟩ := hs.roleIdFkey x hx
    exact hid ▸ hs.fresh r hr
  have hgrant : (grant u.db s.nextId ids).rolePermissions =
      u.db.rolePermissions ++ ids.map (fun id => (s.nextId, id)) := by
    have hkeep : s.db.rolePermissions.filter (·.1 ≠ s.nextId) = s.db.rolePermissions :=
      List.filter_eq_self.mpr (fun x hx => decide_eq_true (hnone x hx))
    exact congrArg (· ++ _) hkeep
  have hinsert : s.db.insertRole s.nextId name description = (.ok s.nextId, u.db) := by
    have htaken : ¬ s.db.roles.any (·.name = name) = true := by simpa using hname
    rw [Database.insertRole, if_neg (Nat.not_lt.mpr hlength), if_neg htaken]
  have hinserted := insertPermissions_exec (s := u) hrole hnone hids hnodup
  obtain ⟨data, hdata⟩ := exec_getRoleById
    (s := u.setDb (grant u.db s.nextId ids)) hrole
  refine ⟨data, ?_, ?_⟩
  · have hselect : (grant u.db s.nextId ids).selectRole s.nextId = some data :=
      Except.ok.inj (Prod.mk.inj hdata).1
    obtain ⟨r, hfound, rfl⟩ := Option.map_eq_some_iff.mp hselect
    have hid := List.find?_some hfound
    exact of_decide_eq_true hid
  · rw [RoleDAO.createRole, exec_ask_bind]
    simp only [handler, hinsert]
    rw [exec_bind_of_ok (show (App.ofDb (.ok s.nextId : Except DbError RoleId)).exec u =
      (.ok s.nextId, u) from rfl), exec_bind_of_ok hinserted]
    have hstate : u.setDb { u.db with rolePermissions :=
        u.db.rolePermissions ++ ids.map (fun id => (s.nextId, id)) } =
        u.setDb (grant u.db s.nextId ids) := by
      rw [← hgrant]
      rfl
    rw [hstate, exec_bind_of_ok hdata]
    rfl

structure RoleReady (s t : State) (role : RoleId) (ids : List PermissionId) : Prop where
  named : ∃ r ∈ t.db.roles, r.id = role ∧ r.name = roleName
  unique : ∀ r ∈ t.db.roles, r.name = roleName → r.id = role
  kept : ∀ r ∈ s.db.roles, r ∈ t.db.roles
  added : ∀ r ∈ t.db.roles, r ∈ s.db.roles ∨ r.id = s.nextId
  rolePermissions : t.db.rolePermissions = (grant s.db role ids).rolePermissions
  users : t.db.users = s.db.users.map (bump (fun u => (u.id, role) ∈ s.db.userRoles))
  userRoles : t.db.userRoles = s.db.userRoles
  permissions : t.db.permissions = s.db.permissions

theorem ensureRole_exec (hs : Constraints s) (hids : ∀ id ∈ ids, ∃ p ∈ s.db.permissions, p.id = id)
    (hnodup : ids.Nodup) : ∃ role t,
      (ensureRole ids (s.db.getRoleByName roleName)).exec s = (.ok role, t) ∧
        RoleReady s t role ids := by
  unfold Database.getRoleByName
  cases hfound : s.db.roles.find? (·.name = roleName) with
  | some r =>
    have hr : r ∈ s.db.roles := List.mem_of_find?_eq_some hfound
    obtain ⟨data, hexec⟩ := updateRole_exec (s := s) ⟨r, hr, rfl⟩ hids hnodup
    refine ⟨r.id, s.setDb ((grant s.db r.id ids).bumpRoleHolders r.id), exec_bind_of_ok hexec, ?_⟩
    have hname : r.name = roleName := by simpa using List.find?_some hfound
    refine ⟨⟨r, hr, rfl, hname⟩, fun q hq hsame => ?_, fun _ => id, fun _ => .inl, rfl, rfl, rfl,
      rfl⟩
    rw [List.inj_on_of_nodup_map hs.roles.rolesNameKey hq hr (hsame.trans hname.symm)]
  | none =>
    have hname : ∀ r ∈ s.db.roles, r.name ≠ roleName := by
      simpa using List.find?_eq_none.mp hfound
    have hlength : roleName.length ≤ 50 := by decide
    obtain ⟨data, hid, hexec⟩ := createRole_exec hs.roles
      (some "Administrator with all permissions") hname hlength hids hnodup
    let row : RoleRow := ⟨s.nextId, roleName, some "Administrator with all permissions"⟩
    let t : State := { s with
      db := grant { s.db with roles := s.db.roles ++ [row] } s.nextId ids, nextId := s.nextId + 1 }
    have hcreated : (ensureRole ids none).exec s = (.ok s.nextId, t) := by
      rw [← hid]
      exact exec_bind_of_ok hexec
    refine ⟨s.nextId, t, hcreated, ⟨row, List.mem_append_right _ List.mem_cons_self, rfl, rfl⟩,
      fun r hr hsame => ?_, fun r => List.mem_append_left _, fun r hr => ?_, rfl, ?_, rfl, rfl⟩
    · rcases List.mem_append.mp hr with hr | hr
      · exact absurd hsame (hname r hr)
      · exact congrArg RoleRow.id (List.mem_singleton.mp hr)
    · rcases List.mem_append.mp hr with hr | hr
      · exact .inl hr
      · exact .inr (congrArg RoleRow.id (List.mem_singleton.mp hr))
    · -- nobody holds a role that is new
      have hbump : ∀ u ∈ s.db.users,
          bump (fun u => (u.id, s.nextId) ∈ s.db.userRoles) u = u := by
        intro u hu
        refine if_neg (fun hholds => ?_)
        obtain ⟨r, hr, hrid⟩ := hs.roleIdFkey _ hholds
        exact hs.roles.fresh r hr hrid
      exact ((List.map_congr_left hbump).trans (List.map_id' _)).symm

end role

/-! ## The account -/

section account
variable [External] {s : State}

def newAdmin (seed : ℕ) : UserRow where
  id := seed + 1
  username := "admin"
  email := adminEmail
  hashedPassword := some (External.hashpw adminPassword seed)
  fullName := some "System Administrator"
  isActive := true

def withUser (s : State) (row : UserRow) : State :=
  { s with db := { s.db with users := s.db.users ++ [row] }, nextId := s.nextId + 2 }

omit [External] in
theorem newAdmin_id_ne (hwf : s.WellFormed) {u : UserRow} (hu : u ∈ s.db.users) :
    u.id ≠ s.nextId + 1 := ((hwf.userId_lt u hu).trans (Nat.lt_succ_self _)).ne

theorem ensureUser_some {data : UserData}
    (hfound : s.db.selectUser (.email adminEmail) = some data) :
    ensureUser.exec s = (.ok data.id, s) := by
  rw [ensureUser, UserDAO.getByEmail, exec_ask_bind]
  simp only [handler, hfound]
  rfl

theorem ensureUser_none (hvalid : External.emailValid adminEmail = true)
    (hfound : s.db.selectUser (.email adminEmail) = none) :
    (∀ u ∈ s.db.users, u.username ≠ "admin") ∧
        ensureUser.exec s = (.ok (s.nextId + 1), withUser s (newAdmin s.nextId)) ∨
      (∃ u ∈ s.db.users, u.username = "admin") ∧ ∃ e t, ensureUser.exec s = (.error e, t) := by
  have hemail : ¬ s.db.users.any (·.email = adminEmail) = true := by
    simpa [Database.selectUser, Database.matchesUser] using hfound
  let user : UserCreate :=
    ⟨"admin", adminEmail, some adminPassword, some "System Administrator", true⟩
  let hash := External.hashpw adminPassword s.nextId
  let inserted := s.db.insertUser (s.nextId + 1) user (some hash)
  have hexec : ensureUser.exec s = (App.ofDb inserted.1 >>= fun data => pure data.id).exec
      { s with db := inserted.2, nextId := s.nextId + 2 } := by
    rw [ensureUser, UserDAO.getByEmail, exec_ask_bind]
    simp only [handler, hfound, hvalid, not_true_eq_false, if_false]
    rfl
  have hlengths : ¬ "admin".length > 50 ∧ ¬ adminEmail.length > 255 ∧
      ¬ ((some "System Administrator").getD "").length > 255 := by decide
  by_cases htaken : s.db.users.any (·.username = "admin") = true
  · right
    have hinserted : inserted = (.error (.uniqueViolation "users_username_key"), s.db) := by
      simp only [inserted, user, Database.insertUser, if_neg hlengths.1, if_neg hlengths.2.1,
        if_neg hlengths.2.2, if_pos htaken]
    rw [hexec, hinserted]
    exact ⟨by simpa using htaken, _, _, rfl⟩
  · left
    have hinserted : inserted = (.ok { s.db.userData (newAdmin s.nextId) with roles := [] },
        (withUser s (newAdmin s.nextId)).db) := by
      simp only [inserted, user, Database.insertUser, if_neg hlengths.1, if_neg hlengths.2.1,
        if_neg hlengths.2.2, if_neg htaken, if_neg hemail]
      rfl
    rw [hexec, hinserted]
    exact ⟨by simpa using htaken, rfl⟩

inductive AccountReady (s : State) : State → UserId → Prop
  | found {row : UserRow} (hrow : row ∈ s.db.users) (hemail : row.email = adminEmail) :
      AccountReady s s row.id
  | created (hnone : ∀ u ∈ s.db.users, u.email ≠ adminEmail) :
      AccountReady s (withUser s (newAdmin s.nextId)) (newAdmin s.nextId).id

theorem AccountReady.keeps_roles {t : State} {account : UserId} (h : AccountReady s t account) :
    t.db.roles = s.db.roles ∧ t.db.rolePermissions = s.db.rolePermissions ∧
      t.db.permissions = s.db.permissions := by
  cases h <;> exact ⟨rfl, rfl, rfl⟩

theorem AccountReady.stored {t : State} {account : UserId} (h : AccountReady s t account) :
    ∃ w ∈ t.db.users, w.email = adminEmail ∧ w.id = account := by
  cases h with
  | found hrow hemail => exact ⟨_, hrow, hemail, rfl⟩
  | created _ => exact ⟨_, List.mem_append_right _ List.mem_cons_self, rfl, rfl⟩

theorem ensureUser_exec (hvalid : External.emailValid adminEmail = true) (s : State) :
    ((∃ u ∈ s.db.users, u.email = adminEmail) ∨ ∀ u ∈ s.db.users, u.username ≠ "admin") ∧
        (∃ account t, ensureUser.exec s = (.ok account, t) ∧ AccountReady s t account) ∨
      ¬ ((∃ u ∈ s.db.users, u.email = adminEmail) ∨ ∀ u ∈ s.db.users, u.username ≠ "admin") ∧
        ∃ e t, ensureUser.exec s = (.error e, t) := by
  cases hfound : s.db.selectUser (.email adminEmail) with
  | some data =>
    obtain ⟨u, hu, hmatch, rfl⟩ := selectUser_eq_some hfound
    have hemail : u.email = adminEmail := of_decide_eq_true hmatch
    exact .inl ⟨.inl ⟨u, hu, hemail⟩, u.id, s, ensureUser_some hfound, .found hu hemail⟩
  | none =>
    have hnone : ∀ u ∈ s.db.users, u.email ≠ adminEmail := by
      simpa [Database.selectUser, Database.matchesUser] using hfound
    rcases ensureUser_none hvalid hfound with ⟨hfree, hexec⟩ | ⟨⟨u, hu, hname⟩, hfails⟩
    · exact .inl ⟨.inr hfree, _, _, hexec, .created hnone⟩
    · refine .inr ⟨?_, hfails⟩
      rintro (⟨v, hv, hemail⟩ | hfree)
      · exact hnone v hv hemail
      · exact hfree u hu hname

end account

/-! ## The assignment -/

def assign (db : Database) (user : UserId) (role : RoleId) : Database :=
  { db with userRoles := db.userRoles ++ ([(user, role)].filter (· ∉ db.userRoles)).dedup }

theorem mem_assign {db : Database} {user : UserId} {role : RoleId} {x : UserId × RoleId} :
    x ∈ (assign db user role).userRoles ↔ x ∈ db.userRoles ∨ x = (user, role) := by
  simp only [assign, List.mem_append, List.mem_dedup, List.mem_filter, List.mem_singleton]
  constructor
  · exact Or.imp_right And.left
  · rintro (h | rfl)
    · exact .inl h
    · by_cases h : (user, role) ∈ db.userRoles
      · exact .inl h
      · exact .inr ⟨rfl, decide_eq_true h⟩

theorem assignRoles_exec {s : State} {user : UserId} {role : RoleId}
    (huser : ∃ u ∈ s.db.users, u.id = user) (hrole : ∃ r ∈ s.db.roles, r.id = role) :
    (UserDAO.assignRoles user [role]).exec s =
      (.ok (), s.setDb ((assign s.db user role).bumpTokenVersion user)) := by
  have hmissing : ¬ s.db.users.all (·.id ≠ user) = true := by simpa using huser
  have hunknown : ¬ [role].any (fun r => s.db.roles.all (·.id ≠ r)) = true := by simpa using hrole
  rw [UserDAO.assignRoles, if_neg (List.cons_ne_nil role []), exec_ask_bind]
  simp only [handler, Database.insertUserRoles, if_neg hmissing, if_neg hunknown]
  rfl

/-! ## The whole script -/

section script
variable [External] {s t : State}

def listedIds (s : State) : List PermissionId :=
  (RoleDAO.getAllPermissions s.db.permissions 20).map (·.id)

omit [External] in
theorem listedIds_known (hs : RoleConstraints s) :
    ∀ id ∈ listedIds s, ∃ p ∈ s.db.permissions, p.id = id := by
  intro id hid
  obtain ⟨p, hp, rfl⟩ := List.mem_map.mp hid
  exact ⟨p, ((mem_getAllPermissions hs.permissionsPkey).mp hp).1, rfl⟩

omit [External] in
theorem listedIds_nodup (hs : RoleConstraints s) : (listedIds s).Nodup := by
  have hsorted : ((Keyset.sortDescending PermissionData.id s.db.permissions).map (·.id)).Nodup :=
    ((Keyset.sortDescending_perm s.db.permissions).map (·.id)).nodup_iff.mpr hs.permissionsPkey
  exact hsorted.sublist ((List.take_sublist _ _).map _)

omit [External] in
theorem mem_listedIds (hs : RoleConstraints s) {p : PermissionData} (hp : p ∈ s.db.permissions) :
    p.id ∈ listedIds s ↔ s.db.AmongNewest p := by
  constructor
  · intro hid
    obtain ⟨q, hq, hsame⟩ := List.mem_map.mp hid
    obtain ⟨hq, hnewest⟩ := (mem_getAllPermissions hs.permissionsPkey).mp hq
    exact eq_of_id hs.permissionsPkey hq hp hsame ▸ hnewest
  · intro hnewest
    exact List.mem_map_of_mem ((mem_getAllPermissions hs.permissionsPkey).mpr ⟨hp, hnewest⟩)

omit [External] in
/-- A version is nothing that these properties look at. -/
theorem exists_bumped {Q : UserRow → Prop} (hQ : ∀ u n, Q { u with tokenVersion := n } ↔ Q u)
    (p : UserRow → Prop) [DecidablePred p] (us : List UserRow) :
    (∃ u ∈ us.map (bump p), Q u) ↔ ∃ u ∈ us, Q u := by
  simp only [List.mem_map, exists_exists_and_eq_and]
  refine exists_congr fun u => and_congr_right fun _ => ?_
  obtain ⟨n, hn⟩ := bump_fields p u
  rw [hn, hQ]

/-- How the script ends: it fails in its third step, or all three have been done. -/
inductive Outcome (s : State) : Except AppError Unit × State → Prop
  | failed {role : RoleId} {u : State} (hrole : RoleReady s u role (listedIds s))
      (htaken : ¬ ((∃ v ∈ u.db.users, v.email = adminEmail) ∨
        ∀ v ∈ u.db.users, v.username ≠ "admin")) (e : AppError) (t : State) :
      Outcome s (.error e, t)
  | done {role : RoleId} {u v : State} {account : UserId} (hwf : u.WellFormed)
      (hrole : RoleReady s u role (listedIds s))
      (hfree : (∃ v ∈ u.db.users, v.email = adminEmail) ∨ ∀ v ∈ u.db.users, v.username ≠ "admin")
      (haccount : AccountReady u v account) :
      Outcome s (.ok (), v.setDb ((assign v.db account role).bumpTokenVersion account))

theorem main_outcome (hs : Constraints s) (hvalid : External.emailValid adminEmail = true) :
    Outcome s (main s) := by
  obtain ⟨role, u, hrole, hready⟩ :=
    ensureRole_exec hs (listedIds_known hs.roles) (listedIds_nodup hs.roles)
  have hwf : u.WellFormed := wellFormed_of_exec hs.wellFormed hrole
  have hmain : main s = (ensureUser >>= fun userId => UserDAO.assignRoles userId [role]).exec u :=
    exec_bind_of_ok hrole
  rw [hmain]
  rcases ensureUser_exec hvalid u with ⟨hfree, account, v, hexec, haccount⟩ | ⟨htaken, e, t, hexec⟩
  · obtain ⟨w, hw, -, hid⟩ := haccount.stored
    have huser : ∃ w ∈ v.db.users, w.id = account := ⟨w, hw, hid⟩
    have hrole' : ∃ r ∈ v.db.roles, r.id = role := by
      obtain ⟨r, hr, hid, -⟩ := hready.named
      exact ⟨r, haccount.keeps_roles.1 ▸ hr, hid⟩
    rw [exec_bind_of_ok hexec, assignRoles_exec huser hrole']
    exact .done hwf hready hfree haccount
  · rw [exec_bind_of_error hexec]
    exact .failed hready htaken e t

omit [External] in
theorem RoleReady.exists_user {role : RoleId} {ids : List PermissionId} (h : RoleReady s t role ids)
    {Q : UserRow → Prop} (hQ : ∀ u n, Q { u with tokenVersion := n } ↔ Q u) :
    (∃ u ∈ t.db.users, Q u) ↔ ∃ u ∈ s.db.users, Q u := by
  rw [h.users]
  exact exists_bumped hQ _ _

/-- The script fails exactly if somebody else has taken the username of the account that it would
have to make. -/
theorem main_isOk_iff (hs : Constraints s) (hvalid : External.emailValid adminEmail = true) :
    (main s).1 = .ok () ↔
      (∃ u ∈ s.db.users, u.email = adminEmail) ∨ ∀ u ∈ s.db.users, u.username ≠ "admin" := by
  have hsame {role : RoleId} {u : State} (hrole : RoleReady s u role (listedIds s)) :
      ((∃ v ∈ u.db.users, v.email = adminEmail) ∨ ∀ v ∈ u.db.users, v.username ≠ "admin") ↔
      ((∃ v ∈ s.db.users, v.email = adminEmail) ∨ ∀ v ∈ s.db.users, v.username ≠ "admin") := by
    have htaken := hrole.exists_user (Q := fun v => v.username = "admin") (fun _ _ => Iff.rfl)
    refine or_congr (hrole.exists_user (fun _ _ => Iff.rfl)) ?_
    simpa only [not_exists, not_and] using not_congr htaken
  generalize hmain : main s = result
  have h := main_outcome hs hvalid
  rw [hmain] at h
  cases h with
  | failed hrole htaken e t =>
    exact iff_of_false (by simp) (fun hfree => htaken ((hsame hrole).mpr hfree))
  | done hwf hrole hfree haccount => exact iff_of_true rfl ((hsame hrole).mp hfree)

omit [External] in
theorem RoleReady.usersEmailKey (hs : Constraints s) {role : RoleId} {ids : List PermissionId}
    (h : RoleReady s t role ids) : (t.db.users.map (·.email)).Nodup := by
  have hsame : s.db.users.map ((·.email) ∘ bump (fun u => (u.id, role) ∈ s.db.userRoles)) =
      s.db.users.map (·.email) := List.map_congr_left (fun w _ => bump_email _ w)
  rw [h.users, List.map_map, hsame]
  exact hs.usersEmailKey

/-- The account is the one of the address. -/
theorem AccountReady.email_iff {u v : State} {account : UserId} (h : AccountReady u v account)
    (hwf : u.WellFormed) (hkey : (u.db.users.map (·.email)).Nodup) {w : UserRow}
    (hw : w ∈ v.db.users) : w.email = adminEmail ↔ w.id = account := by
  cases h with
  | found hrow hemail =>
    constructor
    · intro hsame
      rw [List.inj_on_of_nodup_map hkey hw hrow (hsame.trans hemail.symm)]
    · intro hid
      rw [List.inj_on_of_nodup_map hwf.nodup hw hrow hid]
      exact hemail
  | created hnone =>
    rcases List.mem_append.mp hw with hw | hw
    · exact iff_of_false (hnone w hw) (newAdmin_id_ne hwf hw)
    · rw [List.mem_singleton.mp hw]
      exact iff_of_true rfl rfl

/-- The holders of the role afterwards: those from before, and the account of the address. -/
theorem main_superAdmin (hs : Constraints s) {role : RoleId} {u v : State} {account : UserId}
    (hwf : u.WellFormed) (hrole : RoleReady s u role (listedIds s))
    (haccount : AccountReady u v account) (user : UserId) :
    ((assign v.db account role).bumpTokenVersion account).SuperAdmin user ↔
      s.db.SuperAdmin user ∨ ∃ w ∈ v.db.users, w.id = user ∧ w.email = adminEmail ∧ w.isActive := by
  have hold : (∃ w ∈ u.db.users, w.id = user ∧ w.isActive) ↔
      ∃ w ∈ s.db.users, w.id = user ∧ w.isActive := hrole.exists_user (fun _ _ => Iff.rfl)
  have hkey := hrole.usersEmailKey hs
  have hv : v.db.userRoles = u.db.userRoles ∧ v.db.roles = u.db.roles ∧
      ∀ w ∈ u.db.users, w ∈ v.db.users := by
    cases haccount with
    | found _ _ => exact ⟨rfl, rfl, fun _ => id⟩
    | created _ => exact ⟨rfl, rfl, fun _ => List.mem_append_left _⟩
  have hspec : ((assign v.db account role).bumpTokenVersion account).SuperAdmin user ↔
      (∃ w ∈ v.db.users, w.id = user ∧ w.isActive) ∧
        ∃ r ∈ u.db.roles, ((user, r.id) ∈ s.db.userRoles ∨ user = account ∧ r.id = role) ∧
          r.name = "Super Admin" := by
    refine and_congr (exists_bumped (fun _ _ => Iff.rfl) (·.id = account) _) ?_
    have hmem (x : UserId × RoleId) : x ∈ (assign v.db account role).userRoles ↔
        x ∈ s.db.userRoles ∨ x = (account, role) := by
      rw [mem_assign, hv.1, hrole.userRoles]
    change (∃ r ∈ v.db.roles, (user, r.id) ∈ (assign v.db account role).userRoles ∧ _) ↔ _
    simp only [hmem, hv.2.1, Prod.mk.injEq]
  rw [hspec]
  constructor
  · rintro ⟨⟨w, hw, hid, hactive⟩, r, hr, hholds | ⟨rfl, rfl⟩, hname⟩
    · -- a link from before refers to a user and to a role from before
      left
      obtain ⟨x, hx, hxid⟩ := hs.userIdFkey _ hholds
      obtain ⟨q, hq, hqid⟩ := hs.roleIdFkey _ hholds
      have hr' : r ∈ s.db.roles := by
        rcases hrole.added r hr with hr | hnew
        · exact hr
        · exact absurd (hqid.trans hnew) (hs.roles.fresh q hq)
      refine ⟨hold.mp ?_, r, hr', hholds, hname⟩
      cases haccount with
      | found _ _ => exact ⟨w, hw, hid, hactive⟩
      | created _ =>
        rcases List.mem_append.mp hw with hw | hw
        · exact ⟨w, hw, hid, hactive⟩
        · obtain ⟨y, hy, hyid⟩ :=
            (hrole.exists_user (Q := fun y => y.id = user) (fun _ _ => Iff.rfl)).mpr ⟨x, hx, hxid⟩
          have hnew : w.id = u.nextId + 1 := congrArg UserRow.id (List.mem_singleton.mp hw)
          exact absurd (hyid.trans (hid.symm.trans hnew)) (newAdmin_id_ne hwf hy)
    · exact .inr ⟨w, hw, hid, (haccount.email_iff hwf hkey hw).mpr hid, hactive⟩
  · rintro (⟨huser, r, hr, hholds, hname⟩ | ⟨w, hw, rfl, hemail, hactive⟩)
    · obtain ⟨w, hw, hwuser⟩ := hold.mpr huser
      exact ⟨⟨w, hv.2.2 w hw, hwuser⟩, r, hrole.kept r hr, .inl hholds, hname⟩
    · obtain ⟨r, hr, hrid, hname⟩ := hrole.named
      exact ⟨⟨w, hw, rfl, hactive⟩, r, hr,
        .inr ⟨(haccount.email_iff hwf hkey hw).mp hemail, hrid⟩, hname⟩

/-- The role has the twenty newest permissions afterwards, whatever it had before, and nobody but
the account of the address becomes a super admin. -/
theorem main_grants (hs : Constraints s) (hvalid : External.emailValid adminEmail = true) :
    ((main s).1 = .ok () ↔
      (∃ u ∈ s.db.users, u.email = adminEmail) ∨ ∀ u ∈ s.db.users, u.username ≠ "admin") ∧
    ∀ t, main s = (.ok (), t) →
      (∃ r ∈ t.db.roles, r.name = roleName ∧ ∀ p ∈ s.db.permissions,
        (r.id, p.id) ∈ t.db.rolePermissions ↔ s.db.AmongNewest p) ∧
      ∀ user, t.db.SuperAdmin user ↔ s.db.SuperAdmin user ∨
        ∃ w ∈ t.db.users, w.id = user ∧ w.email = adminEmail ∧ w.isActive := by
  refine ⟨main_isOk_iff hs hvalid, fun t hmain => ?_⟩
  have h := main_outcome hs hvalid
  rw [hmain] at h
  cases h with
  | @done role u v account hwf hrole hfree haccount =>
    obtain ⟨hroles, hpairs, -⟩ := haccount.keeps_roles
    constructor
    · obtain ⟨r, hr, rfl, hname⟩ := hrole.named
      refine ⟨r, hroles.symm ▸ hr, hname, fun p hp => ?_⟩
      change (r.id, p.id) ∈ v.db.rolePermissions ↔ _
      rw [hpairs, hrole.rolePermissions, ← mem_listedIds hs.roles hp]
      simp [grant]
    · intro user
      refine (main_superAdmin hs hwf hrole haccount user).trans (or_congr_right (Iff.symm ?_))
      exact exists_bumped (Q := fun w => w.id = user ∧ w.email = adminEmail ∧ w.isActive)
        (fun _ _ => Iff.rfl) (·.id = account) v.db.users

omit [External] in
/-- Permissions that have been granted are granted again. -/
theorem grant_again {db db' : Database} {role : RoleId} {ids : List PermissionId}
    (h : db'.rolePermissions = (grant db role ids).rolePermissions) : grant db' role ids = db' := by
  have hothers : (ids.map (fun id => (role, id))).filter (·.1 ≠ role) = [] := by
    simp [List.filter_eq_nil_iff]
  have hsame : db'.rolePermissions.filter (·.1 ≠ role) ++ ids.map (fun id => (role, id)) =
      db'.rolePermissions := by
    rw [h]
    simp only [grant, List.filter_append, hothers, List.append_nil, List.filter_filter,
      Bool.and_self]
  exact congrArg (fun pairs => { db' with rolePermissions := pairs }) hsame

omit [External] in
/-- So is a role that has been assigned. -/
theorem assign_again {db : Database} {user : UserId} {role : RoleId}
    (h : (user, role) ∈ db.userRoles) : assign db user role = db := by
  have hnone : [(user, role)].filter (· ∉ db.userRoles) = [] := by simp [h]
  have hsame : db.userRoles ++ ([(user, role)].filter (· ∉ db.userRoles)).dedup = db.userRoles := by
    rw [hnone, List.dedup_nil, List.append_nil]
  exact congrArg (fun pairs => { db with userRoles := pairs }) hsame

omit [External] in
theorem RoleReady.find_named {role : RoleId} {ids : List PermissionId}
    (h : RoleReady s t role ids) : ∃ r ∈ t.db.roles,
      t.db.roles.find? (·.name = roleName) = some r ∧ r.id = role ∧ r.name = roleName := by
  obtain ⟨q, hq, -, hname⟩ := h.named
  cases hfound : t.db.roles.find? (·.name = roleName) with
  | none => exact absurd hname (by simpa using List.find?_eq_none.mp hfound q hq)
  | some r =>
    have hr : r ∈ t.db.roles := List.mem_of_find?_eq_some hfound
    have hname : r.name = roleName := by simpa using List.find?_some hfound
    exact ⟨r, hr, rfl, h.unique r hr hname, hname⟩

omit [External] in
/-- A role that has the permissions keeps them, and its holders get a new version. -/
theorem ensureRole_granted {r : RoleRow} {ids : List PermissionId} (hr : r ∈ t.db.roles)
    (hfound : t.db.roles.find? (·.name = roleName) = some r)
    (hids : ∀ id ∈ ids, ∃ p ∈ t.db.permissions, p.id = id) (hnodup : ids.Nodup)
    (hgrant : grant t.db r.id ids = t.db) :
    (ensureRole ids (t.db.getRoleByName roleName)).exec t =
      (.ok r.id, t.setDb (t.db.bumpRoleHolders r.id)) := by
  obtain ⟨data, hexec⟩ := updateRole_exec (s := t) ⟨r, hr, rfl⟩ hids hnodup
  rw [Database.getRoleByName, hfound]
  rw [hgrant] at hexec
  exact exec_bind_of_ok hexec

theorem ensureUser_present {account : UserId} (hsome : ∃ w ∈ t.db.users, w.email = adminEmail)
    (honly : ∀ w ∈ t.db.users, w.email = adminEmail → w.id = account) :
    ensureUser.exec t = (.ok account, t) := by
  cases hdata : t.db.selectUser (.email adminEmail) with
  | none =>
    have hnone : ∀ u ∈ t.db.users, u.email ≠ adminEmail := by
      simpa [Database.selectUser, Database.matchesUser] using hdata
    obtain ⟨w, hw, hemail⟩ := hsome
    exact absurd hemail (hnone w hw)
  | some data =>
    obtain ⟨u, hu, hmatch, rfl⟩ := selectUser_eq_some hdata
    have hid : u.id = account := honly u hu (of_decide_eq_true hmatch)
    rw [← hid]
    exact ensureUser_some hdata

/-- A second run succeeds, and only gives the holders of the role and the account a new version. -/
theorem main_again (hs : Constraints s) (hvalid : External.emailValid adminEmail = true)
    (hmain : main s = (.ok (), t)) :
    ∃ r ∈ t.db.roles, r.name = roleName ∧ ∃ w ∈ t.db.users, w.email = adminEmail ∧
      main t = (.ok (), t.setDb ((t.db.bumpRoleHolders r.id).bumpTokenVersion w.id)) := by
  have h := main_outcome hs hvalid
  rw [hmain] at h
  cases h with
  | @done role u v account hwf hrole hfree haccount =>
    obtain ⟨hroles, hpairs, hpermissions⟩ := haccount.keeps_roles
    set t := v.setDb ((assign v.db account role).bumpTokenVersion account) with ht
    have hknown : t.db.permissions = s.db.permissions := hpermissions.trans hrole.permissions
    have hlisted : listedIds t = listedIds s := by
      rw [listedIds, hknown]
      rfl
    -- the second step finds the role, and grants what it has
    obtain ⟨r, hr, hfound, rfl, hname⟩ := hrole.find_named
    rw [← hroles] at hr hfound
    have hids : ∀ id ∈ listedIds t, ∃ p ∈ t.db.permissions, p.id = id := by
      rw [hlisted, hknown]
      exact listedIds_known hs.roles
    have hgrant : grant t.db r.id (listedIds t) = t.db := by
      rw [hlisted]
      exact grant_again (hpairs.trans hrole.rolePermissions)
    have hsecond := ensureRole_granted (t := t) hr hfound hids
      (hlisted ▸ listedIds_nodup hs.roles) hgrant
    set x : State := t.setDb (t.db.bumpRoleHolders r.id)
    -- the third step finds the account
    have ht {Q : UserRow → Prop} (hQ : ∀ u n, Q { u with tokenVersion := n } ↔ Q u) :
        (∃ w ∈ t.db.users, Q w) ↔ ∃ w ∈ v.db.users, Q w :=
      exists_bumped hQ (·.id = account) v.db.users
    have hx {Q : UserRow → Prop} (hQ : ∀ u n, Q { u with tokenVersion := n } ↔ Q u) :
        (∃ w ∈ x.db.users, Q w) ↔ ∃ w ∈ t.db.users, Q w :=
      exists_bumped hQ (fun u => (u.id, r.id) ∈ t.db.userRoles) t.db.users
    obtain ⟨w, hw, hemail, rfl⟩ : ∃ w ∈ t.db.users, w.email = adminEmail ∧ w.id = account :=
      (ht (fun _ _ => Iff.rfl)).mpr haccount.stored
    have honly : ∀ y ∈ x.db.users, y.email = adminEmail → y.id = w.id := by
      intro y hy hsame
      have hin : ∃ z ∈ v.db.users, z.email = adminEmail ∧ z.id = y.id :=
        (ht (fun _ _ => Iff.rfl)).mp ((hx (fun _ _ => Iff.rfl)).mp ⟨y, hy, hsame, rfl⟩)
      obtain ⟨z, hz, hzemail, hzid⟩ := hin
      exact hzid.symm.trans ((haccount.email_iff hwf (hrole.usersEmailKey hs) hz).mp hzemail)
    have hthird : ensureUser.exec x = (.ok w.id, x) :=
      ensureUser_present ((hx (fun _ _ => Iff.rfl)).mpr ⟨w, hw, hemail⟩) honly
    refine ⟨r, hr, hname, w, hw, hemail, ?_⟩
    have hstart : main t =
        (ensureUser >>= fun userId => UserDAO.assignRoles userId [r.id]).exec x :=
      exec_bind_of_ok hsecond
    have hassign : assign x.db w.id r.id = x.db :=
      assign_again (mem_assign.mpr (.inr rfl))
    have huser : ∃ u ∈ x.db.users, u.id = w.id := (hx (fun _ _ => Iff.rfl)).mpr ⟨w, hw, rfl⟩
    rw [hstart, exec_bind_of_ok hthird, assignRoles_exec huser ⟨r, hr, rfl⟩, hassign]
    rfl

end script

/-! ## A fresh deployment -/

/-- Thirty permissions, as many as the migrations insert, and a user who is no administrator. -/
def freshTables : Database where
  users := [{ World.testUser with id := 40 }]
  permissions := (List.range 30).map (fun i => ⟨i, "permission " ++ toString i, none⟩)

def freshState : State := { db := freshTables, redis := .empty, clock := 0, nextId := 41 }

theorem freshState_constraints : Constraints freshState where
  wellFormed := ⟨by decide, by decide, by decide, by decide⟩
  roles := ⟨by decide, by decide, by decide, by decide, by decide, by decide, by decide, by decide⟩
  usersEmailKey := by decide
  userIdFkey := by decide
  roleIdFkey := by decide

/-- The ten oldest permissions are left out. -/
theorem main_grants_fresh :
    letI := External.plain
    ∃ r ∈ (main freshState).2.db.roles, r.name = roleName ∧
      (r.id, 10) ∈ (main freshState).2.db.rolePermissions ∧
      (r.id, 9) ∉ (main freshState).2.db.rolePermissions := by
  let _ := External.plain
  have hvalid : External.emailValid adminEmail = true := by decide
  have hspec := main_grants freshState_constraints hvalid
  have hmain : main freshState = (.ok (), (main freshState).2) :=
    Prod.ext (hspec.1.mpr (.inr (by decide))) rfl
  obtain ⟨r, hr, hname, hheld⟩ := (hspec.2 _ hmain).1
  have hnewest := hheld ⟨10, "permission 10", none⟩ (by decide)
  have holdest := hheld ⟨9, "permission 9", none⟩ (by decide)
  have htenth : freshTables.permissions.countP (10 < ·.id) < 20 := by decide
  have hninth : ¬ freshTables.permissions.countP (9 < ·.id) < 20 := by decide
  exact ⟨r, hr, hname, hnewest.mpr htenth, fun h => hninth (holdest.mp h)⟩

theorem main_again_fresh :
    letI := External.plain
    let t := (main freshState).2
    (main t).1 = .ok () ∧ (main t).2.db.userRoles = t.db.userRoles := by
  let _ := External.plain
  have hvalid : External.emailValid adminEmail = true := by decide
  have hmain : main freshState = (.ok (), (main freshState).2) :=
    Prod.ext ((main_isOk_iff freshState_constraints hvalid).mpr (.inr (by decide))) rfl
  obtain ⟨r, -, -, w, -, -, hagain⟩ := main_again freshState_constraints hvalid hmain
  exact ⟨congrArg Prod.fst hagain, congrArg (·.2.db.userRoles) hagain⟩

end DefaultAdmin
end FastapiTemplate
