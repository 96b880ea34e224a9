import FastapiTemplate.WriteAtomicity

/-!
# The writes of roles

When `create_role`, `update_role` and `delete_role` are all or nothing.
-/

namespace FastapiTemplate.AccountWrites

variable {replica : Option Database} {fates : Fates Statement Sql.DbError} {t u : Tables}

/-! ## Roles and their permissions -/

def RoleRefused (db : Database) (name : String) : Prop :=
  50 < name.length ∨ ∃ r ∈ db.roles, r.name = name

def PermissionsFit (db : Database) (role : RoleId) (permissionIds : List PermissionId) : Prop :=
  permissionIds.Nodup ∧
    ∀ p ∈ permissionIds, (∃ q ∈ db.permissions, q.id = p) ∧ (role, p) ∉ db.rolePermissions

def Tables.withRole (t : Tables) (name : String) (description : Option String) : Tables :=
  t.drawn { t.db with roles := t.db.roles ++ [⟨t.nextId, name, description⟩] }

def Tables.withPermissions (t : Tables) (role : RoleId) (permissionIds : List PermissionId) :
    Tables :=
  t.setDb { t.db with
    rolePermissions := t.db.rolePermissions ++ permissionIds.map (fun p => (role, p)) }

section run
variable (replica) {name : String} {description : Option String} {role : RoleId}
variable {permissionIds : List PermissionId}

theorem run_insertRole_refused (h : RoleRefused t.db name) :
    ∃ e, run replica (.insertRole name description) t = (.error e, t) := by
  simp only [run, Database.insertRole]
  split_ifs with hlong hname
  · exact ⟨_, rfl⟩
  · exact ⟨_, rfl⟩
  · exact absurd h (by simpa [RoleRefused, hlong] using hname)

theorem run_insertRole (h : ¬RoleRefused t.db name) :
    run replica (.insertRole name description) t = (.ok t.nextId, t.withRole name description) := by
  simp only [RoleRefused, not_or, not_lt, not_exists, not_and] at h
  simp only [run, Database.insertRole]
  rw [if_neg (by simpa using h.1), if_neg (by simpa using h.2)]
  rfl

theorem roleRefused_withRole : RoleRefused (t.withRole name description).db name :=
  .inr ⟨_, List.mem_append_right _ (List.mem_singleton_self _), rfl⟩

theorem run_insertRolePermissions_refused (h : ¬PermissionsFit t.db role permissionIds) :
    ∃ e, run replica (.insertRolePermissions role permissionIds) t = (.error e, t) := by
  simp only [run, Database.insertRolePermissions]
  split_ifs with hrole hpermissions hpairs
  · exact ⟨_, rfl⟩
  · exact ⟨_, rfl⟩
  · exact ⟨_, rfl⟩
  · refine absurd ⟨?_, fun p hp => ⟨?_, ?_⟩⟩ h
    all_goals simp_all

theorem run_insertRolePermissions (hrole : ∃ r ∈ t.db.roles, r.id = role)
    (h : PermissionsFit t.db role permissionIds) :
    run replica (.insertRolePermissions role permissionIds) t =
      (.ok (), t.withPermissions role permissionIds) := by
  obtain ⟨r, hr, rfl⟩ := hrole
  simp only [run, Database.insertRolePermissions]
  rw [if_neg, if_neg, if_neg]
  · rfl
  · simpa using ⟨h.1, fun p hp => (h.2 p hp).2⟩
  · simpa using fun p hp => (h.2 p hp).1
  · simpa using ⟨r, hr, rfl⟩

theorem mem_withPermissions {x : RoleId × PermissionId} :
    x ∈ (t.withPermissions role permissionIds).db.rolePermissions ↔
      x ∈ t.db.rolePermissions ∨ x.1 = role ∧ x.2 ∈ permissionIds := by
  obtain ⟨r, p⟩ := x
  simp only [Tables.withPermissions, Tables.setDb, List.mem_append, List.mem_map, Prod.mk.injEq]
  constructor
  · rintro (hold | ⟨q, hq, rfl, rfl⟩)
    · exact .inl hold
    · exact .inr ⟨rfl, hq⟩
  · rintro (hold | ⟨rfl, hp⟩)
    · exact .inl hold
    · exact .inr ⟨p, hp, rfl, rfl⟩

/-- The pairs cannot be inserted once more. -/
theorem not_permissionsFit_withPermissions (t : Tables) (role : RoleId) (h : permissionIds ≠ []) :
    ¬PermissionsFit (t.withPermissions role permissionIds).db role permissionIds := by
  intro hfit
  obtain ⟨p, hp⟩ := List.exists_mem_of_ne_nil _ h
  exact (hfit.2 p hp).2 (mem_withPermissions.mpr (.inr ⟨rfl, hp⟩))

end run

/-! ## `create_role` -/

structure RoleCreated (t : Tables) (roleCreate : RoleCreate) (u : Tables) : Prop where
  role : u.db.roles = t.db.roles ++ [⟨t.nextId, roleCreate.name, roleCreate.description⟩]
  permissions : ∀ p ∈ roleCreate.permissionIds, (t.nextId, p) ∈ u.db.rolePermissions

/-- The role cannot be inserted, or never reaches the server, or every statement comes to its end:
a permission that cannot be inserted, and a lost connection after the role is there, leave the
role behind. -/
def CreateRoleSafe (fates : Fates Statement Sql.DbError) (t : Tables) (roleCreate : RoleCreate) :
    Prop :=
  RoleRefused t.db roleCreate.name ∨
    ¬executes fates (.insertRole roleCreate.name roleCreate.description) ∨
    answersFirst fates (.insertRole roleCreate.name roleCreate.description) ∧
      (roleCreate.permissionIds ≠ [] →
        PermissionsFit t.db t.nextId roleCreate.permissionIds ∧
          answersFirst fates (.insertRolePermissions t.nextId roleCreate.permissionIds)) ∧
      answers fates (.selectRole t.nextId)

theorem not_same_of_roles {r : RoleRow} (h : u.db.roles = t.db.roles ++ [r]) : ¬Same t u := by
  intro hsame
  have := congrArg List.length (h.symm.trans hsame.roles)
  simp at this

/-- Once the role is there, nothing but an end with all effects will do. -/
theorem fetchCreated_allOrNothing {roleCreate : RoleCreate} (hu : RoleCreated t roleCreate u) :
    AllOrNothing (Same t) (RoleCreated t roleCreate) (Write.exec (do
        RoleDAO.orNotFetched (← RoleDAO.getRoleById t.nextId)) replica fates u) ↔
      answers fates (.selectRole t.nextId) := by
  rw [RoleDAO.getRoleById, ask_read rfl]
  cases answers fates (.selectRole t.nextId) with
  | false => simpa using not_same_of_roles hu.role
  | true =>
    rw [if_pos rfl, iff_true_right rfl]
    cases (replica.getD u.db).selectRole t.nextId with
    | none => exact allOrNothing_error.mpr nofun
    | some data => exact allOrNothing_ok.mpr hu

/-- The pairs and what follows them, when the role has just been inserted. -/
theorem insertPermissions_allOrNothing (roleCreate : RoleCreate) :
    AllOrNothing (Same t) (RoleCreated t roleCreate) (Write.exec (do
        RoleDAO.insertPermissions t.nextId roleCreate.permissionIds
        RoleDAO.orNotFetched (← RoleDAO.getRoleById t.nextId)) replica fates
          (t.withRole roleCreate.name roleCreate.description)) ↔
      (roleCreate.permissionIds ≠ [] →
        PermissionsFit t.db t.nextId roleCreate.permissionIds ∧
          answersFirst fates (.insertRolePermissions t.nextId roleCreate.permissionIds)) ∧
      answers fates (.selectRole t.nextId) := by
  unfold RoleDAO.insertPermissions
  by_cases hids : roleCreate.permissionIds = []
  · rw [if_pos hids, Program.pure_bind, fetchCreated_allOrNothing ⟨rfl, by simp [hids]⟩]
    simp [hids]
  rw [if_neg hids]
  by_cases hfit : PermissionsFit t.db t.nextId roleCreate.permissionIds
  · have hrole : ∃ r ∈ (t.withRole roleCreate.name roleCreate.description).db.roles,
        r.id = t.nextId :=
      ⟨_, List.mem_append_right _ (List.mem_singleton_self _), rfl⟩
    obtain ⟨e, hagain⟩ := run_insertRolePermissions_refused replica
      (not_permissionsFit_withPermissions (t.withRole roleCreate.name roleCreate.description)
        t.nextId hids)
    rw [ask_once (run_insertRolePermissions replica hrole hfit) hagain]
    cases hfirst : answersFirst fates
        (.insertRolePermissions t.nextId roleCreate.permissionIds) with
    | true =>
      rw [if_pos rfl, fetchCreated_allOrNothing
        ⟨rfl, fun p hp => mem_withPermissions.mpr (.inr ⟨rfl, hp⟩)⟩]
      simp [hfit]
    | false =>
      rw [if_neg Bool.false_ne_true]
      refine iff_of_false ?_ (fun h => Bool.false_ne_true (h.1 hids).2)
      split_ifs <;> exact not_same_of_roles rfl
  · obtain ⟨e, hrun⟩ := run_insertRolePermissions_refused replica
      (t := t.withRole roleCreate.name roleCreate.description) hfit
    rw [ask_rejected hrun]
    exact iff_of_false (not_same_of_roles rfl) (fun h => hfit (h.1 hids).1)

theorem createRole_allOrNothing (roleCreate : RoleCreate) :
    AllOrNothing (Same t) (RoleCreated t roleCreate)
        ((RoleDAO.createRole roleCreate).exec replica fates t) ↔
      CreateRoleSafe fates t roleCreate := by
  unfold CreateRoleSafe RoleDAO.createRole
  by_cases hrefused : RoleRefused t.db roleCreate.name
  · obtain ⟨e, hrun⟩ := run_insertRole_refused replica (t := t) hrefused
    rw [ask_rejected hrun]
    exact iff_of_true (same_refl t) (.inl hrefused)
  · obtain ⟨e, hagain⟩ := run_insertRole_refused replica
      (roleRefused_withRole (t := t))
    rw [ask_once (run_insertRole replica hrefused) hagain]
    cases hfirst : answersFirst fates (.insertRole roleCreate.name roleCreate.description) with
    | true =>
      rw [if_pos rfl, insertPermissions_allOrNothing]
      simp [hrefused, executes_of_answersFirst hfirst]
    | false =>
      cases executes fates (.insertRole roleCreate.name roleCreate.description) with
      | true => simpa [hrefused] using not_same_of_roles rfl
      | false => simpa using same_refl t

/-! ## `update_role` -/

def FieldsRefused (db : Database) (role : RoleId) (name : Option String) : Prop :=
  (∃ r ∈ db.roles, r.id = role) ∧
    (50 < (name.getD "").length ∨ ∃ r ∈ db.roles, r.id ≠ role ∧ some r.name = name)

def editRole (role : RoleId) (name description : Option String) (r : RoleRow) : RoleRow :=
  if r.id = role then
    { r with name := name.getD r.name, description := description.or r.description } else r

def Tables.editedRole (role : RoleId) (name description : Option String) (t : Tables) : Tables :=
  t.touchRole role { t.db with roles := t.db.roles.map (editRole role name description) }

def Tables.withoutPermissions (role : RoleId) (t : Tables) : Tables :=
  t.setDb (t.db.deleteRolePermissions role)

section fields
variable (replica) {role : RoleId} {name description : Option String}

@[simp] theorem editRole_id (r : RoleRow) : (editRole role name description r).id = r.id := by
  unfold editRole
  split_ifs <;> rfl

theorem editRole_of_ne {r : RoleRow} (h : r.id ≠ role) : editRole role name description r = r :=
  if_neg h

theorem editRole_idem (r : RoleRow) : editRole role name description
    (editRole role name description r) = editRole role name description r := by
  by_cases h : r.id = role
  · cases name <;> cases description <;> simp [editRole, h]
  · rw [editRole_of_ne h, editRole_of_ne h]

theorem map_editRole_of_absent {roles : List RoleRow} (h : ∀ r ∈ roles, r.id ≠ role) :
    roles.map (editRole role name description) = roles := by
  have hrow : ∀ r ∈ roles, editRole role name description r = id r :=
    fun r hr => editRole_of_ne (h r hr)
  rw [List.map_congr_left hrow, List.map_id]

theorem run_updateRoleFields_refused (h : FieldsRefused t.db role name) :
    ∃ e, run replica (.updateRoleFields role name description) t = (.error e, t) := by
  obtain ⟨⟨x, hx, hid⟩, h⟩ := h
  simp only [run, Database.updateRoleFields]
  split_ifs with hmissing hlong hname
  · exact absurd hid (by simpa using List.all_eq_true.mp hmissing x hx)
  · exact ⟨_, rfl⟩
  · exact ⟨_, rfl⟩
  · rcases h with h | ⟨y, hy, hne, he⟩
    · exact absurd h hlong
    · exact absurd (List.any_eq_true.mpr ⟨y, hy, by simp [hne, he]⟩) hname

theorem run_updateRoleFields (h : ¬FieldsRefused t.db role name) :
    run replica (.updateRoleFields role name description) t =
      (.ok (), t.editedRole role name description) := by
  by_cases hmissing : ∀ r ∈ t.db.roles, r.id ≠ role
  · simp only [run, Database.updateRoleFields, Tables.editedRole, map_editRole_of_absent hmissing]
    rw [if_pos (by simpa using hmissing)]
    rfl
  · have hrole : ∃ r ∈ t.db.roles, r.id = role := by simpa using hmissing
    simp only [FieldsRefused, hrole, true_and, not_or, not_lt, not_exists, not_and] at h
    simp only [run, Database.updateRoleFields]
    rw [if_neg (by simpa using hrole), if_neg (by simpa using h.1), if_neg (by simpa using h.2)]
    rfl

theorem fieldsRefused_editedRole :
    FieldsRefused (t.editedRole role name description).db role name ↔
      FieldsRefused t.db role name := by
  have hmem : (∃ r ∈ (t.editedRole role name description).db.roles,
      r.id ≠ role ∧ some r.name = name) ↔ ∃ r ∈ t.db.roles, r.id ≠ role ∧ some r.name = name := by
    constructor
    · rintro ⟨_, hedited, hne, he⟩
      obtain ⟨r, hr, rfl⟩ := List.mem_map.mp hedited
      rw [editRole_id] at hne
      rw [editRole_of_ne hne] at he
      exact ⟨r, hr, hne, he⟩
    · rintro ⟨r, hr, hne, he⟩
      exact ⟨r, List.mem_map.mpr ⟨r, hr, editRole_of_ne hne⟩, hne, he⟩
  have hid : (∃ r ∈ (t.editedRole role name description).db.roles, r.id = role) ↔
      ∃ r ∈ t.db.roles, r.id = role := by
    simp [Tables.editedRole, Tables.touchRole]
  rw [FieldsRefused, FieldsRefused, hid, hmem]

/-- The fields are written once however often, and `updated_at` every time. -/
theorem iterate_editedRole (j : ℕ) :
    (Tables.editedRole role name description)^[j + 1] t = { t with
      db := { t.db with roles := t.db.roles.map (editRole role name description) }
      roleUpdates := fun r => if r = role then t.roleUpdates r + (j + 1) else t.roleUpdates r } := by
  induction j with
  | zero => rfl
  | succ j ih =>
    have hupdates : (fun r => if r = role then
        (if r = role then t.roleUpdates r + (j + 1) else t.roleUpdates r) + 1
        else if r = role then t.roleUpdates r + (j + 1) else t.roleUpdates r) =
        fun r => if r = role then t.roleUpdates r + (j + 1 + 1) else t.roleUpdates r := by
      funext r
      by_cases hr : r = role <;> simp [hr, Nat.add_assoc]
    rw [Function.iterate_succ_apply', ih]
    simp only [Tables.editedRole, Tables.touchRole, List.map_map, Function.comp_def, editRole_idem,
      hupdates]

theorem same_editedRole {j : ℕ} : Same t ((Tables.editedRole role name description)^[j] t) ↔
    (0 < j → ∀ r ∈ t.db.roles, r.id ≠ role) := by
  cases j with
  | zero => simp [same_refl]
  | succ j =>
    rw [iterate_editedRole]
    constructor
    · rintro h - r hr rfl
      have := h.roleUpdates r hr
      simp only [if_true] at this
      omega
    · intro h
      refine ⟨rfl, fun _ _ => rfl, rfl, map_editRole_of_absent (h j.succ_pos), fun r hr => ?_,
        fun _ => Iff.rfl, fun _ => Iff.rfl⟩
      exact if_neg (h j.succ_pos r hr)

end fields

/-- The given fields are written, the given permissions are those of the role, and the versions of
all holders are raised. -/
structure RoleUpdated (t : Tables) (role : RoleId) (upd : RoleUpdate) (u : Tables) : Prop where
  fields : ∀ r ∈ t.db.roles, r.id = role → ∃ y ∈ u.db.roles, y.id = role ∧
    y.name = upd.name.getD r.name ∧ y.description = upd.description.or r.description
  permissions : ∀ permissionIds, upd.permissionIds = some permissionIds →
    ∀ p, (role, p) ∈ u.db.rolePermissions ↔ p ∈ permissionIds
  holders : ∀ x ∈ t.db.users, (x.id, role) ∈ t.db.userRoles →
    ∃ y ∈ u.db.users, y.id = x.id ∧ x.tokenVersion < y.tokenVersion

def PairsFit (db : Database) (role : RoleId) (permissionIds : List PermissionId) : Prop :=
  (∃ r ∈ db.roles, r.id = role) ∧ permissionIds.Nodup ∧
    ∀ p ∈ permissionIds, ∃ q ∈ db.permissions, q.id = p

def givesFields (upd : RoleUpdate) : Prop := ¬(upd.name.isNone ∧ upd.description.isNone)

/-! The condition follows the statements; `kept` says that those made so far change nothing. -/

section safe
variable (fates : Fates Statement Sql.DbError) (t : Tables) (role : RoleId)

def NoPairs : Prop := ∀ p, (role, p) ∉ t.db.rolePermissions

def PairsKept (permissionIds : List PermissionId) : Prop :=
  ∀ p, (role, p) ∈ t.db.rolePermissions ↔ p ∈ permissionIds

/-- Versions and the read at the end. -/
def BumpSafe (kept : Prop) : Prop :=
  answers fates (.bumpRoleHolders role) ∧ answers fates (.selectRole role) ∨
    kept ∧ (executes fates (.bumpRoleHolders role) →
      ∀ x ∈ t.db.users, (x.id, role) ∉ t.db.userRoles)

/-- From the insertion of the pairs on. -/
def InsertSafe (permissionIds : List PermissionId) (kept : Prop) : Prop :=
  (PairsFit t.db role permissionIds ∧ answersFirst fates (.insertRolePermissions role permissionIds) →
      BumpSafe fates t role (kept ∧ PairsKept t role permissionIds)) ∧
    (¬(PairsFit t.db role permissionIds ∧
        answersFirst fates (.insertRolePermissions role permissionIds)) →
      kept ∧
      (PairsFit t.db role permissionIds ∧ executes fates (.insertRolePermissions role permissionIds) →
        PairsKept t role permissionIds) ∧
      (¬(PairsFit t.db role permissionIds ∧
          executes fates (.insertRolePermissions role permissionIds)) → NoPairs t role))

/-- From the deletion of the pairs on. -/
def PermissionsSafe (kept : Prop) : Option (List PermissionId) → Prop
  | none => BumpSafe fates t role kept
  | some permissionIds =>
    (answers fates (.deleteRolePermissions role) →
      (permissionIds = [] → BumpSafe fates t role (kept ∧ NoPairs t role)) ∧
      (permissionIds ≠ [] → InsertSafe fates t role permissionIds kept)) ∧
    (¬answers fates (.deleteRolePermissions role) →
      kept ∧ (executes fates (.deleteRolePermissions role) → NoPairs t role))

/-- Every statement comes to its end, or those that are executed change nothing: fields are kept
only when the role does not exist, pairs only when the same ones come back. -/
def UpdateRoleSafe (upd : RoleUpdate) : Prop :=
  (¬givesFields upd → PermissionsSafe fates t role True upd.permissionIds) ∧
  (givesFields upd → ¬FieldsRefused t.db role upd.name →
    (answers fates (.updateRoleFields role upd.name upd.description) →
      PermissionsSafe fates t role (∀ r ∈ t.db.roles, r.id ≠ role) upd.permissionIds) ∧
    (¬answers fates (.updateRoleFields role upd.name upd.description) →
      executes fates (.updateRoleFields role upd.name upd.description) →
      ∀ r ∈ t.db.roles, r.id ≠ role))

end safe

section update
variable {role : RoleId} {upd : RoleUpdate}

theorem bump_allOrNothing (husers : u.db.users = t.db.users) (hupdates : u.userUpdates = t.userUpdates)
    (huserRoles : u.db.userRoles = t.db.userRoles)
    (hend : ∀ j, 0 < j → RoleUpdated t role upd (u.bumped (holds t role) j)) :
    AllOrNothing (Same t) (RoleUpdated t role upd) (Write.exec (do
        ask (.bumpRoleHolders role)
        RoleDAO.getRoleById role) replica fates u) ↔ BumpSafe fates t role (Same t u) := by
  have hrun : ∀ u : Tables, u.db.userRoles = t.db.userRoles →
      run replica (.bumpRoleHolders role) u = (.ok (), u.bumped (holds t role) 1) ∧
        (u.bumped (holds t role) 1).db.userRoles = t.db.userRoles :=
    fun u hu => ⟨run_bumpRoleHolders role hu, hu⟩
  obtain ⟨j, hj, hiff⟩ := ask_repeatable hrun huserRoles
  have hsame : Same t (u.bumped (holds t role) j) ↔ Same t u ∧
      (0 < j → ∀ x ∈ t.db.users, (x.id, role) ∉ t.db.userRoles) :=
    (same_bumped husers hupdates).trans (by simp [holds])
  refine hiff.trans ?_
  unfold BumpSafe
  cases hbumps : answers fates (.bumpRoleHolders role) with
  | false => simp [iterate_bumped, hsame, hj]
  | true =>
    have hpos : 0 < j := hj.mp (executes_of_answers hbumps)
    rw [if_pos rfl, iterate_bumped, RoleDAO.getRoleById, ← Program.bind_pure (ask _), ask_read rfl]
    cases answers fates (.selectRole role) with
    | false => simp [hsame, hj]
    | true => exact iff_of_true (allOrNothing_ok.mpr (hend j hpos)) (.inl ⟨rfl, rfl⟩)

structure FieldsDone (t : Tables) (role : RoleId) (upd : RoleUpdate) (u : Tables) : Prop where
  users : u.db.users = t.db.users
  userUpdates : u.userUpdates = t.userUpdates
  userRoles : u.db.userRoles = t.db.userRoles
  permissions : u.db.permissions = t.db.permissions
  rolePermissions : u.db.rolePermissions = t.db.rolePermissions
  exists_iff : (∃ r ∈ u.db.roles, r.id = role) ↔ ∃ r ∈ t.db.roles, r.id = role
  fields : ∀ r ∈ t.db.roles, r.id = role → ∃ y ∈ u.db.roles, y.id = role ∧
    y.name = upd.name.getD r.name ∧ y.description = upd.description.or r.description

theorem mem_withoutPermissions {x : RoleId × PermissionId} :
    x ∈ (u.withoutPermissions role).db.rolePermissions ↔ x ∈ u.db.rolePermissions ∧ x.1 ≠ role := by
  simp [Tables.withoutPermissions, Tables.setDb, Database.deleteRolePermissions]

theorem same_withoutPermissions (h : FieldsDone t role upd u) :
    Same t (u.withoutPermissions role) ↔ Same t u ∧ NoPairs t role := by
  have hmem (x : RoleId × PermissionId) : x ∈ (u.withoutPermissions role).db.rolePermissions ↔
      x ∈ t.db.rolePermissions ∧ x.1 ≠ role := by
    rw [mem_withoutPermissions, h.rolePermissions]
  constructor
  · intro hsame
    refine ⟨⟨hsame.users, hsame.userUpdates, hsame.userIdentities, hsame.roles, hsame.roleUpdates,
      hsame.userRoles, fun x => by rw [h.rolePermissions]⟩, fun p hp => ?_⟩
    exact ((hmem _).mp ((hsame.rolePermissions _).mpr hp)).2 rfl
  · rintro ⟨hsame, hnone⟩
    refine ⟨hsame.users, hsame.userUpdates, hsame.userIdentities, hsame.roles, hsame.roleUpdates,
      hsame.userRoles, fun x => (hmem x).trans (and_iff_left_of_imp ?_)⟩
    rintro hx rfl
    exact hnone x.2 hx

/-- The pairs that have been deleted and inserted. -/
theorem mem_replaced (h : FieldsDone t role upd u) {permissionIds : List PermissionId}
    {x : RoleId × PermissionId} :
    x ∈ ((u.withoutPermissions role).withPermissions role permissionIds).db.rolePermissions ↔
      x ∈ t.db.rolePermissions ∧ x.1 ≠ role ∨ x.1 = role ∧ x.2 ∈ permissionIds := by
  rw [mem_withPermissions, mem_withoutPermissions, h.rolePermissions]

theorem same_replaced (h : FieldsDone t role upd u) {permissionIds : List PermissionId} :
    Same t ((u.withoutPermissions role).withPermissions role permissionIds) ↔
      Same t u ∧ PairsKept t role permissionIds := by
  constructor
  · intro hsame
    refine ⟨⟨hsame.users, hsame.userUpdates, hsame.userIdentities, hsame.roles, hsame.roleUpdates,
      hsame.userRoles, fun x => by rw [h.rolePermissions]⟩, fun p => ?_⟩
    rw [← hsame.rolePermissions, mem_replaced h]
    simp
  · rintro ⟨hsame, hkept⟩
    refine ⟨hsame.users, hsame.userUpdates, hsame.userIdentities, hsame.roles, hsame.roleUpdates,
      hsame.userRoles, fun x => ?_⟩
    rw [mem_replaced h]
    by_cases hx : x.1 = role
    · subst hx
      simpa using (hkept x.2).symm
    · simp [hx]

theorem permissionsFit_withoutPermissions (h : FieldsDone t role upd u)
    {permissionIds : List PermissionId} :
    PermissionsFit (u.withoutPermissions role).db role permissionIds ↔
      permissionIds.Nodup ∧ ∀ p ∈ permissionIds, ∃ q ∈ t.db.permissions, q.id = p := by
  have hnone (p : PermissionId) : (role, p) ∉ (u.withoutPermissions role).db.rolePermissions :=
    fun hp => (mem_withoutPermissions.mp hp).2 rfl
  have hpermissions : (u.withoutPermissions role).db.permissions = t.db.permissions := h.permissions
  simp [PermissionsFit, hnone, hpermissions]

theorem run_insertRolePermissions_missing {permissionIds : List PermissionId}
    (h : ¬∃ r ∈ u.db.roles, r.id = role) :
    ∃ e, run replica (.insertRolePermissions role permissionIds) u = (.error e, u) := by
  simp only [run, Database.insertRolePermissions]
  rw [if_pos (by simpa using h)]
  exact ⟨_, rfl⟩

theorem insert_allOrNothing (h : FieldsDone t role upd u) {permissionIds : List PermissionId}
    (hids : upd.permissionIds = some permissionIds) (hne : permissionIds ≠ []) :
    AllOrNothing (Same t) (RoleUpdated t role upd) (Write.exec (do
        ask (.insertRolePermissions role permissionIds)
        ask (.bumpRoleHolders role)
        RoleDAO.getRoleById role) replica fates (u.withoutPermissions role)) ↔
      InsertSafe fates t role permissionIds (Same t u) := by
  unfold InsertSafe
  by_cases hfit : PairsFit t.db role permissionIds
  · obtain ⟨hrole, hpairs⟩ := id hfit
    obtain ⟨e, hagain⟩ := run_insertRolePermissions_refused replica
      (not_permissionsFit_withPermissions (u.withoutPermissions role) role hne)
    have hrun := run_insertRolePermissions replica (t := u.withoutPermissions role)
      (h.exists_iff.mpr hrole) ((permissionsFit_withoutPermissions h).mpr hpairs)
    rw [ask_once hrun hagain]
    cases hfirst : answersFirst fates (.insertRolePermissions role permissionIds) with
    | false =>
      cases executes fates (.insertRolePermissions role permissionIds) with
      | false => simp [hfit, same_withoutPermissions h]
      | true => simp [hfit, same_replaced h]
    | true =>
      have hend (j : ℕ) (hj : 0 < j) : RoleUpdated t role upd
          (((u.withoutPermissions role).withPermissions role permissionIds).bumped
            (holds t role) j) := by
        refine ⟨h.fields, fun ids he p => ?_, fun x hx hholds => ?_⟩
        · cases hids.symm.trans he
          exact (mem_replaced h).trans (by simp)
        · exact version_bumped h.users hj hx (decide_eq_true hholds)
      rw [if_pos rfl]
      refine (bump_allOrNothing (u := (u.withoutPermissions role).withPermissions role permissionIds)
        h.users h.userUpdates h.userRoles hend).trans ?_
      simp [hfit, same_replaced h]
  · obtain ⟨e, hrun⟩ : ∃ e, run replica (.insertRolePermissions role permissionIds)
        (u.withoutPermissions role) = (.error e, u.withoutPermissions role) := by
      by_cases hrole : ∃ r ∈ t.db.roles, r.id = role
      · exact run_insertRolePermissions_refused replica
          (fun hpairs => hfit ⟨hrole, (permissionsFit_withoutPermissions h).mp hpairs⟩)
      · exact run_insertRolePermissions_missing (mt h.exists_iff.mp hrole)
    rw [ask_rejected hrun]
    simp [hfit, same_withoutPermissions h]

/-- The parts of `update_role` that follow the fields. -/
theorem permissions_allOrNothing (h : FieldsDone t role upd u) :
    AllOrNothing (Same t) (RoleUpdated t role upd) (Write.exec (do
        RoleDAO.replacePermissions role upd.permissionIds
        ask (.bumpRoleHolders role)
        RoleDAO.getRoleById role) replica fates u) ↔
      PermissionsSafe fates t role (Same t u) upd.permissionIds := by
  cases hids : upd.permissionIds with
  | none =>
    have hend (j : ℕ) (hj : 0 < j) : RoleUpdated t role upd (u.bumped (holds t role) j) := by
      refine ⟨h.fields, fun ids he => ?_, fun x hx hholds => ?_⟩
      · cases hids.symm.trans he
      · exact version_bumped h.users hj hx (decide_eq_true hholds)
    exact bump_allOrNothing h.users h.userUpdates h.userRoles hend
  | some permissionIds =>
    have hrun : ∀ u : Tables, True → run replica (.deleteRolePermissions role) u =
        (.ok (), u.withoutPermissions role) ∧ True := fun _ _ => ⟨rfl, trivial⟩
    have hidem : (u.withoutPermissions role).withoutPermissions role = u.withoutPermissions role := by
      simp [Tables.withoutPermissions, Tables.setDb, Database.deleteRolePermissions]
    obtain ⟨j, hj, hiff⟩ := ask_repeatable hrun (t := u) trivial
    unfold PermissionsSafe RoleDAO.replacePermissions RoleDAO.insertPermissions
    rw [Program.bind_assoc]
    refine hiff.trans ?_
    cases hdeletes : answers fates (.deleteRolePermissions role) with
    | false =>
      rcases Nat.eq_zero_or_pos j with rfl | hpos
      · simp [hj]
      · simp [hj, hpos, iterate_of_idem hidem hpos, same_withoutPermissions h]
    | true =>
      rw [iterate_of_idem hidem (hj.mp (executes_of_answers hdeletes)), if_pos rfl]
      by_cases hempty : permissionIds = []
      · have hend (j : ℕ) (hj : 0 < j) :
            RoleUpdated t role upd ((u.withoutPermissions role).bumped (holds t role) j) := by
          refine ⟨h.fields, fun ids he p => ?_, fun x hx hholds => ?_⟩
          · cases hids.symm.trans he
            exact iff_of_false (fun hp => (mem_withoutPermissions.mp hp).2 rfl) (by simp [hempty])
          · exact version_bumped h.users hj hx (decide_eq_true hholds)
        rw [if_pos hempty, Program.pure_bind]
        refine (bump_allOrNothing (u := u.withoutPermissions role) h.users h.userUpdates
          h.userRoles hend).trans ?_
        simp [hempty, same_withoutPermissions h]
      · rw [if_neg hempty, insert_allOrNothing h hids hempty]
        simp [hempty]

theorem fieldsDone_iterate {j : ℕ} (hj : 0 < j) : FieldsDone t role upd
    ((Tables.editedRole role upd.name upd.description)^[j] t) := by
  obtain ⟨i, rfl⟩ := Nat.exists_eq_succ_of_ne_zero hj.ne'
  rw [Nat.succ_eq_add_one, iterate_editedRole]
  refine ⟨rfl, rfl, rfl, rfl, rfl, by simp, ?_⟩
  rintro r hr rfl
  have hrow : editRole r.id upd.name upd.description r =
      { r with name := upd.name.getD r.name, description := upd.description.or r.description } :=
    if_pos rfl
  refine ⟨editRole r.id upd.name upd.description r, List.mem_map_of_mem hr, editRole_id r, ?_, ?_⟩
  · rw [hrow]
  · rw [hrow]

theorem updateRole_allOrNothing :
    AllOrNothing (Same t) (RoleUpdated t role upd)
        ((RoleDAO.updateRole role upd).exec replica fates t) ↔
      UpdateRoleSafe fates t role upd := by
  unfold RoleDAO.updateRole RoleDAO.updateFields UpdateRoleSafe
  by_cases hgives : givesFields upd
  swap
  · have hnone : upd.name.isNone ∧ upd.description.isNone := not_not.mp hgives
    have hdone : FieldsDone t role upd t := by
      refine ⟨rfl, rfl, rfl, rfl, rfl, Iff.rfl, fun r hr hid => ⟨r, hr, hid, ?_, ?_⟩⟩
      · simp [Option.isNone_iff_eq_none.mp hnone.1]
      · simp [Option.isNone_iff_eq_none.mp hnone.2]
    rw [if_pos hnone, Program.pure_bind, permissions_allOrNothing hdone]
    simp [hgives, same_refl]
  have hsome : ¬(upd.name.isNone ∧ upd.description.isNone) := hgives
  rw [if_neg hsome]
  by_cases hrefused : FieldsRefused t.db role upd.name
  · obtain ⟨e, hrun⟩ := run_updateRoleFields_refused replica (t := t) hrefused
    rw [ask_rejected hrun]
    simp [hgives, hrefused, same_refl]
  · have hrun : ∀ u : Tables, ¬FieldsRefused u.db role upd.name →
        run replica (.updateRoleFields role upd.name upd.description) u =
            (.ok (), u.editedRole role upd.name upd.description) ∧
          ¬FieldsRefused (u.editedRole role upd.name upd.description).db role upd.name :=
      fun u hu => ⟨run_updateRoleFields replica hu, mt fieldsRefused_editedRole.mp hu⟩
    obtain ⟨j, hj, hiff⟩ := ask_repeatable hrun hrefused
    refine hiff.trans ?_
    cases hanswers : answers fates (.updateRoleFields role upd.name upd.description) with
    | false => simp [hgives, hrefused, same_editedRole, hj]
    | true =>
      have hpos : 0 < j := hj.mp (executes_of_answers hanswers)
      have hkept : Same t ((Tables.editedRole role upd.name upd.description)^[j] t) =
          ∀ r ∈ t.db.roles, r.id ≠ role := propext (same_editedRole.trans (imp_iff_right hpos))
      rw [if_pos rfl, permissions_allOrNothing (fieldsDone_iterate hpos), hkept]
      simp [hgives, hrefused]

end update

/-! ## `delete_role` -/

def RoleAbsent (db : Database) (role : RoleId) : Prop :=
  (∀ r ∈ db.roles, r.id ≠ role) ∧ (∀ x ∈ db.userRoles, x.2 ≠ role) ∧
    ∀ x ∈ db.rolePermissions, x.1 ≠ role

structure RoleDeleted (t : Tables) (role : RoleId) (u : Tables) : Prop where
  absent : RoleAbsent u.db role
  holders : ∀ x ∈ t.db.users, (x.id, role) ∈ t.db.userRoles →
    ∃ y ∈ u.db.users, y.id = x.id ∧ x.tokenVersion < y.tokenVersion

/-- Only a `COMMIT` whose answer is lost can leave the role deleted behind an exception. -/
def DeleteRoleSafe (fates : Fates Statement Sql.DbError) (t : Tables) (role : RoleId) : Prop :=
  fates.attempt (.bumpRoleHolders role) 0 = .answered →
    fates.attempt (.deleteRole role) 0 = .answered →
    (∃ e, fates.commit = .lost e) → RoleAbsent t.db role

def Tables.withoutRole (t : Tables) (role : RoleId) : Tables :=
  (t.bumped (holds t role) 1).setDb ((t.bumped (holds t role) 1).db.deleteRoles [role]).2

theorem roleDeleted_withoutRole (t : Tables) (role : RoleId) :
    RoleDeleted t role (t.withoutRole role) := by
  refine ⟨⟨?_, ?_, ?_⟩, fun x hx hholds => ?_⟩
  · simp [Tables.withoutRole, Tables.setDb, Database.deleteRoles]
  · simp [Tables.withoutRole, Tables.setDb, Database.deleteRoles]
  · simp [Tables.withoutRole, Tables.setDb, Database.deleteRoles]
  · exact version_bumped (j := 1) rfl one_pos hx (decide_eq_true hholds)

theorem same_withoutRole {role : RoleId} : Same t (t.withoutRole role) ↔ RoleAbsent t.db role := by
  constructor
  · intro h
    have hgone := (roleDeleted_withoutRole t role).absent
    refine ⟨fun r hr => hgone.1 r (h.roles.symm ▸ hr),
      fun x hx => hgone.2.1 x ((h.userRoles x).mpr hx),
      fun x hx => hgone.2.2 x ((h.rolePermissions x).mpr hx)⟩
  · rintro ⟨hroles, husers, hpermissions⟩
    have hbumped : Same t (t.bumped (holds t role) 1) :=
      (same_bumped rfl rfl).mpr ⟨same_refl t, fun _ x _ hx =>
        husers _ (of_decide_eq_true hx) rfl⟩
    refine ⟨hbumped.users, hbumped.userUpdates, rfl, ?_, fun _ _ => rfl, fun x => ?_, fun x => ?_⟩
    · exact List.filter_eq_self.mpr (fun r hr => by simpa using hroles r hr)
    · simpa [Tables.withoutRole, Tables.setDb, Database.deleteRoles, Tables.bumped,
        Database.mapUsers] using husers x
    · simpa [Tables.withoutRole, Tables.setDb, Database.deleteRoles, Tables.bumped,
        Database.mapUsers] using hpermissions x

theorem deleteRole_allOrNothing (role : RoleId) :
    AllOrNothing (Same t) (RoleDeleted t role)
        ((RoleDAO.deleteRole role).exec replica fates t) ↔ DeleteRoleSafe fates t role := by
  have hkept (e : Raised DbError Sql.DbError) :
      AllOrNothing (Same t) (RoleDeleted t role) ((.error e, t) : Except _ Unit × Tables) :=
    allOrNothing_error.mpr (fun _ => same_refl t)
  rw [RoleDAO.deleteRole, Write.exec, execute_transaction]
  unfold DeleteRoleSafe
  simp only [runTransaction, runBody, runAttempt, run_bumpRoleHolders role rfl]
  cases fates.attempt (.bumpRoleHolders role) 0 with
  | refused e => exact iff_of_true (hkept _) nofun
  | lost e => exact iff_of_true (hkept _) nofun
  | answered =>
    cases fates.attempt (.deleteRole role) 0 with
    | refused e => exact iff_of_true (hkept _) nofun
    | lost e => exact iff_of_true (hkept _) nofun
    | answered =>
      cases fates.commit with
      | refused e => exact iff_of_true (hkept _) nofun
      | answered =>
        exact iff_of_true (allOrNothing_ok.mpr (roleDeleted_withoutRole t role)) nofun
      | lost e =>
        have hend : AllOrNothing (Same t) (RoleDeleted t role)
            ((.error (.connection e), t.withoutRole role) : Except (Raised DbError _) Unit × Tables) ↔
              Same t (t.withoutRole role) :=
          allOrNothing_error.trans (imp_iff_right trivial)
        refine hend.trans (same_withoutRole.trans ?_)
        exact ⟨fun h _ _ _ => h, fun h => h rfl rfl ⟨e, rfl⟩⟩

end FastapiTemplate.AccountWrites
