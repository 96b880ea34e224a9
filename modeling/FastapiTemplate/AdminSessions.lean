import FastapiTemplate.StalePrivileges
import FastapiTemplate.SecondFactorGate

/-!
# Sessions of the admin portal

The login of the portal checks that the user is active and holds the role, and
freezes the answer into a signed session. `authenticate` reads the session and
nothing else, so whether an admitted request still belongs to a super admin depends
on every later operation on users and roles.
-/

namespace FastapiTemplate

variable {s t : State}

def Database.SuperAdmin (db : Database) (user : UserId) : Prop :=
  (∃ u ∈ db.users, u.id = user ∧ u.isActive) ∧
    ∃ r ∈ db.roles, (user, r.id) ∈ db.userRoles ∧ r.name = "Super Admin"

def Database.AdminOutside (db : Database) (ids : List RoleId) (user : UserId) : Prop :=
  ∃ r ∈ db.roles, (user, r.id) ∈ db.userRoles ∧ r.name = "Super Admin" ∧ r.id ∉ ids

def UsersKept (us vs : List UserRow) : Prop :=
  ∀ u ∈ us, ∃ v ∈ vs, v.id = u.id ∧ v.isActive = u.isActive

theorem UsersKept.refl (us : List UserRow) : UsersKept us us := fun u hu => ⟨u, hu, rfl, rfl⟩

theorem UsersKept.map (us : List UserRow) {f : UserRow → UserRow}
    (hf : ∀ u, (f u).id = u.id ∧ (f u).isActive = u.isActive) : UsersKept us (us.map f) :=
  fun u hu => ⟨f u, List.mem_map_of_mem hu, hf u⟩

theorem UsersKept.mapWhere (us : List UserRow) (p : UserRow → Prop) [DecidablePred p]
    {f : UserRow → UserRow} (hf : ∀ u, (f u).id = u.id ∧ (f u).isActive = u.isActive) :
    UsersKept us (us.map (fun u => if p u then f u else u)) := by
  apply UsersKept.map
  intro u
  by_cases hp : p u
  · simpa only [if_pos hp] using hf u
  · simp only [if_neg hp, and_self]

theorem Database.SuperAdmin.mono {db db' : Database} {user : UserId} (h : db.SuperAdmin user)
    (husers : UsersKept db.users db'.users)
    (hroles : ∀ r ∈ db.roles, r ∈ db'.roles)
    (huserRoles : ∀ x ∈ db.userRoles, x ∈ db'.userRoles) : db'.SuperAdmin user := by
  obtain ⟨⟨u, hu, hid, hactive⟩, r, hr, hur, hname⟩ := h
  obtain ⟨v, hv, hvid, hvactive⟩ := husers u hu
  exact ⟨⟨v, hv, hvid.trans hid, hvactive.trans hactive⟩, r, hroles r hr, huserRoles _ hur, hname⟩

/-! ## Calls that keep the status -/

def Call.keepsAdmins : Call → Bool
  | .deleteUsers _ => false
  | .deleteRoles _ => false
  | .deleteRoleTransaction _ => false
  | .updateRoleFields .. => false
  | _ => true

theorem handler_usersKept (c : Call) (s : State) (hkeeps : c.keepsAdmins) :
    UsersKept s.db.users (handler c s).2.db.users := by
  cases c with
  | insertUser user hash =>
    simp only [handler]
    rcases s.db.insertUser_cases s.nextId user hash with ⟨e, h⟩ | ⟨row, -, -, -, h⟩
    · rw [h]
      exact .refl _
    · rw [h]
      exact fun u hu => ⟨u, List.mem_append_left _ hu, rfl, rfl⟩
  | updateUser user upd =>
    simp only [handler]
    rcases s.db.updateUser_cases user upd with h | ⟨f, hf, h⟩
    · rw [h]
      exact .refl _
    · rw [h]
      exact .map _ (fun u => ⟨(hf u).1, (hf u).2.2.1⟩)
  | updatePassword user hash => exact .mapWhere _ (fun u => u.id = user) (fun _ => ⟨rfl, rfl⟩)
  | bumpTokenVersion user => exact .mapWhere _ (fun u => u.id = user) (fun _ => ⟨rfl, rfl⟩)
  | bumpRoleHolders role =>
    exact .mapWhere _ (fun u => (u.id, role) ∈ s.db.userRoles) (fun _ => ⟨rfl, rfl⟩)
  | deleteUsers ids => cases hkeeps
  | deleteRoles ids => cases hkeeps
  | deleteRoleTransaction role => cases hkeeps
  | updateRoleFields role name description => cases hkeeps
  | insertIdentity user info =>
    simp only [handler]
    rcases s.db.insertIdentity_cases user info with ⟨e, h⟩ | ⟨rows, h⟩ <;> rw [h] <;> exact .refl _
  | redisSet key value ex =>
    simp only [handler, redisSet_db]
    exact .refl _
  | redisDelete key => exact .refl _
  | _ =>
    rw [(handler_frame _ s).users (by simp [Call.Avoids, Call.area])]
    exact .refl _

theorem handler_superAdmin (c : Call) (s : State) (hkeeps : c.keepsAdmins) {user : UserId}
    (h : s.db.SuperAdmin user) : (handler c s).2.db.SuperAdmin user := by
  have husers := handler_usersKept c s hkeeps
  cases c with
  | insertUserRoles user' roleIds =>
    rcases s.db.insertUserRoles_cases user' roleIds with ⟨e, hc⟩ | ⟨new, hc⟩
    · simpa [handler, hc] using h
    · simp only [handler, hc, State.setDb_db]
      exact h.mono (.refl _) (fun _ => id) (fun _ hx => List.mem_append_left _ hx)
  | insertRole name description =>
    rcases s.db.insertRole_cases s.nextId name description with ⟨e, hc⟩ | hc
    · simpa [handler, hc] using h
    · simp only [handler, hc]
      exact h.mono (.refl _) (fun _ hr => List.mem_append_left _ hr) (fun _ => id)
  | insertRolePermissions role permissionIds =>
    rcases s.db.insertRolePermissions_cases role permissionIds with ⟨e, hc⟩ | hc
    · simpa [handler, hc] using h
    · simp only [handler, hc, State.setDb_db]
      exact h.mono (.refl _) (fun _ => id) (fun _ => id)
  | deleteRolePermissions role => exact h.mono husers (fun _ => id) (fun _ => id)
  | deleteUsers ids => cases hkeeps
  | deleteRoles ids => cases hkeeps
  | deleteRoleTransaction role => cases hkeeps
  | updateRoleFields role name description => cases hkeeps
  | redisSet key value ex => simpa [handler] using h
  | redisDelete key => exact h
  | _ =>
    apply h.mono husers
    · rw [(handler_frame _ s).roles (by simp [Call.Avoids, Call.area])]
      exact fun _ => id
    · rw [(handler_frame _ s).userRoles (by simp [Call.Avoids, Call.area])]
      exact fun _ => id

/-- A program of such calls keeps the status of everyone. -/
theorem makes_superAdmin {α : Type} {p : App α} (hp : p.Makes (fun c => c.keepsAdmins = true))
    {user : UserId} (h : s.db.SuperAdmin user) : (p.exec s).2.db.SuperAdmin user :=
  hp.execute_rel handler (fun s t => s.db.SuperAdmin user → t.db.SuperAdmin user) (fun _ => id)
    (fun _ _ _ h h' => h' ∘ h) (fun c hc s => handler_superAdmin c s hc) s h

theorem keepsAdmins_of_within {areas : List Area} {c : Call} (h : c.Within areas)
    (hd : ∀ a ∈ [Area.grants, .withdrawal, .roleRemoval, .removal], a ∉ areas) :
    c.keepsAdmins = true := by
  cases c with
  | deleteUsers ids => exact absurd (h _ rfl) (hd _ (by simp))
  | deleteRoles ids => exact absurd (h _ rfl) (hd _ (by simp))
  | deleteRoleTransaction role => exact absurd (h _ rfl) (hd _ (by simp))
  | updateRoleFields role name description => exact absurd (h _ rfl) (hd _ (by simp))
  | _ => rfl

theorem WritesOnly.exec_superAdmin {α : Type} {areas : List Area} {p : App α}
    (hp : WritesOnly areas p)
    (hd : ∀ a ∈ [Area.grants, .withdrawal, .roleRemoval, .removal], a ∉ areas) {user : UserId}
    (h : s.db.SuperAdmin user) : (p.exec s).2.db.SuperAdmin user :=
  makes_superAdmin (Program.Makes.mono hp (fun _ hc => keepsAdmins_of_within hc hd)) h

/-! ## Statements that can take the status away -/

theorem Database.deleteUsers_superAdmin (db : Database) (ids : List UserId) (user : UserId) :
    (db.deleteUsers ids).2.SuperAdmin user ↔ db.SuperAdmin user ∧ user ∉ ids := by
  constructor
  · rintro ⟨⟨u, hu, hid, hactive⟩, r, hr, hur, hname⟩
    obtain ⟨hu, hids⟩ := List.mem_filter.mp hu
    have huser : user ∉ ids := by simpa [hid] using hids
    exact ⟨⟨⟨u, hu, hid, hactive⟩, r, hr, (List.mem_filter.mp hur).1, hname⟩, huser⟩
  · rintro ⟨⟨⟨u, hu, hid, hactive⟩, r, hr, hur, hname⟩, hids⟩
    refine ⟨⟨u, ?_, hid, hactive⟩, r, hr, ?_, hname⟩
    · exact List.mem_filter.mpr ⟨hu, by simpa [hid] using hids⟩
    · exact List.mem_filter.mpr ⟨hur, by simpa using hids⟩

theorem Database.deleteRoles_superAdmin (db : Database) (ids : List RoleId) (user : UserId) :
    (db.deleteRoles ids).2.SuperAdmin user ↔
      (∃ u ∈ db.users, u.id = user ∧ u.isActive) ∧ db.AdminOutside ids user := by
  constructor
  · rintro ⟨hactive, r, hr, hur, hname⟩
    obtain ⟨hr, hids⟩ := List.mem_filter.mp hr
    exact ⟨hactive, r, hr, (List.mem_filter.mp hur).1, hname, by simpa using hids⟩
  · rintro ⟨hactive, r, hr, hur, hname, hids⟩
    refine ⟨hactive, r, ?_, ?_, hname⟩
    · exact List.mem_filter.mpr ⟨hr, by simpa using hids⟩
    · exact List.mem_filter.mpr ⟨hur, by simpa using hids⟩

theorem Database.updateRoleFields_none (db : Database) (role : RoleId) :
    db.updateRoleFields role none none = (.ok (), db) := by
  have hsame : db.roles.map (fun r => if r.id = role then r else r) = db.roles := by
    simp only [ite_self, List.map_id']
  unfold updateRoleFields
  split_ifs with hmissing hlong hname
  · rfl
  · exact absurd hlong (by decide)
  · simp at hname
  · exact congrArg (Prod.mk _) (congrArg (fun rs => { db with roles := rs }) hsame)

/-- The update gives the role another name, and the user does not hold the old one twice. -/
def Database.RenamesAdmin (db : Database) (role : RoleId) (name description : Option String)
    (user : UserId) : Prop :=
  (∃ n, name = some n ∧ n ≠ "Super Admin") ∧ (db.updateRoleFields role name description).1.isOk ∧
    ¬ db.AdminOutside [role] user

theorem Database.updateRoleFields_superAdmin {db : Database} {user : UserId}
    (h : db.SuperAdmin user) (role : RoleId) (name description : Option String) :
    (db.updateRoleFields role name description).2.SuperAdmin user ↔
      ¬ db.RenamesAdmin role name description user := by
  obtain ⟨hactive, r, hr, hur, hadmin⟩ := h
  unfold RenamesAdmin updateRoleFields
  split_ifs with hmissing hlong hdup
  · -- no row has the identifier
    have hne : r.id ∉ [role] := by simpa using (List.all_eq_true.mp hmissing) r hr
    have houtside : db.AdminOutside [role] user := ⟨r, hr, hur, hadmin, hne⟩
    exact iff_of_true ⟨hactive, r, hr, hur, hadmin⟩ (fun hren => hren.2.2 houtside)
  · exact iff_of_true ⟨hactive, r, hr, hur, hadmin⟩ (fun hren => by cases hren.2.1)
  · exact iff_of_true ⟨hactive, r, hr, hur, hadmin⟩ (fun hren => by cases hren.2.1)
  · constructor
    · rintro ⟨-, r', hr', hur', hadmin'⟩ ⟨⟨n, rfl, hn⟩, -, houtside⟩
      obtain ⟨old, hold, rfl⟩ := List.mem_map.mp hr'
      by_cases hid : old.id = role
      · rw [if_pos hid] at hadmin'
        exact hn hadmin'
      · rw [if_neg hid] at hur' hadmin'
        exact houtside ⟨old, hold, hur', hadmin', by simpa using hid⟩
    · intro hnot
      refine ⟨hactive, ?_⟩
      by_cases houtside : db.AdminOutside [role] user
      · obtain ⟨r', hr', hur', hadmin', hid⟩ := houtside
        have hid' : ¬ r'.id = role := by simpa using hid
        exact ⟨r', List.mem_map.mpr ⟨r', hr', if_neg hid'⟩, hur', hadmin'⟩
      · have hname : name.getD r.name = "Super Admin" := by
          cases name with
          | none => exact hadmin
          | some n =>
            by_contra hn
            exact hnot ⟨⟨n, rfl, hn⟩, rfl, houtside⟩
        refine ⟨_, List.mem_map_of_mem hr, ?_⟩
        by_cases hid : r.id = role
        · rw [if_pos hid]
          exact ⟨hur, hname⟩
        · rw [if_neg hid]
          exact ⟨hur, hadmin⟩

/-! ## Operations -/

def Op.RevokesAdmin (db : Database) (user : UserId) : Op → Prop
  | .deleteUsers ids => user ∈ ids
  | .deleteRole role => ¬ db.AdminOutside [role] user
  | .deleteRoles ids => ¬ db.AdminOutside ids user
  | .updateRole role upd => db.RenamesAdmin role upd.name upd.description user
  | _ => False

theorem deleteUsers_exec (ids : List UserId) (s : State) :
    ((UserDAO.deleteUsers ids).exec s).2.db.SuperAdmin = (s.db.deleteUsers ids).2.SuperAdmin := by
  funext user
  unfold UserDAO.deleteUsers
  split_ifs with hids
  · rw [(s.db.deleteUsers_superAdmin ids user).eq, hids]
    simp
  · rfl

theorem updateFields_exec (role : RoleId) (upd : RoleUpdate) (s : State) :
    ((RoleDAO.updateFields role upd).exec s).2 =
      s.setDb (s.db.updateRoleFields role upd.name upd.description).2 := by
  unfold RoleDAO.updateFields
  split_ifs with hnone
  · obtain ⟨hname, hdescription⟩ := hnone
    rw [Option.isNone_iff_eq_none.mp hname, Option.isNone_iff_eq_none.mp hdescription,
      Database.updateRoleFields_none]
    rfl
  · rw [exec_ask_bind]
    simp only [handler]
    cases (s.db.updateRoleFields role upd.name upd.description).1 <;> rfl

def Call.keepsRoles : Call → Bool
  | .deleteRolePermissions _ => true
  | .insertRolePermissions .. => true
  | .bumpRoleHolders _ => true
  | .selectRole _ => true
  | _ => false

theorem handler_keepsRoles (c : Call) (s : State) (h : c.keepsRoles) :
    (handler c s).2.db.roles = s.db.roles ∧ (handler c s).2.db.userRoles = s.db.userRoles ∧
      UsersKept (handler c s).2.db.users s.db.users := by
  cases c with
  | deleteRolePermissions role => exact ⟨rfl, rfl, .refl _⟩
  | insertRolePermissions role permissionIds =>
    simp only [handler]
    rcases s.db.insertRolePermissions_cases role permissionIds with ⟨e, hc⟩ | hc <;> rw [hc] <;>
      exact ⟨rfl, rfl, .refl _⟩
  | bumpRoleHolders role =>
    refine ⟨rfl, rfl, fun v hv => ?_⟩
    obtain ⟨u, hu, rfl⟩ := List.mem_map.mp hv
    by_cases hholder : (u.id, role) ∈ s.db.userRoles
    · exact ⟨u, hu, by rw [if_pos hholder], by rw [if_pos hholder]⟩
    · exact ⟨u, hu, by rw [if_neg hholder], by rw [if_neg hholder]⟩
  | selectRole role => exact ⟨rfl, rfl, .refl _⟩
  | _ => cases h

theorem handler_superAdmin_iff (c : Call) (s : State) (h : c.keepsRoles) (user : UserId) :
    (handler c s).2.db.SuperAdmin user ↔ s.db.SuperAdmin user := by
  constructor
  · intro hafter
    obtain ⟨hroles, huserRoles, husers⟩ := handler_keepsRoles c s h
    exact hafter.mono husers (fun _ hr => hroles ▸ hr) (fun _ hx => huserRoles ▸ hx)
  · apply handler_superAdmin c s
    cases c <;> first | rfl | cases h

theorem exec_bind_rel {α β : Type} (Rel : State → State → Prop) (hrefl : ∀ s, Rel s s) (p : App β)
    {f : β → App α} (hf : ∀ b s, Rel s ((f b).exec s).2) (s : State) :
    Rel (p.exec s).2 ((p >>= f).exec s).2 := by
  rcases h : p.exec s with ⟨e | b, t⟩
  · rw [exec_bind_of_error h]
    exact hrefl t
  · rw [exec_bind_of_ok h]
    exact hf b t

theorem makes_ofDb {P : Call → Prop} {α : Type} (r : Except DbError α) : (App.ofDb r).Makes P := by
  cases r <;> trivial

theorem makes_ask {P : Call → Prop} {c : Call} (h : P c) : (App.ask c).Makes P :=
  (Program.makes_perform c).mpr h

/-- The parts of an update of a role after its fields have been written. -/
theorem replacePermissions_keepsRoles (role : RoleId) (ids : Option (List PermissionId)) :
    (RoleDAO.replacePermissions role ids).Makes (fun c => c.keepsRoles = true) := by
  cases ids with
  | none => trivial
  | some ids =>
    refine .bind (makes_ask rfl) (fun _ => ?_)
    unfold RoleDAO.insertPermissions
    split_ifs
    · trivial
    · exact .bind (makes_ask rfl) makes_ofDb

theorem updateRole_superAdmin (role : RoleId) (upd : RoleUpdate) (s : State) (user : UserId) :
    ((RoleDAO.updateRole role upd).exec s).2.db.SuperAdmin user ↔
      (s.db.updateRoleFields role upd.name upd.description).2.SuperAdmin user := by
  let rest : App (Option RoleData) := do
    RoleDAO.replacePermissions role upd.permissionIds
    App.ask (.bumpRoleHolders role)
    RoleDAO.getRoleById role
  have hrest : rest.Makes (fun c => c.keepsRoles = true) :=
    .bind (replacePermissions_keepsRoles role _) (fun _ =>
      .bind (makes_ask rfl) (fun _ => makes_ask rfl))
  have hkeeps (s : State) : (rest.exec s).2.db.SuperAdmin user ↔ s.db.SuperAdmin user :=
    hrest.execute_rel handler (fun s t => t.db.SuperAdmin user ↔ s.db.SuperAdmin user)
      (fun _ => Iff.rfl) (fun _ _ _ h h' => h'.trans h)
      (fun c hc s => handler_superAdmin_iff c s hc user) s
  have hbind := exec_bind_rel (fun s t => t.db.SuperAdmin user ↔ s.db.SuperAdmin user)
    (fun _ => Iff.rfl) (RoleDAO.updateFields role upd) (fun _ => hkeeps) s
  rw [updateFields_exec] at hbind
  exact hbind

theorem assignRoles_keepsAdmins (user : UserId) (roleIds : List RoleId) :
    (UserDAO.assignRoles user roleIds).Makes (fun c => c.keepsAdmins = true) := by
  unfold UserDAO.assignRoles
  split_ifs
  · trivial
  · exact .bind (makes_ask rfl) (fun _ => .bind (makes_ask rfl) (fun _ => makes_ofDb _))

theorem createRole_keepsAdmins (roleCreate : RoleCreate) :
    (RoleDAO.createRole roleCreate).Makes (fun c => c.keepsAdmins = true) := by
  unfold RoleDAO.createRole RoleDAO.insertPermissions
  refine .bind (makes_ask rfl) (fun inserted => .bind (makes_ofDb inserted) (fun role => ?_))
  refine .bind ?_ (fun _ => .bind (makes_ask rfl) (fun found => ?_))
  · split_ifs
    · trivial
    · exact .bind (makes_ask rfl) makes_ofDb
  · cases found <;> trivial

variable [External]

/-- An operation takes the status of a super admin exactly if it is one of the four kinds. -/
theorem Op.exec_superAdmin (op : Op) {user : UserId} (h : s.db.SuperAdmin user) :
    (op.program.exec s).2.db.SuperAdmin user ↔ ¬ op.RevokesAdmin s.db user := by
  cases op with
  | deleteUsers ids =>
    rw [program, exec_map_state, deleteUsers_exec, Database.deleteUsers_superAdmin]
    exact and_iff_right h
  | deleteRole role =>
    have hbump : (s.db.bumpRoleHolders role).SuperAdmin user :=
      (handler_superAdmin_iff (.bumpRoleHolders role) s rfl user).mpr h
    have hdelete := (s.db.bumpRoleHolders role).deleteRoles_superAdmin [role] user
    rw [RevokesAdmin, not_not]
    exact hdelete.trans (and_iff_right hbump.1)
  | deleteRoles ids =>
    rw [program, exec_map_state, RevokesAdmin, not_not]
    have hdelete := (s.db.deleteRoles_superAdmin ids user).trans (and_iff_right h.1)
    unfold RoleDAO.deleteRoles
    split_ifs with hids
    · obtain ⟨r, hr, hur, hname⟩ := h.2
      exact iff_of_true h ⟨r, hr, hur, hname, by simp [hids]⟩
    · exact hdelete
  | updateRole role upd =>
    rw [program, exec_map_state, updateRole_superAdmin]
    exact Database.updateRoleFields_superAdmin h role upd.name upd.description
  | assignRoles user' roleIds =>
    rw [program, exec_map_state]
    exact iff_of_true (makes_superAdmin (assignRoles_keepsAdmins user' roleIds) h) id
  | createRole roleCreate =>
    rw [program, exec_map_state]
    exact iff_of_true (makes_superAdmin (createRole_keepsAdmins roleCreate) h) id
  | _ => exact iff_of_true ((Op.program_writes _).exec_superAdmin (by simp [areas]) h) id

/-! ## Sessions -/

def Response.adminData : Response → Option AdminData
  | .adminSession data => some (FastapiTemplate.adminData data)
  | _ => none

theorem AdminSignIn.superAdmin {username password : String} {user : UserData}
    (h : AdminSignIn s username password user) : s.db.SuperAdmin user.id := by
  have hread : ∃ w, s.db.selectUser w = some user := by
    have haccount := h.account
    unfold Database.adminAccount at haccount
    rcases Option.or_eq_some_iff.mp haccount with hemail | ⟨-, husername⟩
    · exact ⟨_, hemail⟩
    · exact ⟨_, husername⟩
  obtain ⟨w, hw⟩ := hread
  obtain ⟨u, hu, -, rfl⟩ := selectUser_eq_some hw
  obtain ⟨role, hrole, hname⟩ := List.any_eq_true.mp h.role
  obtain ⟨r, hr, rfl⟩ := List.mem_map.mp hrole
  obtain ⟨hr, hur⟩ := List.mem_filter.mp hr
  exact ⟨⟨u, hu, rfl, h.active⟩, r, hr, of_decide_eq_true hur, of_decide_eq_true hname⟩

/-- A session is handed out to super admins only. -/
theorem Op.adminData_superAdmin {op : Op} {r : Response} {d : AdminData}
    (h : op.program.exec s = (.ok r, t)) (hd : r.adminData = some d) : t.db.SuperAdmin d.id := by
  cases op with
  | adminLogin username password =>
    obtain ⟨user, hlogin, rfl⟩ := exec_map_ok.mp h
    obtain ⟨rfl, hsignIn⟩ := adminLogin_ok_iff.mp hlogin
    cases hd
    exact hsignIn.superAdmin
  | authenticateUser username password request =>
    obtain ⟨l, -, rfl⟩ := exec_map_ok.mp h
    cases l <;> cases hd
  | _ =>
    obtain ⟨l, -, rfl⟩ := exec_map_ok.mp h
    cases hd

namespace World

def adminSessions (w : World) : List AdminData := w.log.filterMap (·.2.adminData)

/-- Whoever is let through with one of these sessions is a super admin at this moment. -/
def AccessCurrent (w : World) : Prop :=
  ∀ session ∈ w.adminSessions, ∀ access, authenticate (some session) = some access →
    w.state.db.SuperAdmin access.actorId

def EndsAdmin (w : World) : Event → Prop
  | .advance _ => False
  | .call op => ∃ session ∈ w.adminSessions, op.RevokesAdmin w.state.db session.id

omit [External] in
theorem accessCurrent_iff {w : World} :
    AccessCurrent w ↔ ∀ session ∈ w.adminSessions, w.state.db.SuperAdmin session.id := by
  constructor
  · intro h session hsession
    exact h session hsession _ rfl
  · intro h session hsession access haccess
    cases haccess
    exact h session hsession

theorem step_adminSessions (w : World) (op : Op) (session : AdminData) :
    session ∈ (w.step (.call op)).adminSessions ↔ session ∈ w.adminSessions ∨
      ∃ r t, op.program.exec w.state = (.ok r, t) ∧ r.adminData = some session := by
  simp only [step]
  rcases op.program.exec w.state with ⟨_ | r, t⟩ <;> simp [record, adminSessions]

theorem accessCurrent_step {w : World} (h : AccessCurrent w) (e : Event) :
    AccessCurrent (w.step e) ↔ ¬ EndsAdmin w e := by
  rw [accessCurrent_iff] at h
  cases e with
  | advance d => exact iff_of_true (accessCurrent_iff.mpr h) id
  | call op =>
    rw [accessCurrent_iff, step_state]
    constructor
    · rintro hafter ⟨session, hsession, hrevokes⟩
      have hlater := hafter session ((step_adminSessions w op session).mpr (.inl hsession))
      exact (op.exec_superAdmin (h session hsession)).mp hlater hrevokes
    · intro hspares session hsession
      rcases (step_adminSessions w op session).mp hsession with hold | ⟨r, t, hexec, hdata⟩
      · apply (op.exec_superAdmin (h session hold)).mpr
        intro hrevokes
        exact hspares ⟨session, hold, hrevokes⟩
      · rw [hexec]
        exact Op.adminData_superAdmin hexec hdata

/-- In a run every admitted request comes from a super admin of that moment, exactly if no step
takes the status from a user with a session. -/
theorem accessCurrent_run_iff {w₀ : World} (hinitial : Initial w₀) (events : List Event) :
    EveryState step AccessCurrent w₀ events ↔
      EveryStep step (fun w e => ¬ EndsAdmin w e) w₀ events := by
  have hstart : AccessCurrent w₀ := by
    intro session hsession
    simp [adminSessions, hinitial.log] at hsession
  exact everyState_iff hstart (fun w e hw => accessCurrent_step hw e)

def adminTables : Database where
  users := [testUser]
  roles := [⟨1, "Super Admin", none⟩, ⟨2, "guest", none⟩]
  userRoles := [(0, 1)]

omit [External] in
theorem adminTables_initial : Initial (start adminTables 3) :=
  start_initial (by simp [adminTables]) (by simp [adminTables, testUser]) (by simp [adminTables]) rfl

omit [External] in
/-- Deleting the role that the admin does not hold ends no access. -/
theorem accessCurrent_run_guest :
    letI := External.plain
    let events := [Event.call (.adminLogin "testuser" "U*U"), .call (.deleteRoles [2])]
    EveryState step AccessCurrent (start adminTables 3) events ∧
      (run step (start adminTables 3) events).adminSessions ≠ [] := by
  let _ := External.plain
  refine ⟨(accessCurrent_run_iff adminTables_initial _).mpr ⟨?_, ?_, trivial⟩, by decide⟩
  · rintro ⟨session, -, hrevokes⟩
    exact hrevokes
  · rintro ⟨session, hsession, hrevokes⟩
    have hid : session.id = 0 := by
      have hsessions : ∀ d ∈ (World.step (start adminTables 3)
          (.call (.adminLogin "testuser" "U*U"))).adminSessions, d.id = 0 := by decide
      exact hsessions session hsession
    rw [hid] at hrevokes
    exact hrevokes ⟨⟨1, "Super Admin", none⟩, by decide, by decide, rfl, by decide⟩

def adminWorld (op : Op) : World :=
  letI := External.plain
  run step (start adminTables 3) [.call (.adminLogin "testuser" "U*U"), .call op]

omit [External] in
/-- After the role has been deleted, and after the user has been deleted, the session is still let
through. -/
theorem access_after_deletion :
    letI := External.plain
    Reachable (adminWorld (.deleteRoles [1])) ∧ Reachable (adminWorld (.deleteUsers [0])) ∧
      (∃ session ∈ (adminWorld (.deleteRoles [1])).adminSessions,
        authenticate (some session) = some ⟨"testuser", 0⟩) ∧
      ¬ (adminWorld (.deleteRoles [1])).state.db.SuperAdmin 0 ∧
      (∃ session ∈ (adminWorld (.deleteUsers [0])).adminSessions,
        authenticate (some session) = some ⟨"testuser", 0⟩) ∧
      ¬ (adminWorld (.deleteUsers [0])).state.db.SuperAdmin 0 := by
  let _ := External.plain
  have hroles : Reachable (adminWorld (.deleteRoles [1])) :=
    adminTables_initial.reachable_run _ (by simp [Unforged, Op.presented])
  have husers : Reachable (adminWorld (.deleteUsers [0])) :=
    adminTables_initial.reachable_run _ (by simp [Unforged, Op.presented])
  refine ⟨hroles, husers, ⟨_, List.mem_cons_self, rfl⟩, ?_, ⟨_, List.mem_cons_self, rfl⟩, ?_⟩
  · unfold Database.SuperAdmin
    decide
  · unfold Database.SuperAdmin
    decide

end World
end FastapiTemplate
