import FastapiTemplate.EntryPoints

/-!
# Stale privileges

The scopes of a token are frozen when it is issued. They stay within what its user
holds as long as every withdrawal of permissions bumps the version of the holders.
Two operations withdraw without a bump: the bulk deletion of roles, and an update
of a role whose new permissions are rejected after the old ones are gone. The
scopes of accepted tokens are held in every run whose withdrawals of these two
kinds take nothing away that a live token carries.
-/

namespace FastapiTemplate

variable {s t : State}

/-! ## Withdrawals without a new version -/

def Database.RejectsPermissions (db : Database) : Option (List PermissionId) → Prop
  | none => False
  | some ids => ¬ ids.Nodup ∨ ∃ p ∈ ids, ∀ q ∈ db.permissions, q.id ≠ p

instance (db : Database) (ids : Option (List PermissionId)) :
    Decidable (db.RejectsPermissions ids) :=
  match ids with
  | none => inferInstanceAs (Decidable False)
  | some ids => inferInstanceAs (Decidable (¬ ids.Nodup ∨ ∃ p ∈ ids, ∀ q ∈ db.permissions, q.id ≠ p))

/-- The roles that an operation takes permissions from without bumping their holders. -/
def Op.withdrawn (db : Database) : Op → List RoleId
  | .deleteRoles ids => ids
  | .updateRole role upd =>
    if (db.updateRoleFields role upd.name upd.description).1.isOk ∧
      db.RejectsPermissions upd.permissionIds then [role] else []
  | _ => []

/-- Versions grow, and a user whose version has not changed keeps what is granted outside the
roles. -/
def SafeOutside (ids : List RoleId) (s t : State) : Prop :=
  ∀ v ∈ t.db.users, v.id < s.nextId →
    ∃ u ∈ s.db.users, u.id = v.id ∧ u.tokenVersion ≤ v.tokenVersion ∧
      (u.tokenVersion = v.tokenVersion → ∀ name, s.db.GrantsOutside ids v.id name →
        t.db.Grants v.id name)

theorem Database.GrantsOutside.grants {db : Database} {ids : List RoleId} {user : UserId}
    {name : String} (h : db.GrantsOutside ids user name) : db.Grants user name := by
  obtain ⟨r, hr, -, hrest⟩ := h
  exact ⟨r, hr, hrest⟩

theorem Database.Grants.outside_nil {db : Database} {user : UserId} {name : String}
    (h : db.Grants user name) : db.GrantsOutside [] user name := by
  obtain ⟨r, hr, hrest⟩ := h
  exact ⟨r, hr, List.not_mem_nil, hrest⟩

theorem PrivilegeSafe.safeOutside (h : PrivilegeSafe s t) (ids : List RoleId) :
    SafeOutside ids s t := by
  intro v hv hlt
  obtain ⟨u, hu, hid, hle, hgrants⟩ := h.2 v hv hlt
  exact ⟨u, hu, hid, hle, fun he name houtside => hgrants he name houtside.grants⟩

theorem deleteRoles_safeOutside (ids : List RoleId) (s : State) :
    SafeOutside ids s ((RoleDAO.deleteRoles ids).exec s).2 := by
  unfold RoleDAO.deleteRoles
  split
  · exact (PrivilegeSafe.refl s).safeOutside ids
  · exact fun v hv _ => ⟨v, hv, rfl, Nat.le_refl _, fun _ name h => h.deleteRoles⟩

/-! ## Updates of a role -/

structure RoleEdited (role : RoleId) (s t : State) : Prop where
  nextId : t.nextId = s.nextId
  users : t.db.users = s.db.users
  userRoles : t.db.userRoles = s.db.userRoles
  permissions : t.db.permissions = s.db.permissions
  roles : ∀ r ∈ s.db.roles, ∃ r' ∈ t.db.roles, r'.id = r.id
  others : ∀ x ∈ s.db.rolePermissions, x.1 ≠ role → x ∈ t.db.rolePermissions

theorem RoleEdited.refl (role : RoleId) (s : State) : RoleEdited role s s :=
  ⟨rfl, rfl, rfl, rfl, fun r hr => ⟨r, hr, rfl⟩, fun _ hx _ => hx⟩

theorem RoleEdited.trans {role : RoleId} {u : State} (h : RoleEdited role s t)
    (h' : RoleEdited role t u) : RoleEdited role s u where
  nextId := h'.nextId.trans h.nextId
  users := h'.users.trans h.users
  userRoles := h'.userRoles.trans h.userRoles
  permissions := h'.permissions.trans h.permissions
  roles r hr := by
    obtain ⟨r', hr', hid⟩ := h.roles r hr
    obtain ⟨r'', hr'', hid'⟩ := h'.roles r' hr'
    exact ⟨r'', hr'', hid'.trans hid⟩
  others x hx hne := h'.others x (h.others x hx hne) hne

theorem RoleEdited.grants {role : RoleId} (h : RoleEdited role s t) {user : UserId} {name : String}
    (houtside : s.db.GrantsOutside [role] user name) : t.db.Grants user name := by
  obtain ⟨r, hr, hne, hur, p, hp, hrp, hname⟩ := houtside
  obtain ⟨r', hr', hid⟩ := h.roles r hr
  refine ⟨r', hr', by rwa [hid, h.userRoles], p, by rwa [h.permissions], ?_, hname⟩
  rw [hid]
  exact h.others _ hrp (by simpa using hne)

theorem updateFields_edited (role : RoleId) (upd : RoleUpdate) (s : State) :
    RoleEdited role s ((RoleDAO.updateFields role upd).exec s).2 := by
  unfold RoleDAO.updateFields
  split
  · exact .refl role s
  · rw [exec_ask_bind]
    simp only [handler]
    rcases s.db.updateRoleFields_cases role upd.name upd.description with h | ⟨f, hid, h⟩
    · rw [h]
      cases (s.db.updateRoleFields role upd.name upd.description).1 <;> exact .refl role s
    · rw [h]
      exact ⟨rfl, rfl, rfl, rfl, fun r hr => ⟨f r, List.mem_map_of_mem hr, hid r⟩,
        fun _ hx _ => hx⟩

theorem insertPermissions_edited (role : RoleId) (ids : List PermissionId) (s : State) :
    RoleEdited role s ((RoleDAO.insertPermissions role ids).exec s).2 := by
  unfold RoleDAO.insertPermissions
  split
  · exact .refl role s
  · rw [exec_ask_bind]
    simp only [handler]
    rcases s.db.insertRolePermissions_cases role ids with ⟨e, h⟩ | h
    · rw [h]
      exact .refl role s
    · rw [h]
      exact ⟨rfl, rfl, rfl, rfl, fun r hr => ⟨r, hr, rfl⟩,
        fun _ hx _ => List.mem_append_left _ hx⟩

theorem replacePermissions_edited (role : RoleId) (ids : Option (List PermissionId)) (s : State) :
    RoleEdited role s ((RoleDAO.replacePermissions role ids).exec s).2 := by
  cases ids with
  | none => exact .refl role s
  | some ids =>
    refine .trans (t := (handler (.deleteRolePermissions role) s).2) ?_
      (insertPermissions_edited role ids _)
    exact ⟨rfl, rfl, rfl, rfl, fun r hr => ⟨r, hr, rfl⟩,
      fun x hx hne => List.mem_filter.mpr ⟨hx, by simpa using hne⟩⟩

/-- The last statement of an update bumps the holders of the role. -/
theorem bumpRoleHolders_safe {role : RoleId} (h : RoleEdited role s t) :
    SafeOutside [] s (handler (.bumpRoleHolders role) t).2 := by
  intro v hv _
  obtain ⟨u, hu, rfl⟩ := List.mem_map.mp hv
  rw [h.users] at hu
  by_cases hholder : (u.id, role) ∈ t.db.userRoles
  · refine ⟨u, hu, by simp [hholder], by simp [hholder], fun he => ?_⟩
    simp [hholder] at he
  · refine ⟨u, hu, by simp [hholder], by simp [hholder], fun _ name houtside => ?_⟩
    simp only [hholder, if_false] at houtside ⊢
    obtain ⟨r, hr, -, hur, hp⟩ := houtside
    refine RoleEdited.grants (t := t) h ⟨r, hr, fun he => ?_, hur, hp⟩
    rw [List.mem_singleton.mp he, ← h.userRoles] at hur
    exact hholder hur

theorem updateFields_isOk {role : RoleId} {upd : RoleUpdate}
    (h : (RoleDAO.updateFields role upd).exec s = (.ok (), t)) :
    (s.db.updateRoleFields role upd.name upd.description).1.isOk := by
  unfold RoleDAO.updateFields at h
  split at h
  case isTrue hnone =>
    obtain ⟨hname, hdescription⟩ := hnone
    rw [Option.isNone_iff_eq_none.mp hname, Option.isNone_iff_eq_none.mp hdescription]
    unfold Database.updateRoleFields
    split_ifs <;> simp_all [Except.isOk, Except.toBool]
  case isFalse =>
    rw [exec_ask_bind, exec_ofDb_ok] at h
    simp only [handler] at h
    rw [h.1]
    rfl

theorem Database.insertRolePermissions_error {db : Database} {role : RoleId}
    {ids : List PermissionId} {e : DbError} (h : (db.insertRolePermissions role ids).1 = .error e) :
    (∀ r ∈ db.roles, r.id ≠ role) ∨ db.RejectsPermissions (some ids) ∨
      ∃ p ∈ ids, (role, p) ∈ db.rolePermissions := by
  unfold insertRolePermissions at h
  split_ifs at h with hrole hunknown hdup
  · exact .inl (by simpa using hrole)
  · exact .inr (.inl (.inr (by simpa using hunknown)))
  · rcases hdup with hdup | hpair
    · exact .inr (.inl (.inl hdup))
    · exact .inr (.inr (by simpa using hpair))

/-- Once the old permissions are gone, only a missing role or bad identifiers stop the new ones. -/
theorem replacePermissions_error {role : RoleId} {ids : Option (List PermissionId)} {e : AppError}
    (h : ((RoleDAO.replacePermissions role ids).exec s).1 = .error e) :
    (∀ r ∈ s.db.roles, r.id ≠ role) ∨ s.db.RejectsPermissions ids := by
  cases ids with
  | none => cases h
  | some ids =>
    rw [RoleDAO.replacePermissions, exec_ask_bind] at h
    simp only [handler] at h
    unfold RoleDAO.insertPermissions at h
    split at h
    · cases h
    · rw [exec_ask_bind] at h
      simp only [handler, State.setDb_db] at h
      cases hinsert : ((s.db.deleteRolePermissions role).insertRolePermissions role ids).1 with
      | ok _ =>
        rw [hinsert] at h
        cases h
      | error e' =>
        rcases Database.insertRolePermissions_error hinsert with hrole | hrejects | ⟨p, -, hpair⟩
        · exact .inl hrole
        · exact .inr hrejects
        · simp [Database.deleteRolePermissions] at hpair

theorem SafeOutside.of_nil (h : SafeOutside [] s t) (ids : List RoleId) : SafeOutside ids s t := by
  intro v hv hlt
  obtain ⟨u, hu, hid, hle, hgrants⟩ := h v hv hlt
  exact ⟨u, hu, hid, hle, fun he name houtside => hgrants he name houtside.grants.outside_nil⟩

theorem updateRole_safeOutside (role : RoleId) (upd : RoleUpdate) (s : State) :
    SafeOutside (Op.withdrawn s.db (.updateRole role upd)) s
      ((RoleDAO.updateRole role upd).exec s).2 := by
  have hfields := updateFields_edited role upd s
  have hsafe := (updateFields_writes role upd).exec_privilegeSafe (by simp) s
  rw [RoleDAO.updateRole, App.exec, Program.execute_bind]
  rcases h1 : (RoleDAO.updateFields role upd).exec s with ⟨_ | _, s₁⟩
  · rw [h1] at hsafe
    rw [App.exec] at h1
    rw [h1]
    exact hsafe.safeOutside _
  have hisOk := updateFields_isOk h1
  rw [h1] at hfields
  rw [App.exec] at h1
  rw [h1]
  dsimp only at hfields ⊢
  have hedited := hfields.trans (replacePermissions_edited role upd.permissionIds s₁)
  rw [Program.execute_bind]
  rcases h2 : (RoleDAO.replacePermissions role upd.permissionIds).exec s₁ with ⟨e | _, s₂⟩
  · have herror := replacePermissions_error (congrArg Prod.fst h2)
    rw [h2] at hedited
    rw [App.exec] at h2
    rw [h2]
    -- the old permissions may be gone and no version has been bumped
    intro v hv _
    refine ⟨v, hedited.users ▸ hv, rfl, Nat.le_refl _, fun _ name houtside => ?_⟩
    refine hedited.grants ?_
    rcases herror with hmissing | hrejects
    · obtain ⟨r, hr, -, hrest⟩ := houtside
      obtain ⟨r', hr', hid⟩ := hfields.roles r hr
      exact ⟨r, hr, by simpa [hid] using hmissing r' hr', hrest⟩
    · have hrejects' : s.db.RejectsPermissions upd.permissionIds := by
        unfold Database.RejectsPermissions at hrejects ⊢
        rwa [hfields.permissions] at hrejects
      simpa [Op.withdrawn, hisOk, hrejects'] using houtside
  · rw [h2] at hedited
    rw [App.exec] at h2
    rw [h2]
    exact (bumpRoleHolders_safe hedited).of_nil _

variable [External]

/-- Every operation keeps what is granted outside the roles it withdraws. -/
theorem Op.exec_safeOutside (op : Op) (s : State) :
    SafeOutside (op.withdrawn s.db) s (op.program.exec s).2 := by
  cases op with
  | deleteRoles ids =>
    rw [program, exec_map_state]
    exact deleteRoles_safeOutside ids s
  | updateRole role upd =>
    rw [program, exec_map_state]
    exact updateRole_safeOutside role upd s
  | _ => exact ((Op.program_writes _).exec_privilegeSafe (by simp [areas]) s).safeOutside _

/-! ## Runs -/

namespace World

structure Live (s : State) (token : Jwt) (user : UserId) : Prop where
  type : token.type = some .access
  unexpired : ¬ token.ExpiredAt s.clock
  id : token.userId = some user
  version : ∃ u ∈ s.db.users, u.id = user ∧ u.tokenVersion = token.tokenVersion

/-- The roles that the step withdraws without a new version leave every live token its scopes. -/
def SparesScopes (w : World) : Event → Prop
  | .advance _ => True
  | .call op => ∀ token ∈ w.tokens, ∀ user, Live w.state token user → ∀ scope ∈ token.scopes,
      w.state.db.Grants user scope →
        w.state.db.GrantsOutside (op.withdrawn w.state.db) user scope

def LiveScopesHeld (w : World) : Prop :=
  ∀ token ∈ w.tokens, ∀ user, Live w.state token user → ∀ scope ∈ token.scopes,
    w.state.db.Grants user scope

omit [External] in
/-- A token of the earlier state that is live later was live before, with the same row. -/
theorem Live.before {token : Jwt} {user : UserId} (hlive : Live t token user)
    (hclock : s.clock ≤ t.clock) (hbound : TokenBounded s token) {ids : List RoleId}
    (hsafe : SafeOutside ids s t) :
    Live s token user ∧ ∀ name, s.db.GrantsOutside ids user name → t.db.Grants user name := by
  obtain ⟨data, exp, type, jti, rfl, hbounded, -⟩ := hbound
  obtain ⟨v, hv, rfl, hversion⟩ := hlive.version
  have hid : data.id = v.id := Option.some.inj hlive.id
  obtain ⟨u, hu, huid, hle, hgrants⟩ := hsafe v hv (hid ▸ hbounded.1)
  have hbefore : data.tokenVersion.getD 1 ≤ u.tokenVersion := hbounded.2 u hu (huid.trans hid.symm)
  have heq : u.tokenVersion = v.tokenVersion := le_antisymm hle (hversion.trans_le hbefore)
  exact ⟨⟨hlive.type, fun h => hlive.unexpired (h.later hclock), hlive.id, u, hu, huid,
    heq.trans hversion⟩, hgrants heq⟩

omit [External] in
/-- A live token carries what is held if it was issued just now. -/
theorem Live.scopes_held {token : Jwt} {user : UserId} (hlive : Live s token user)
    (h : TokenCurrent s token) : ∀ scope ∈ token.scopes, s.db.Grants user scope := by
  obtain ⟨data, exp, type, jti, rfl, hcurrent, -⟩ := h
  obtain ⟨u, hu, rfl, hversion⟩ := hlive.version
  have hid : data.id = u.id := Option.some.inj hlive.id
  rw [← hid]
  exact hcurrent.2 u hu hid.symm hversion.symm

theorem LiveScopesHeld.step {w : World} (h : LiveScopesHeld w) (hledger : TokenLedger w)
    {e : Event} (hunforged : Unforged w e) (hspares : SparesScopes w e) :
    LiveScopesHeld (w.step e) := by
  intro token htoken user hlive scope hscope
  cases e with
  | advance d =>
    have hlive' : Live w.state token user :=
      ⟨hlive.type, fun hexp => hlive.unexpired (hexp.later (Nat.le_add_right _ _)), hlive.id,
        hlive.version⟩
    exact h token htoken user hlive' scope hscope
  | call op =>
    rcases step_tokens hledger hunforged token htoken with hold | hnew
    · rw [step_state] at hlive ⊢
      obtain ⟨hbefore, hgrants⟩ := hlive.before (exec_clock op.program w.state).ge
        (hledger.bounded token hold) (op.exec_safeOutside w.state)
      exact hgrants scope (hspares token hold user hbefore scope hscope
        (h token hold user hbefore scope hscope))
    · exact hlive.scopes_held hnew scope hscope

/-- In every run that spares the scopes of live tokens, every accepted access token carries only
scopes that its user holds. -/
theorem accepted_scopes_held {w₀ w : World} (hinitial : Initial w₀)
    (hrun : RunsWhere step (fun x e => Unforged x e ∧ SparesScopes x e) w₀ w) {token : Jwt}
    (htoken : token ∈ w.tokens) {scopes : List String} {current : CurrentUser}
    (hok : ((getCurrentUser scopes token).exec w.state).1 = .ok current) :
    ∀ scope ∈ token.scopes, w.state.db.Grants current.user.id scope := by
  have both : TokenLedger w ∧ LiveScopesHeld w := by
    refine hrun.invariant (I := fun x => TokenLedger x ∧ LiveScopesHeld x)
      ⟨hinitial.tokenLedger, fun token htoken => ?_⟩
      (fun _ _ hok hx => ⟨hx.1.step hok.1, hx.2.step hx.1 hok.1 hok.2⟩)
    simp [tokens, hinitial.log] at htoken
  obtain ⟨-, hvouches, -⟩ := getCurrentUser_ok (Prod.ext hok rfl)
  obtain ⟨u, hu, huser⟩ := hvouches.stored
  refine both.2 token htoken current.user.id ⟨hvouches.accepted.checked.1,
    hvouches.accepted.checked.2, hvouches.id, u, hu, ?_, ?_⟩
  · rw [huser]
    rfl
  · rw [← hvouches.version, huser]
    rfl

/-- An account with one role that holds one permission; another role that nobody holds. -/
def roleTables : Database where
  users := [testUser]
  roles := [⟨1, "viewer", none⟩, ⟨2, "guest", none⟩]
  permissions := [⟨1, "users:read", none⟩]
  rolePermissions := [(1, 1)]
  userRoles := [(0, 1)]

def roleWorld : World :=
  letI := External.plain
  (start roleTables 3).step (.call (.authenticateUser "testuser" "U*U" {}))

omit [External] in
theorem roleTables_initial : Initial (start roleTables 3) :=
  start_initial (by simp [roleTables]) (by simp [roleTables, testUser]) (by simp [roleTables]) rfl

omit [External] in
/-- Deleting the role that nobody holds takes nothing away. -/
theorem accepted_scopes_held_roleWorld :
    letI := External.plain
    let w := roleWorld.step (.call (.deleteRoles [2]))
    ∃ token ∈ w.tokens, ((getCurrentUser ["users:read"] token).exec w.state).1.isOk ∧
      ∀ scope ∈ token.scopes, w.state.db.Grants 0 scope := by
  let _ := External.plain
  have hlogin : RunsWhere step (fun x e => Unforged x e ∧ SparesScopes x e) (start roleTables 3)
      roleWorld :=
    .tail (Event.call (.authenticateUser "testuser" "U*U" {})) .refl
      ⟨by simp [Unforged, Op.presented], by simp [SparesScopes, tokens, start]⟩
  have hspares : SparesScopes roleWorld (.call (.deleteRoles [2])) := by
    intro token htoken user hlive scope hscope hgrants
    obtain ⟨r, hr, hur, hp⟩ := hgrants
    refine ⟨r, hr, ?_, hur, hp⟩
    have hheld : ∀ x ∈ roleWorld.state.db.userRoles, x.2 ∉ [2] := by decide
    exact hheld _ hur
  exact ⟨_, List.mem_cons_self, rfl, accepted_scopes_held roleTables_initial
    (.tail (Event.call (.deleteRoles [2])) hlogin ⟨by simp [Unforged, Op.presented], hspares⟩)
    List.mem_cons_self (show ((getCurrentUser ["users:read"] _).exec _).1 = .ok _ from rfl)⟩

omit [External] in
/-- After the bulk deletion of the held role the token still passes for its permission. -/
theorem accepted_after_deleteRoles :
    letI := External.plain
    let w := roleWorld.step (.call (.deleteRoles [1]))
    Reachable w ∧ ∃ token ∈ w.tokens,
      ((getCurrentUser ["users:read"] token).exec w.state).1.isOk ∧
        "users:read" ∈ token.scopes ∧ ¬ w.state.db.Grants 0 "users:read" := by
  let _ := External.plain
  refine ⟨?_, _, List.mem_cons_self, rfl, List.mem_singleton_self _, ?_⟩
  · exact (roleTables_initial.reachable.step (by simp [Unforged, Op.presented])).step
      (by simp [Unforged, Op.presented])
  · unfold Database.Grants
    decide

end World
end FastapiTemplate
