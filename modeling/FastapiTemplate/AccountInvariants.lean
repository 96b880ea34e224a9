import FastapiTemplate.CallEffects

/-!
# Accounts along executions

Identifiers of users are never reused, token versions never decrease, and what a
user may do is taken away only together with a new token version, except by the
statements that withdraw permissions or delete roles without one. These are
relations between the state before and the state after, kept by every call of the
areas named and hence by every program within them.
-/

namespace FastapiTemplate

/-! ## Well-formed states -/

structure State.WellFormed (s : State) : Prop where
  nodup : (s.db.users.map (·.id)).Nodup
  userId_lt : ∀ u ∈ s.db.users, u.id < s.nextId
  version_pos : ∀ u ∈ s.db.users, 1 ≤ u.tokenVersion
  factorId_lt : ∀ r ∈ s.db.userTwoFactor, r.userId < s.nextId

theorem UsersChange.ids {us vs : List UserRow} {n m : ℕ} (h : UsersChange us n vs m)
    (hnodup : (us.map (·.id)).Nodup) (hlt : ∀ u ∈ us, u.id < n) :
    (vs.map (·.id)).Nodup ∧ ∀ u ∈ vs, u.id < m := by
  cases h with
  | update f hid hversion hnext =>
    have hcomp : (us.map f).map (·.id) = us.map (·.id) := by
      rw [List.map_map]
      exact List.map_congr_left (fun u _ => hid u)
    refine ⟨by rw [hcomp]; exact hnodup, fun v hv => ?_⟩
    obtain ⟨u, hu, rfl⟩ := List.mem_map.mp hv
    rw [hid]
    exact (hlt u hu).trans_le hnext
  | insert row hid hversion =>
    constructor
    · rw [List.map_append]
      refine hnodup.append (List.nodup_singleton _) ?_
      intro i hi hrow
      obtain ⟨u, hu, rfl⟩ := List.mem_map.mp hi
      have hrow' : u.id = n := (List.mem_singleton.mp hrow).trans hid
      exact (hlt u hu).ne hrow'
    · intro v hv
      rcases List.mem_append.mp hv with hv | hv
      · exact (hlt v hv).trans (Nat.lt_succ_self _)
      · rw [List.mem_singleton.mp hv, hid]
        exact Nat.lt_succ_self _
  | delete p =>
    exact ⟨hnodup.sublist (List.filter_sublist.map _), fun v hv => hlt v (List.mem_filter.mp hv).1⟩

theorem UsersChange.version_pos {us vs : List UserRow} {n m : ℕ} (h : UsersChange us n vs m)
    (hpos : ∀ u ∈ us, 1 ≤ u.tokenVersion) : ∀ u ∈ vs, 1 ≤ u.tokenVersion := by
  intro v hv
  cases h with
  | update f hid hversion hnext =>
    obtain ⟨u, hu, rfl⟩ := List.mem_map.mp hv
    exact (hpos u hu).trans (hversion u)
  | insert row hid hversion =>
    rcases List.mem_append.mp hv with hv | hv
    · exact hpos v hv
    · rw [List.mem_singleton.mp hv, hversion]
  | delete p => exact hpos v (List.mem_filter.mp hv).1

theorem handler_factorIds (c : Call) (s : State) (hlt : ∀ u ∈ s.db.users, u.id < s.nextId)
    (h : ∀ r ∈ s.db.userTwoFactor, r.userId < s.nextId) :
    ∀ r ∈ (handler c s).2.db.userTwoFactor, r.userId < (handler c s).2.nextId := by
  have keep (hf : (handler c s).2.db.userTwoFactor = s.db.userTwoFactor) :
      ∀ r ∈ (handler c s).2.db.userTwoFactor, r.userId < (handler c s).2.nextId := by
    rw [hf]
    exact fun r hr => (h r hr).trans_le (handler_nextId c s)
  have map (user : UserId) (f : UserTwoFactorData → UserTwoFactorData)
      (hf : ∀ r, (f r).userId = r.userId) : ∀ r ∈ s.db.userTwoFactor.map
        (fun r => if r.userId = user then f r else r), r.userId < s.nextId := by
    intro r hr
    obtain ⟨old, hold, rfl⟩ := List.mem_map.mp hr
    by_cases hu : old.userId = user
    · rw [if_pos hu, hf]
      exact h old hold
    · rw [if_neg hu]
      exact h old hold
  cases c with
  | upsertTwoFactor row =>
    rcases s.db.upsertTwoFactor_cases row with ⟨e, hc⟩ | ⟨rows, ⟨u, hu, hid⟩, hrows, hc⟩
    · exact keep (by simp [handler, hc])
    · simp only [handler, hc, State.setDb_db, State.setDb_nextId]
      intro r hr
      rcases hrows r hr with rfl | hold
      · exact hid ▸ hlt u hu
      · exact h r hold
  | disableTwoFactor user => exact map user _ (fun _ => rfl)
  | updateBackupCodes user codes => exact map user _ (fun _ => rfl)
  | deleteUsers ids => exact fun r hr => h r (List.mem_filter.mp hr).1
  | redisSet key value ex => exact keep (by simp [handler])
  | redisDelete key => exact keep rfl
  | _ => exact keep ((handler_frame _ s).userTwoFactor (by simp [Call.Avoids, Call.area]))

theorem handler_wellFormed (c : Call) (s : State) (h : s.WellFormed) :
    (handler c s).2.WellFormed :=
  have hids := (handler_users c s).ids h.nodup h.userId_lt
  ⟨hids.1, hids.2, (handler_users c s).version_pos h.version_pos,
    handler_factorIds c s h.userId_lt h.factorId_lt⟩

theorem exec_wellFormed {α : Type} (p : App α) (s : State) (h : s.WellFormed) :
    (p.exec s).2.WellFormed :=
  p.exec_rel (fun s t => s.WellFormed → t.WellFormed) (fun _ => id)
    (fun _ _ _ h h' => h' ∘ h) handler_wellFormed s h

/-! ## Users and their versions -/

/-- Every old user of the later state was there before, with a version at most the later one. -/
def VersionsGrow (s t : State) : Prop :=
  s.nextId ≤ t.nextId ∧ ∀ v ∈ t.db.users, v.id < s.nextId →
    ∃ u ∈ s.db.users, u.id = v.id ∧ u.tokenVersion ≤ v.tokenVersion

theorem VersionsGrow.refl (s : State) : VersionsGrow s s :=
  ⟨le_refl _, fun v hv _ => ⟨v, hv, rfl, le_refl _⟩⟩

theorem VersionsGrow.trans {s t u : State} (h : VersionsGrow s t) (h' : VersionsGrow t u) :
    VersionsGrow s u := by
  refine ⟨h.1.trans h'.1, fun w hw hlt => ?_⟩
  obtain ⟨v, hv, hvid, hvle⟩ := h'.2 w hw (hlt.trans_le h.1)
  obtain ⟨x, hx, hxid, hxle⟩ := h.2 v hv (hvid ▸ hlt)
  exact ⟨x, hx, hxid.trans hvid, hxle.trans hvle⟩

theorem UsersChange.grow {us vs : List UserRow} {n m : ℕ} (h : UsersChange us n vs m) :
    ∀ v ∈ vs, v.id < n → ∃ u ∈ us, u.id = v.id ∧ u.tokenVersion ≤ v.tokenVersion := by
  intro v hv hlt
  cases h with
  | update f hid hversion hnext =>
    obtain ⟨u, hu, rfl⟩ := List.mem_map.mp hv
    exact ⟨u, hu, (hid u).symm, hversion u⟩
  | insert row hid hversion =>
    rcases List.mem_append.mp hv with hv | hv
    · exact ⟨v, hv, rfl, le_refl _⟩
    · rw [List.mem_singleton.mp hv, hid] at hlt
      exact absurd hlt (lt_irrefl _)
  | delete p => exact ⟨v, (List.mem_filter.mp hv).1, rfl, le_refl _⟩

theorem handler_versionsGrow (c : Call) (s : State) : VersionsGrow s (handler c s).2 :=
  ⟨handler_nextId c s, (handler_users c s).grow⟩

theorem exec_versionsGrow {α : Type} (p : App α) (s : State) : VersionsGrow s (p.exec s).2 :=
  p.exec_rel VersionsGrow VersionsGrow.refl (fun _ _ _ => VersionsGrow.trans) handler_versionsGrow s

/-! ## Permissions -/

def Database.Grants (db : Database) (user : UserId) (name : String) : Prop :=
  ∃ role ∈ db.roles, (user, role.id) ∈ db.userRoles ∧
    ∃ p ∈ db.permissions, (role.id, p.id) ∈ db.rolePermissions ∧ p.name = name

/-- The names are those of the permissions of the roles that are read for the user. -/
theorem Database.grants_iff (db : Database) (user : UserId) (name : String) :
    db.Grants user name ↔ ∃ role ∈ db.rolesOf user, ∃ p ∈ role.permissions, p.name = name := by
  unfold Grants rolesOf
  constructor
  · rintro ⟨r, hr, hur, p, hp, hrp, hname⟩
    refine ⟨db.roleData r, List.mem_map_of_mem (List.mem_filter.mpr ⟨hr, by simpa using hur⟩), p, ?_,
      hname⟩
    exact List.mem_filter.mpr ⟨hp, by simpa using hrp⟩
  · rintro ⟨role, hrole, p, hp, hname⟩
    obtain ⟨r, hr, rfl⟩ := List.mem_map.mp hrole
    obtain ⟨hr, hur⟩ := List.mem_filter.mp hr
    obtain ⟨hp, hrp⟩ := List.mem_filter.mp hp
    exact ⟨r, hr, by simpa using hur, p, hp, by simpa using hrp, hname⟩

theorem Database.Grants.mono {db db' : Database} {user : UserId} {name : String}
    (h : db.Grants user name) (hroles : ∀ r ∈ db.roles, ∃ r' ∈ db'.roles, r'.id = r.id)
    (huserRoles : ∀ x ∈ db.userRoles, x ∈ db'.userRoles)
    (hrolePermissions : ∀ x ∈ db.rolePermissions, x ∈ db'.rolePermissions)
    (hpermissions : db'.permissions = db.permissions) : db'.Grants user name := by
  obtain ⟨r, hr, hur, p, hp, hrp, hname⟩ := h
  obtain ⟨r', hr', hid⟩ := hroles r hr
  exact ⟨r', hr', by rw [hid]; exact huserRoles _ hur, p, by rw [hpermissions]; exact hp,
    by rw [hid]; exact hrolePermissions _ hrp, hname⟩

/-- Versions grow, and a user whose version has not changed keeps all permissions. -/
def PrivilegeSafe (s t : State) : Prop :=
  s.nextId ≤ t.nextId ∧ ∀ v ∈ t.db.users, v.id < s.nextId →
    ∃ u ∈ s.db.users, u.id = v.id ∧ u.tokenVersion ≤ v.tokenVersion ∧
      (u.tokenVersion = v.tokenVersion → ∀ name, s.db.Grants v.id name → t.db.Grants v.id name)

theorem PrivilegeSafe.refl (s : State) : PrivilegeSafe s s :=
  ⟨le_refl _, fun v hv _ => ⟨v, hv, rfl, le_refl _, fun _ _ => id⟩⟩

theorem PrivilegeSafe.trans {s t u : State} (h : PrivilegeSafe s t) (h' : PrivilegeSafe t u) :
    PrivilegeSafe s u := by
  refine ⟨h.1.trans h'.1, fun w hw hlt => ?_⟩
  obtain ⟨v, hv, hvid, hvle, hvgrants⟩ := h'.2 w hw (hlt.trans_le h.1)
  obtain ⟨x, hx, hxid, hxle, hxgrants⟩ := h.2 v hv (hvid ▸ hlt)
  refine ⟨x, hx, hxid.trans hvid, hxle.trans hvle, fun he name hgrants => ?_⟩
  have hxv : x.tokenVersion = v.tokenVersion := le_antisymm hxle (he ▸ hvle)
  have hvw : v.tokenVersion = w.tokenVersion := hxv ▸ he
  rw [← hvid] at hgrants
  have ht := hxgrants hxv name hgrants
  rw [hvid] at ht
  exact hvgrants hvw name ht

theorem PrivilegeSafe.of_mono {s t : State} (hgrow : VersionsGrow s t)
    (h : ∀ user name, s.db.Grants user name → t.db.Grants user name) : PrivilegeSafe s t := by
  refine ⟨hgrow.1, fun v hv hlt => ?_⟩
  obtain ⟨u, hu, hid, hle⟩ := hgrow.2 v hv hlt
  exact ⟨u, hu, hid, hle, fun _ name => h v.id name⟩

/-- Outside role and user deletion, a call only adds permissions. -/
theorem handler_grants (c : Call) (s : State)
    (h : c.Avoids [.withdrawal, .roleRemoval, .removal]) (user : UserId) (name : String)
    (hg : s.db.Grants user name) : (handler c s).2.db.Grants user name := by
  cases c with
  | insertUserRoles user roleIds =>
    rcases s.db.insertUserRoles_cases user roleIds with ⟨e, hc⟩ | ⟨new, hc⟩
    · simpa [handler, hc] using hg
    · simp only [handler, hc, State.setDb_db]
      exact hg.mono (fun r hr => ⟨r, hr, rfl⟩) (fun x hx => List.mem_append_left _ hx)
        (fun _ => id) rfl
  | insertRole name description =>
    rcases s.db.insertRole_cases s.nextId name description with ⟨e, hc⟩ | hc
    · simpa [handler, hc] using hg
    · simp only [handler, hc]
      exact hg.mono (fun r hr => ⟨r, List.mem_append_left _ hr, rfl⟩) (fun _ => id)
        (fun _ => id) rfl
  | updateRoleFields role name description =>
    rcases s.db.updateRoleFields_cases role name description with hc | ⟨f, hid, hc⟩
    · simpa [handler, hc] using hg
    · simp only [handler, hc, State.setDb_db]
      exact hg.mono (fun r hr => ⟨f r, List.mem_map_of_mem hr, hid r⟩) (fun _ => id)
        (fun _ => id) rfl
  | insertRolePermissions role permissionIds =>
    rcases s.db.insertRolePermissions_cases role permissionIds with ⟨e, hc⟩ | hc
    · simpa [handler, hc] using hg
    · simp only [handler, hc, State.setDb_db]
      exact hg.mono (fun r hr => ⟨r, hr, rfl⟩) (fun _ => id)
        (fun x hx => List.mem_append_left _ hx) rfl
  | deleteUsers ids => exact absurd rfl (h .removal (by simp))
  | deleteRolePermissions role => exact absurd rfl (h .withdrawal (by simp))
  | deleteRoles ids => exact absurd rfl (h .withdrawal (by simp))
  | deleteRoleTransaction role => exact absurd rfl (h .roleRemoval (by simp))
  | redisSet key value ex => simpa [handler] using hg
  | redisDelete key => exact hg
  | _ =>
    refine hg.mono (fun r hr => ⟨r, ?_, rfl⟩) (fun x hx => ?_) (fun x hx => ?_)
      (handler_frame _ s).permissions
    · rwa [(handler_frame _ s).roles (by simp [Call.Avoids, Call.area])]
    · rwa [(handler_frame _ s).userRoles (by simp [Call.Avoids, Call.area])]
    · rwa [(handler_frame _ s).rolePermissions (by simp [Call.Avoids, Call.area])]

theorem Database.Grants.deleteUsers {db : Database} {user : UserId} {name : String}
    (h : db.Grants user name) {ids : List UserId} (hu : user ∉ ids) :
    (db.deleteUsers ids).2.Grants user name := by
  obtain ⟨r, hr, hur, hp⟩ := h
  exact ⟨r, hr, List.mem_filter.mpr ⟨hur, by simpa using hu⟩, hp⟩

def Database.GrantsOutside (db : Database) (ids : List RoleId) (user : UserId) (name : String) :
    Prop :=
  ∃ role ∈ db.roles, role.id ∉ ids ∧ (user, role.id) ∈ db.userRoles ∧
    ∃ p ∈ db.permissions, (role.id, p.id) ∈ db.rolePermissions ∧ p.name = name

theorem Database.GrantsOutside.deleteRoles {db : Database} {user : UserId} {name : String}
    {ids : List RoleId} (h : db.GrantsOutside ids user name) :
    (db.deleteRoles ids).2.Grants user name := by
  obtain ⟨r, hr, hids, hur, p, hp, hrp, hname⟩ := h
  exact ⟨r, List.mem_filter.mpr ⟨hr, by simpa using hids⟩,
    List.mem_filter.mpr ⟨hur, by simpa using hids⟩, p, hp,
    List.mem_filter.mpr ⟨hrp, by simpa using hids⟩, hname⟩

theorem deleteUsers_privilegeSafe (s : State) (ids : List UserId) :
    PrivilegeSafe s (handler (.deleteUsers ids) s).2 := by
  refine ⟨le_refl _, fun v hv _ => ?_⟩
  obtain ⟨hv, hids⟩ := List.mem_filter.mp hv
  exact ⟨v, hv, rfl, le_refl _, fun _ name hg => hg.deleteUsers (by simpa using hids)⟩

/-- The transaction bumps the version of every holder before the role goes. -/
theorem deleteRoleTransaction_privilegeSafe (s : State) (role : RoleId) :
    PrivilegeSafe s (handler (.deleteRoleTransaction role) s).2 := by
  refine ⟨le_refl _, fun v hv _ => ?_⟩
  obtain ⟨u, hu, rfl⟩ := List.mem_map.mp hv
  by_cases hholder : (u.id, role) ∈ s.db.userRoles
  · refine ⟨u, hu, by simp [hholder], by simp [hholder], fun he => ?_⟩
    simp [hholder] at he
  · refine ⟨u, hu, by simp [hholder], by simp [hholder], fun _ name hg => ?_⟩
    simp only [hholder, if_false] at hg ⊢
    obtain ⟨r, hr, hur, hp⟩ := hg
    have hne : r.id ∉ [role] := by
      intro he
      rw [List.mem_singleton.mp he] at hur
      exact hholder hur
    have hgrants : (s.db.bumpRoleHolders role).GrantsOutside [role] u.id name := ⟨r, hr, hne, hur, hp⟩
    exact hgrants.deleteRoles

theorem handler_privilegeSafe (c : Call) (s : State) (h : c.Avoids [.withdrawal]) :
    PrivilegeSafe s (handler c s).2 := by
  cases c with
  | deleteUsers ids => exact deleteUsers_privilegeSafe s ids
  | deleteRoleTransaction role => exact deleteRoleTransaction_privilegeSafe s role
  | redisSet key value ex =>
    exact .of_mono (handler_versionsGrow _ s) (fun _ _ hg => by simpa [handler] using hg)
  | redisDelete key => exact .of_mono (handler_versionsGrow _ s) (fun _ _ => id)
  | deleteRoles ids => exact absurd rfl (h .withdrawal (by simp))
  | deleteRolePermissions role => exact absurd rfl (h .withdrawal (by simp))
  | _ =>
    exact .of_mono (handler_versionsGrow _ s)
      (handler_grants _ s (by simp [Call.Avoids, Call.area]))

theorem WritesOnly.exec_privilegeSafe {α : Type} {areas : List Area} {p : App α}
    (hp : WritesOnly areas p) (hd : Area.withdrawal ∉ areas) (s : State) :
    PrivilegeSafe s (p.exec s).2 :=
  hp.exec_rel PrivilegeSafe PrivilegeSafe.refl (fun _ _ _ => PrivilegeSafe.trans)
    (fun c hc s => handler_privilegeSafe c s (hc.avoids (by simpa using hd))) s

end FastapiTemplate
