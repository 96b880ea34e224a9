import FastapiTemplate.WriteAtomicity
import Mathlib.Data.List.Dedup

/-!
# The writes of users

When `create_user_oauth`, `assign_roles` and the edit form of the admin portal are all or nothing.
-/

namespace FastapiTemplate.AccountWrites

variable {replica : Option Database} {fates : Fates Statement Sql.DbError} {t u : Tables}

/-! ## `create_user_oauth` -/

def UserRefused (db : Database) (user : UserCreate) : Prop :=
  50 < user.username.length ∨ 255 < user.email.length ∨ 255 < (user.fullName.getD "").length ∨
    (∃ x ∈ db.users, x.username = user.username) ∨ ∃ x ∈ db.users, x.email = user.email

def IdentityFits (db : Database) (user : UserId) (info : GoogleUserInfo) : Prop :=
  (info.email.getD "").length ≤ 255 ∧
    ∀ i ∈ db.userIdentities, i.provider = "google" → i.providerUserId ≠ info.sub ∧ i.userId ≠ user

def oauthRow (t : Tables) (user : UserCreate) : UserRow where
  id := t.nextId
  username := user.username
  email := user.email
  hashedPassword := none
  fullName := user.fullName
  isActive := user.isActive

def identityRow (user : UserId) (info : GoogleUserInfo) : IdentityRow :=
  ⟨user, "google", info.sub, info.email, info.emailVerified⟩

def Tables.withUser (t : Tables) (user : UserCreate) : Tables :=
  t.drawn { t.db with users := t.db.users ++ [oauthRow t user] }

def Tables.withIdentity (t : Tables) (user : UserId) (info : GoogleUserInfo) : Tables :=
  t.setDb { t.db with userIdentities := t.db.userIdentities ++ [identityRow user info] }

section run
variable (replica) {user : UserCreate} {id : UserId} {info : GoogleUserInfo}

theorem run_insertUser_refused (h : UserRefused t.db user) :
    ∃ e, run replica (.insertUser user none) t = (.error e, t) := by
  simp only [run, Database.insertUser]
  split_ifs with hname hemail hfull hnames hemails
  · exact ⟨_, rfl⟩
  · exact ⟨_, rfl⟩
  · exact ⟨_, rfl⟩
  · exact ⟨_, rfl⟩
  · exact ⟨_, rfl⟩
  · rcases h with h | h | h | ⟨x, hx, he⟩ | ⟨x, hx, he⟩
    · exact absurd h hname
    · exact absurd h hemail
    · exact absurd h hfull
    · exact absurd (List.any_eq_true.mpr ⟨x, hx, decide_eq_true he⟩) hnames
    · exact absurd (List.any_eq_true.mpr ⟨x, hx, decide_eq_true he⟩) hemails

theorem run_insertUser (h : ¬UserRefused t.db user) :
    run replica (.insertUser user none) t =
      (.ok { t.db.userData (oauthRow t user) with roles := [] }, t.withUser user) := by
  simp only [UserRefused, not_or, not_lt, not_exists, not_and] at h
  obtain ⟨hname, hemail, hfull, hnames, hemails⟩ := h
  simp only [run, Database.insertUser]
  rw [if_neg (by simpa using hname), if_neg (by simpa using hemail), if_neg (by simpa using hfull),
    if_neg (by simpa using hnames), if_neg (by simpa using hemails)]
  rfl

theorem userRefused_withUser : UserRefused (t.withUser user).db user :=
  .inr (.inr (.inr (.inl ⟨_, List.mem_append_right _ (List.mem_singleton_self _), rfl⟩)))

theorem run_insertIdentity_refused (h : ¬IdentityFits t.db id info) :
    ∃ e, run replica (.insertIdentity id info) t = (.error e, t) := by
  simp only [run, Database.insertIdentity]
  split_ifs with hemail huser hsub hprovider
  · exact ⟨_, rfl⟩
  · exact ⟨_, rfl⟩
  · exact ⟨_, rfl⟩
  · exact ⟨_, rfl⟩
  · refine absurd ⟨by simpa using hemail, fun i hi hgoogle => ⟨?_, ?_⟩⟩ h
    · exact fun he => hsub (List.any_eq_true.mpr ⟨i, hi, by simp [hgoogle, he]⟩)
    · exact fun he => hprovider (List.any_eq_true.mpr ⟨i, hi, by simp [hgoogle, he]⟩)

theorem run_insertIdentity (huser : ∃ x ∈ t.db.users, x.id = id) (h : IdentityFits t.db id info) :
    run replica (.insertIdentity id info) t = (.ok (), t.withIdentity id info) := by
  obtain ⟨x, hx, rfl⟩ := huser
  simp only [run, Database.insertIdentity]
  rw [if_neg, if_neg, if_neg, if_neg]
  · rfl
  · simpa using fun i hi he hgoogle => (h.2 i hi hgoogle).2 he
  · simpa using fun i hi hgoogle => (h.2 i hi hgoogle).1
  · simpa using ⟨x, hx, rfl⟩
  · simpa using h.1

theorem not_identityFits_withIdentity (t : Tables) (id : UserId) (info : GoogleUserInfo) :
    ¬IdentityFits (t.withIdentity id info).db id info :=
  fun h => (h.2 (identityRow id info) (List.mem_append_right _ (List.mem_singleton_self _)) rfl).1 rfl

end run

structure UserCreated (t : Tables) (user : UserCreate) (info : GoogleUserInfo) (u : Tables) :
    Prop where
  user : u.db.users = t.db.users ++ [oauthRow t user]
  identity : identityRow t.nextId info ∈ u.db.userIdentities

/-- The user cannot be inserted, or never reaches the server, or both statements come to their
end: an identity that cannot be inserted leaves a user without one behind. -/
def CreateUserOauthSafe (fates : Fates Statement Sql.DbError) (t : Tables) (user : UserCreate)
    (info : GoogleUserInfo) : Prop :=
  UserRefused t.db user ∨ ¬executes fates (.insertUser user none) ∨
    answersFirst fates (.insertUser user none) ∧ IdentityFits t.db t.nextId info ∧
      answersFirst fates (.insertIdentity t.nextId info)

theorem not_same_of_users {x : UserRow} (h : u.db.users = t.db.users ++ [x]) : ¬Same t u := by
  intro hsame
  have := congrArg List.length (h.symm.trans hsame.users)
  simp at this

theorem insertIdentity_allOrNothing {user : UserCreate} {info : GoogleUserInfo} {α : Type} {a : α} :
    AllOrNothing (Same t) (UserCreated t user info) (Write.exec (do
        ask (.insertIdentity t.nextId info)
        pure a) replica fates (t.withUser user)) ↔
      IdentityFits t.db t.nextId info ∧ answersFirst fates (.insertIdentity t.nextId info) := by
  by_cases hfit : IdentityFits t.db t.nextId info
  · have huser : ∃ x ∈ (t.withUser user).db.users, x.id = t.nextId :=
      ⟨_, List.mem_append_right _ (List.mem_singleton_self _), rfl⟩
    obtain ⟨e, hagain⟩ := run_insertIdentity_refused replica
      (not_identityFits_withIdentity (t.withUser user) t.nextId info)
    rw [ask_once (run_insertIdentity replica huser hfit) hagain]
    cases answersFirst fates (.insertIdentity t.nextId info) with
    | true =>
      rw [if_pos rfl]
      have hend : UserCreated t user info ((t.withUser user).withIdentity t.nextId info) :=
        ⟨rfl, List.mem_append_right _ (List.mem_singleton_self _)⟩
      exact iff_of_true (allOrNothing_ok.mpr hend) ⟨hfit, rfl⟩
    | false =>
      rw [if_neg Bool.false_ne_true]
      refine iff_of_false ?_ (fun h => Bool.false_ne_true h.2)
      split_ifs <;> exact not_same_of_users rfl
  · obtain ⟨e, hrun⟩ := run_insertIdentity_refused replica (t := t.withUser user) hfit
    rw [ask_rejected hrun]
    exact iff_of_false (not_same_of_users rfl) (fun h => hfit h.1)

theorem createUserOauth_allOrNothing (user : UserCreate) (info : GoogleUserInfo) :
    AllOrNothing (Same t) (UserCreated t user info)
        ((UserDAO.createUserOauth user info).exec replica fates t) ↔
      CreateUserOauthSafe fates t user info := by
  unfold CreateUserOauthSafe UserDAO.createUserOauth UserDAO.createUser
  by_cases hrefused : UserRefused t.db user
  · obtain ⟨e, hrun⟩ := run_insertUser_refused replica hrefused
    rw [ask_rejected hrun]
    exact iff_of_true (same_refl t) (.inl hrefused)
  · obtain ⟨e, hagain⟩ := run_insertUser_refused replica (userRefused_withUser (t := t))
    rw [ask_once (run_insertUser replica hrefused) hagain]
    cases hfirst : answersFirst fates (.insertUser user none) with
    | true =>
      rw [if_pos rfl]
      refine insertIdentity_allOrNothing.trans ?_
      simp [hrefused, executes_of_answersFirst hfirst]
    | false =>
      cases executes fates (.insertUser user none) with
      | true => simpa [hrefused] using not_same_of_users rfl
      | false => simpa using same_refl t

/-! ## `assign_roles` -/

def RolesFit (db : Database) (user : UserId) (roleIds : List RoleId) : Prop :=
  (∃ x ∈ db.users, x.id = user) ∧ ∀ r ∈ roleIds, ∃ y ∈ db.roles, y.id = r

def Tables.withUserRoles (user : UserId) (roleIds : List RoleId) (t : Tables) : Tables :=
  t.setDb { t.db with userRoles := t.db.userRoles ++
    ((roleIds.map (fun r => (user, r))).filter (· ∉ t.db.userRoles)).dedup }

section run
variable (replica) {user : UserId} {roleIds : List RoleId}

theorem run_insertUserRoles_refused (h : ¬RolesFit t.db user roleIds) :
    ∃ e, run replica (.insertUserRoles user roleIds) t = (.error e, t) := by
  simp only [run, Database.insertUserRoles]
  split_ifs with huser hroles
  · exact ⟨_, rfl⟩
  · exact ⟨_, rfl⟩
  · exact absurd ⟨by simpa using huser, by simpa using hroles⟩ h

theorem run_insertUserRoles (h : RolesFit t.db user roleIds) :
    run replica (.insertUserRoles user roleIds) t = (.ok (), t.withUserRoles user roleIds) := by
  simp only [run, Database.insertUserRoles]
  rw [if_neg (by simpa using h.1), if_neg (by simpa using h.2)]
  rfl

theorem rolesFit_bumped {p : UserId → Bool} {j : ℕ} :
    RolesFit (t.bumped p j).db user roleIds ↔ RolesFit t.db user roleIds := by
  simp [RolesFit, Tables.bumped, Database.mapUsers]

theorem accept_fst {α : Type} (r : Except DbError α × Database) (accepted : Database → Tables) :
    (t.accept r accepted).1 = r.1 := by
  obtain ⟨_ | a, db⟩ := r <;> rfl

/-- The two statements of the operation write different tables. -/
theorem insertUserRoles_commutes : Program.Commutes (run replica) (.insertUserRoles user roleIds)
    (.bumpTokenVersion user) := by
  constructor
  · intro t
    have hall (r : UserId) : (t.bumped (· = user) 1).db.users.all (·.id ≠ r) =
        t.db.users.all (·.id ≠ r) := by
      simp [Tables.bumped, Database.mapUsers, List.all_map, Function.comp_def]
    rw [run_bumpTokenVersion, run, accept_fst, run, accept_fst]
    change ((t.bumped (· = user) 1).db.insertUserRoles user roleIds).1 = _
    have hroles : (t.bumped (· = user) 1).db.roles = t.db.roles := rfl
    rw [Database.insertUserRoles, hall, hroles, Database.insertUserRoles]
    split_ifs <;> rfl
  · intro t
    rw [run_bumpTokenVersion, run_bumpTokenVersion]
  · intro t
    rw [run_bumpTokenVersion, run_bumpTokenVersion]
    by_cases hfit : RolesFit t.db user roleIds
    · rw [run_insertUserRoles replica hfit, run_insertUserRoles replica (rolesFit_bumped.mpr hfit)]
      rfl
    · obtain ⟨e, hrun⟩ := run_insertUserRoles_refused replica hfit
      obtain ⟨e', hrun'⟩ := run_insertUserRoles_refused replica (mt rolesFit_bumped.mp hfit)
      rw [hrun, hrun']

theorem mem_withUserRoles {x : UserId × RoleId} :
    x ∈ (t.withUserRoles user roleIds).db.userRoles ↔
      x ∈ t.db.userRoles ∨ x.1 = user ∧ x.2 ∈ roleIds := by
  obtain ⟨a, r⟩ := x
  simp only [Tables.withUserRoles, Tables.setDb, List.mem_append, List.mem_dedup, List.mem_filter,
    List.mem_map, Prod.mk.injEq, decide_eq_true_eq]
  constructor
  · rintro (hold | ⟨⟨q, hq, rfl, rfl⟩, -⟩)
    · exact .inl hold
    · exact .inr ⟨rfl, hq⟩
  · rintro (hold | ⟨rfl, hr⟩)
    · exact .inl hold
    · by_cases hold : (a, r) ∈ t.db.userRoles
      · exact .inl hold
      · exact .inr ⟨⟨r, hr, rfl, rfl⟩, hold⟩

/-- `ON CONFLICT DO NOTHING`: made again, the statement does nothing. -/
theorem withUserRoles_idem :
    (t.withUserRoles user roleIds).withUserRoles user roleIds = t.withUserRoles user roleIds := by
  have hnone : (roleIds.map (fun r => (user, r))).filter
      (· ∉ (t.withUserRoles user roleIds).db.userRoles) = [] := by
    refine List.filter_eq_nil_iff.mpr (fun x hx => ?_)
    obtain ⟨r, hr, rfl⟩ := List.mem_map.mp hx
    simpa using mem_withUserRoles.mpr (.inr ⟨rfl, hr⟩)
  rw [Tables.withUserRoles, hnone, List.dedup_nil, List.append_nil]
  rfl

theorem same_withUserRoles : Same t (t.withUserRoles user roleIds) ↔
    ∀ r ∈ roleIds, (user, r) ∈ t.db.userRoles := by
  constructor
  · intro h r hr
    exact (h.userRoles _).mp (mem_withUserRoles.mpr (.inr ⟨rfl, hr⟩))
  · intro h
    refine ⟨rfl, fun _ _ => rfl, rfl, rfl, fun _ _ => rfl, fun x => ?_, fun _ => Iff.rfl⟩
    rw [mem_withUserRoles, or_iff_left_iff_imp]
    rintro ⟨rfl, hr⟩
    exact h x.2 hr

end run

/-- The pairs are there and the version of the user is raised; without roles nothing is to be done. -/
structure RolesAssigned (t : Tables) (user : UserId) (roleIds : List RoleId) (u : Tables) :
    Prop where
  pairs : ∀ r ∈ roleIds, (user, r) ∈ u.db.userRoles
  version : roleIds ≠ [] → ∀ x ∈ t.db.users, x.id = user →
    ∃ y ∈ u.db.users, y.id = x.id ∧ x.tokenVersion < y.tokenVersion

/-- All three statements are answered, or neither of the two writes changes anything. -/
def AssignRolesSafe (fates : Fates Statement Sql.DbError) (t : Tables) (user : UserId)
    (roleIds : List RoleId) : Prop :=
  roleIds = [] ∨
    (RolesFit t.db user roleIds ∧ answers fates (.insertUserRoles user roleIds) ∧
      answers fates (.bumpTokenVersion user) ∧ answers fates (.selectUser user)) ∨
    ((RolesFit t.db user roleIds → executes fates (.insertUserRoles user roleIds) →
        ∀ r ∈ roleIds, (user, r) ∈ t.db.userRoles) ∧
      (executes fates (.bumpTokenVersion user) → ∀ x ∈ t.db.users, x.id ≠ user))

section assign
variable (replica fates) {user : UserId} {roleIds : List RoleId}

theorem ask_insertUserRoles (hfit : RolesFit t.db user roleIds) :
    ∃ j r, (executes fates (.insertUserRoles user roleIds) ↔ 0 < j) ∧
      Outcome (answers fates (.insertUserRoles user roleIds)) () r ∧
      (ask (.insertUserRoles user roleIds)).exec replica fates t =
        (r, (Tables.withUserRoles user roleIds)^[j] t) := by
  have hrun : ∀ u : Tables, RolesFit u.db user roleIds →
      run replica (.insertUserRoles user roleIds) u = (.ok (), u.withUserRoles user roleIds) ∧
        RolesFit (u.withUserRoles user roleIds).db user roleIds :=
    fun u hu => ⟨run_insertUserRoles replica hu, hu⟩
  exact statement_repeatable fates Sql.DbError.retried hrun hfit 2 0

theorem ask_bumpTokenVersion (user : UserId) :
    ∃ i r, (executes fates (.bumpTokenVersion user) ↔ 0 < i) ∧
      Outcome (answers fates (.bumpTokenVersion user)) () r ∧
      (ask (.bumpTokenVersion user)).exec replica fates u = (r, u.bumped (· = user) i) := by
  have hrun : ∀ u : Tables, True →
      run replica (.bumpTokenVersion user) u = (.ok (), u.bumped (· = user) 1) ∧ True :=
    fun u _ => ⟨run_bumpTokenVersion user, trivial⟩
  obtain ⟨i, r, hi, hr, hexec⟩ :=
    statement_repeatable fates Sql.DbError.retried hrun (t := u) trivial 2 0
  exact ⟨i, r, hi, hr, hexec.trans (by rw [iterate_bumped])⟩

theorem exec_gather (user : UserId) (roleIds : List RoleId) (schedule : List Bool) :
    Write.exec (Program.gather schedule (ask (.insertUserRoles user roleIds))
        (ask (.bumpTokenVersion user))) replica fates t =
      (Program.gathered ((ask (.insertUserRoles user roleIds)).exec replica fates t).1
          ((ask (.bumpTokenVersion user)).exec replica fates
            ((ask (.insertUserRoles user roleIds)).exec replica fates t).2).1,
        ((ask (.bumpTokenVersion user)).exec replica fates
            ((ask (.insertUserRoles user roleIds)).exec replica fates t).2).2) := by
  refine Program.execute_gather (statement_makes 2 0) (statement_makes 2 0) ?_ schedule t
  rintro _ _ ⟨i, rfl⟩ ⟨j, rfl⟩
  exact attempt_commutes (insertUserRoles_commutes replica) i j

variable {replica fates}

theorem withUserRoles_iterate {j : ℕ} (hj : 0 < j) :
    (Tables.withUserRoles user roleIds)^[j] t = t.withUserRoles user roleIds :=
  iterate_of_idem withUserRoles_idem hj

theorem same_assigned {i j : ℕ} :
    Same t (((Tables.withUserRoles user roleIds)^[j] t).bumped (· = user) i) ↔
      (0 < j → ∀ r ∈ roleIds, (user, r) ∈ t.db.userRoles) ∧
        (0 < i → ∀ x ∈ t.db.users, x.id ≠ user) := by
  rcases Nat.eq_zero_or_pos j with rfl | hj
  · refine (same_bumped rfl rfl).trans ?_
    simp [same_refl]
  · rw [withUserRoles_iterate hj]
    refine (same_bumped (t := t) (u := t.withUserRoles user roleIds) rfl rfl).trans ?_
    simp [same_withUserRoles, hj]

/-- Both writes are answered, and the user is read. -/
theorem assignEnd_allOrNothing {i j : ℕ} (hi : 0 < i) (hj : 0 < j) :
    AllOrNothing (Same t) (RolesAssigned t user roleIds) (Write.exec (do
        let _ ← UserDAO.getById user
        pure ()) replica fates (((Tables.withUserRoles user roleIds)^[j] t).bumped (· = user) i)) ↔
      answers fates (.selectUser user) ∨ Same t
        (((Tables.withUserRoles user roleIds)^[j] t).bumped (· = user) i) := by
  rw [UserDAO.getById, ask_read rfl]
  cases answers fates (.selectUser user) with
  | false => simp
  | true =>
    rw [if_pos rfl]
    refine iff_of_true (allOrNothing_ok.mpr ⟨fun r hr => ?_, fun _ x hx hid => ?_⟩) (.inl rfl)
    · rw [withUserRoles_iterate hj]
      exact mem_withUserRoles.mpr (.inr ⟨rfl, hr⟩)
    · rw [withUserRoles_iterate hj]
      exact version_bumped rfl hi hx (decide_eq_true hid)

theorem assignRoles_allOrNothing (schedule : List Bool) :
    AllOrNothing (Same t) (RolesAssigned t user roleIds)
        ((UserDAO.assignRoles user roleIds schedule).exec replica fates t) ↔
      AssignRolesSafe fates t user roleIds := by
  unfold UserDAO.assignRoles AssignRolesSafe
  by_cases hids : roleIds = []
  · rw [if_pos hids]
    have hend : RolesAssigned t user roleIds t := ⟨by simp [hids], fun h => absurd hids h⟩
    exact iff_of_true (allOrNothing_ok.mpr hend) (.inl hids)
  rw [if_neg hids]
  have hgather := exec_gather replica fates (t := t) user roleIds schedule
  by_cases hfit : RolesFit t.db user roleIds
  · obtain ⟨j, q, hj, hq, hinsert⟩ := ask_insertUserRoles replica fates hfit
    rw [hinsert] at hgather
    obtain ⟨i, r, hi, hr, hbump⟩ := ask_bumpTokenVersion replica fates user
      (u := (Tables.withUserRoles user roleIds)^[j] t)
    rw [hbump] at hgather
    rw [(hq.gathered hr).allOrNothing_bind hgather]
    cases hinserts : answers fates (.insertUserRoles user roleIds) with
    | false => simp [hids, same_assigned, hi, hj, hfit]
    | true =>
      cases hbumps : answers fates (.bumpTokenVersion user) with
      | false => simp [hids, same_assigned, hi, hj, hfit]
      | true =>
        rw [Bool.true_and, if_pos rfl, assignEnd_allOrNothing (hi.mp (executes_of_answers hbumps))
          (hj.mp (executes_of_answers hinserts))]
        simp [hids, same_assigned, hi, hj, hfit]
  · obtain ⟨e, hrun⟩ := run_insertUserRoles_refused replica hfit
    obtain ⟨x, hx, hinsert⟩ := statement_rejected fates Sql.DbError.retried hrun 2 0
    rw [show (ask (.insertUserRoles user roleIds)).exec replica fates t = _ from hinsert] at hgather
    obtain ⟨i, r, hi, hr, hbump⟩ := ask_bumpTokenVersion replica fates user (u := t)
    rw [hbump] at hgather
    have hq : Outcome false () (.error x : Except (Raised DbError Sql.DbError) Unit) := ⟨x, hx, rfl⟩
    rw [(hq.gathered hr).allOrNothing_bind hgather]
    have hsame : Same t (t.bumped (· = user) i) ↔ (0 < i → ∀ x ∈ t.db.users, x.id ≠ user) :=
      (same_bumped rfl rfl).trans (by simp [same_refl])
    simp [hids, hfit, hsame, hi]

end assign

/-! ## `UserAdminView.edit` -/

def UpdateRefused (db : Database) (user : UserId) (upd : UserUpdate) : Prop :=
  (∃ x ∈ db.users, x.id = user) ∧
    (50 < (upd.username.getD "").length ∨ 255 < (upd.email.getD "").length ∨
      255 < (upd.fullName.getD "").length ∨
      (∃ x ∈ db.users, x.id ≠ user ∧ some x.username = upd.username) ∨
      ∃ x ∈ db.users, x.id ≠ user ∧ some x.email = upd.email)

/-- `COALESCE` of every given field. -/
def editUser (user : UserId) (upd : UserUpdate) (x : UserRow) : UserRow :=
  if x.id = user then { x with
    email := upd.email.getD x.email
    username := upd.username.getD x.username
    fullName := upd.fullName.or x.fullName } else x

def Tables.edited (user : UserId) (upd : UserUpdate) (t : Tables) : Tables :=
  t.touchUsers (· = user) (t.db.mapUsers (editUser user upd))

section edit
variable (replica) {user : UserId} {upd : UserUpdate}

@[simp] theorem editUser_id (x : UserRow) : (editUser user upd x).id = x.id := by
  unfold editUser
  split_ifs <;> rfl

theorem editUser_of_ne {x : UserRow} (h : x.id ≠ user) : editUser user upd x = x := if_neg h

theorem editUser_idem (x : UserRow) : editUser user upd (editUser user upd x) =
    editUser user upd x := by
  by_cases h : x.id = user
  · cases hemail : upd.email <;> cases hname : upd.username <;> cases hfull : upd.fullName <;>
      simp [editUser, h, hemail, hname, hfull]
  · rw [editUser_of_ne h, editUser_of_ne h]

theorem mapUsers_editUser_of_absent {db : Database} (h : ∀ x ∈ db.users, x.id ≠ user) :
    db.mapUsers (editUser user upd) = db := by
  have hrow : ∀ x ∈ db.users, editUser user upd x = id x := fun x hx => editUser_of_ne (h x hx)
  rw [Database.mapUsers, List.map_congr_left hrow, List.map_id]

theorem run_updateUser_refused (h : UpdateRefused t.db user upd) :
    ∃ e, run replica (.updateUser user upd) t = (.error e, t) := by
  obtain ⟨⟨x, hx, hid⟩, h⟩ := h
  have hfound : ¬ t.db.users.all (·.id ≠ user) = true := by
    intro hmissing
    simpa [hid] using List.all_eq_true.mp hmissing x hx
  rw [run, Database.updateUser, if_neg hfound]
  by_cases hname : (upd.username.getD "").length > 50
  · rw [if_pos hname]
    exact ⟨_, rfl⟩
  rw [if_neg hname]
  by_cases hemail : (upd.email.getD "").length > 255
  · rw [if_pos hemail]
    exact ⟨_, rfl⟩
  rw [if_neg hemail]
  by_cases hfull : (upd.fullName.getD "").length > 255
  · rw [if_pos hfull]
    exact ⟨_, rfl⟩
  rw [if_neg hfull]
  by_cases hnames : t.db.users.any (fun u => u.id ≠ user && some u.username = upd.username) = true
  · rw [if_pos hnames]
    exact ⟨_, rfl⟩
  rw [if_neg hnames]
  rcases h with h | h | h | ⟨y, hy, hne, he⟩ | ⟨y, hy, hne, he⟩
  · exact absurd h hname
  · exact absurd h hemail
  · exact absurd h hfull
  · exact absurd (List.any_eq_true.mpr ⟨y, hy, by simp [hne, he]⟩) hnames
  · have hemails : t.db.users.any (fun u => u.id ≠ user && some u.email = upd.email) = true :=
      List.any_eq_true.mpr ⟨y, hy, by simp [hne, he]⟩
    rw [if_pos hemails]
    exact ⟨_, rfl⟩

theorem run_updateUser (h : ¬UpdateRefused t.db user upd) :
    run replica (.updateUser user upd) t = (.ok (), t.edited user upd) := by
  by_cases hmissing : ∀ x ∈ t.db.users, x.id ≠ user
  · simp only [run, Database.updateUser, Tables.edited, mapUsers_editUser_of_absent hmissing]
    rw [if_pos (by simpa using hmissing)]
    rfl
  · have huser : ∃ x ∈ t.db.users, x.id = user := by simpa using hmissing
    simp only [UpdateRefused, huser, true_and, not_or, not_lt, not_exists, not_and] at h
    obtain ⟨hname, hemail, hfull, hnames, hemails⟩ := h
    simp only [run, Database.updateUser]
    rw [if_neg (by simpa using huser), if_neg (by simpa using hname), if_neg (by simpa using hemail),
      if_neg (by simpa using hfull), if_neg (by simpa using hnames), if_neg (by simpa using hemails)]
    rfl

/-- The edited row is left out of the constraints' comparisons, so the edit can be made again. -/
theorem updateRefused_edited : UpdateRefused (t.edited user upd).db user upd ↔
    UpdateRefused t.db user upd := by
  have hmem {P : UserRow → Prop} : (∃ x ∈ (t.edited user upd).db.users, x.id ≠ user ∧ P x) ↔
      ∃ x ∈ t.db.users, x.id ≠ user ∧ P x := by
    constructor
    · rintro ⟨_, hedited, hne, hP⟩
      obtain ⟨x, hx, rfl⟩ := List.mem_map.mp hedited
      rw [editUser_id] at hne
      rw [editUser_of_ne hne] at hP
      exact ⟨x, hx, hne, hP⟩
    · rintro ⟨x, hx, hne, hP⟩
      exact ⟨x, List.mem_map.mpr ⟨x, hx, editUser_of_ne hne⟩, hne, hP⟩
  have hid : (∃ x ∈ (t.edited user upd).db.users, x.id = user) ↔ ∃ x ∈ t.db.users, x.id = user := by
    simp [Tables.edited, Tables.touchUsers, Database.mapUsers]
  rw [UpdateRefused, UpdateRefused, hid, hmem, hmem]

/-- The fields are written once however often, and `updated_at` every time. -/
theorem iterate_edited (j : ℕ) :
    (Tables.edited user upd)^[j + 1] t = { t with
      db := t.db.mapUsers (editUser user upd)
      userUpdates := fun x => if x = user then t.userUpdates x + (j + 1) else t.userUpdates x } := by
  induction j with
  | zero => simp [Tables.edited, Tables.touchUsers]
  | succ j ih =>
    have hupdates : (fun x => if x = user then
        (if x = user then t.userUpdates x + (j + 1) else t.userUpdates x) + 1
        else if x = user then t.userUpdates x + (j + 1) else t.userUpdates x) =
        fun x => if x = user then t.userUpdates x + (j + 1 + 1) else t.userUpdates x := by
      funext x
      by_cases hx : x = user <;> simp [hx, Nat.add_assoc]
    rw [Function.iterate_succ_apply', ih]
    simp only [Tables.edited, Tables.touchUsers, Database.mapUsers, List.map_map, Function.comp_def,
      editUser_idem, decide_eq_true_eq, hupdates]

theorem same_edited {j : ℕ} : Same t ((Tables.edited user upd)^[j] t) ↔
    (0 < j → ∀ x ∈ t.db.users, x.id ≠ user) := by
  cases j with
  | zero => simp [same_refl]
  | succ j =>
    rw [iterate_edited]
    constructor
    · rintro h - x hx rfl
      have := h.userUpdates x hx
      simp only [if_true] at this
      omega
    · intro h
      rw [mapUsers_editUser_of_absent (h j.succ_pos)]
      refine ⟨rfl, fun x hx => ?_, rfl, rfl, fun _ _ => rfl, fun _ => Iff.rfl, fun _ => Iff.rfl⟩
      exact if_neg (h j.succ_pos x hx)

end edit

/-- Every field that the form gives is written. -/
def UserEdited (t : Tables) (pk : UserId) (form : UserAdminView.UserForm) (u : Tables) : Prop :=
  ∀ x ∈ t.db.users, x.id = pk → ∃ y ∈ u.db.users, y.id = pk ∧
    y.email = form.email.getD x.email ∧ y.username = form.username.getD x.username ∧
    y.fullName = form.fullName.or x.fullName ∧ ∀ b, form.isActive = some b → y.isActive = b

def formChanges (form : UserAdminView.UserForm) : UserUpdate :=
  { fullName := form.fullName, email := form.email, username := form.username }

/-- The form asks for the statement that names the missing column. -/
def givesFlags (form : UserAdminView.UserForm) : Prop :=
  form.isActive.isSome ∨ form.isSuperuser.isSome

/-- The form is invalid, or the update is rejected or meets no user, or it and the read that
follows are answered and the form gives no flag, or the read finds nobody. -/
def EditSafe [External] (replica : Option Database) (fates : Fates Statement Sql.DbError)
    (t : Tables) (pk : UserId) (form : UserAdminView.UserForm) : Prop :=
  (∃ email, form.email = some email ∧ ¬External.emailValid email) ∨
    UpdateRefused t.db pk (formChanges form) ∨
    (executes fates (.updateUser pk (formChanges form)) → ∀ x ∈ t.db.users, x.id ≠ pk) ∨
    answers fates (.updateUser pk (formChanges form)) ∧ answers fates (.selectUser pk) ∧
      (givesFlags form → ∀ x ∈ (replica.getD t.db).users, x.id ≠ pk)

section edit
variable {pk : UserId} {form : UserAdminView.UserForm}

theorem selectUser_eq_none {db : Database} :
    db.selectUser (.id pk) = none ↔ ∀ x ∈ db.users, x.id ≠ pk := by
  simp [Database.selectUser, Database.matchesUser]

theorem userEdited_iterate {j : ℕ} (hflags : ¬givesFlags form) :
    UserEdited t pk form ((Tables.edited pk (formChanges form))^[j + 1] t) := by
  rintro x hx rfl
  have hrow : editUser x.id (formChanges form) x = { x with
      email := form.email.getD x.email
      username := form.username.getD x.username
      fullName := form.fullName.or x.fullName } := if_pos rfl
  refine ⟨editUser x.id (formChanges form) x, ?_, editUser_id x, ?_, ?_, ?_, fun b hb => ?_⟩
  · rw [iterate_edited]
    exact List.mem_map_of_mem hx
  · rw [hrow]
  · rw [hrow]
  · rw [hrow]
  · exact absurd (.inl (by simp [hb])) hflags

/-- The read of the edited user and what follows it. -/
theorem editEnd_allOrNothing {j : ℕ} :
    AllOrNothing (Same t) (UserEdited t pk form) (Write.exec (do
        let found ← UserDAO.getById pk
        let user ← UserAdminView.orNotFound pk found
        UserAdminView.updateFlags pk form user) replica fates
          ((Tables.edited pk (formChanges form))^[j + 1] t)) ↔
      (∀ x ∈ t.db.users, x.id ≠ pk) ∨ answers fates (.selectUser pk) ∧
        (givesFlags form → ∀ x ∈ (replica.getD t.db).users, x.id ≠ pk) := by
  have hsame : Same t ((Tables.edited pk (formChanges form))^[j + 1] t) ↔
      ∀ x ∈ t.db.users, x.id ≠ pk := same_edited.trans (imp_iff_right j.succ_pos)
  have hread : (∀ x ∈ (replica.getD ((Tables.edited pk (formChanges form))^[j + 1] t).db).users,
      x.id ≠ pk) ↔ ∀ x ∈ (replica.getD t.db).users, x.id ≠ pk := by
    cases replica with
    | some db => rfl
    | none => simp [iterate_edited, Database.mapUsers]
  rw [UserDAO.getById, ask_read rfl]
  cases answers fates (.selectUser pk) with
  | false => simp [-Function.iterate_succ, hsame]
  | true =>
    rw [if_pos rfl]
    cases hfound : (replica.getD ((Tables.edited pk (formChanges form))^[j + 1] t).db).selectUser
        (.id pk) with
    | none =>
      rw [selectUser_eq_none, hread] at hfound
      exact iff_of_true (allOrNothing_error.mpr False.elim) (.inr ⟨rfl, fun _ => hfound⟩)
    | some user =>
      have hsome : ¬∀ x ∈ (replica.getD t.db).users, x.id ≠ pk := by
        rw [← hread, ← selectUser_eq_none, hfound]
        exact Option.some_ne_none user
      change AllOrNothing _ _ (Write.exec (UserAdminView.updateFlags pk form user) _ _ _) ↔ _
      unfold UserAdminView.updateFlags
      by_cases hflags : givesFlags form
      · have hgiven : form.isActive.isSome ∨ form.isSuperuser.isSome := hflags
        rw [if_pos hgiven, ask_rejected rfl]
        simp [-Function.iterate_succ, hsame, hflags, hsome]
      · have hnone : ¬(form.isActive.isSome ∨ form.isSuperuser.isSome) := hflags
        rw [if_neg hnone]
        exact iff_of_true (allOrNothing_ok.mpr (userEdited_iterate hflags))
          (.inr ⟨rfl, fun h => absurd h hflags⟩)

theorem edit_allOrNothing [External] :
    AllOrNothing (Same t) (UserEdited t pk form)
        ((UserAdminView.edit pk form).exec replica fates t) ↔
      EditSafe replica fates t pk form := by
  unfold UserAdminView.edit UserAdminView.formUpdate EditSafe
  have hany : form.email.any (fun email => ¬External.emailValid email) = true ↔
      ∃ email, form.email = some email ∧ ¬External.emailValid email := by
    cases form.email <;> simp
  by_cases hemail : form.email.any (fun email => ¬External.emailValid email) = true
  · rw [if_pos hemail]
    exact iff_of_true (allOrNothing_error.mpr nofun) (.inl (hany.mp hemail))
  rw [if_neg hemail, Program.pure_bind, UserDAO.updateUser, Program.bind_assoc,
    or_iff_right (mt hany.mpr hemail)]
  by_cases hrefused : UpdateRefused t.db pk (formChanges form)
  · obtain ⟨e, hrun⟩ := run_updateUser_refused replica hrefused
    exact iff_of_true ((ask_rejected hrun).mpr (same_refl t)) (.inl hrefused)
  · have hrun : ∀ u : Tables, ¬UpdateRefused u.db pk (formChanges form) →
        run replica (.updateUser pk (formChanges form)) u = (.ok (), u.edited pk (formChanges form)) ∧
          ¬UpdateRefused (u.edited pk (formChanges form)).db pk (formChanges form) :=
      fun u hu => ⟨run_updateUser replica hu, mt updateRefused_edited.mp hu⟩
    obtain ⟨j, hj, hiff⟩ := ask_repeatable hrun hrefused
    refine hiff.trans ?_
    rw [or_iff_right hrefused]
    cases hanswers : answers fates (.updateUser pk (formChanges form)) with
    | false => simp [same_edited, hj]
    | true =>
      have hpos : 0 < j := hj.mp (executes_of_answers hanswers)
      rw [if_pos rfl]
      obtain ⟨i, rfl⟩ := Nat.exists_eq_succ_of_ne_zero hpos.ne'
      refine editEnd_allOrNothing.trans ?_
      simp [hj.mpr hpos]

end edit

end FastapiTemplate.AccountWrites
