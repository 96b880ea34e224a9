import FastapiTemplate.LoginPaths

/-!
# Linking Google accounts

What a successful `handle_google_oauth` has done to the identities, over the tables under the
constraints of `001_users.sql`: it has found the owner of the identity, linked it to the user with
the verified email address, or created its owner.
-/

namespace FastapiTemplate

variable {s t : State}

namespace Database

variable (db : Database)

def OwnsGoogle (sub : String) (user : UserId) : Prop :=
  ∃ i ∈ db.userIdentities, i.provider = "google" ∧ i.providerUserId = sub ∧ i.userId = user

def identitiesOf (user : UserId) : List IdentityRow := db.userIdentities.filter (·.userId = user)

variable {db}

theorem matchesUser_googleSub {sub : String} {u : UserRow} :
    db.matchesUser (.googleSub sub) u = true ↔ db.OwnsGoogle sub u.id := by
  simp only [matchesUser, OwnsGoogle, List.any_eq_true, Bool.and_eq_true, decide_eq_true_eq]
  constructor
  · rintro ⟨i, hi, ⟨huser, hprovider⟩, hsub⟩
    exact ⟨i, hi, hprovider, hsub, huser⟩
  · rintro ⟨i, hi, hprovider, hsub, huser⟩
    exact ⟨i, hi, ⟨huser, hprovider⟩, hsub⟩

/-- The row is new in both of its unique keys, and belongs to a stored user. -/
theorem insertIdentity_ok {user : UserId} {info : GoogleUserInfo}
    (h : (db.insertIdentity user info).1 = .ok ()) :
    (∃ u ∈ db.users, u.id = user) ∧ (∀ id, ¬ db.OwnsGoogle info.sub id) ∧
      ∃ row : IdentityRow, row.userId = user ∧ row.provider = "google" ∧
        row.providerUserId = info.sub ∧ (db.insertIdentity user info).2 =
          { db with userIdentities := db.userIdentities ++ [row] } := by
  unfold insertIdentity at h ⊢
  split_ifs at h ⊢ with hlength huser howned hlinked
  refine ⟨by simpa using huser, ?_, _, rfl, rfl, rfl, rfl⟩
  rintro id ⟨i, hi, hprovider, hsub, -⟩
  apply howned
  exact List.any_eq_true.mpr ⟨i, hi, by simp [hprovider, hsub]⟩

theorem ownsGoogle_append {rows : List IdentityRow} {sub : String}
    (hnone : ∀ id, ¬ db.OwnsGoogle sub id) {row : IdentityRow} (hprovider : row.provider = "google")
    (hsub : row.providerUserId = sub) (hrows : rows = db.userIdentities ++ [row]) (id : UserId) :
    { db with userIdentities := rows }.OwnsGoogle sub id ↔ id = row.userId := by
  subst hrows
  constructor
  · rintro ⟨i, hi, hi'⟩
    rcases List.mem_append.mp hi with hold | hnew
    · exact absurd ⟨i, hold, hi'⟩ (hnone id)
    · rw [← hi'.2.2, List.mem_singleton.mp hnew]
  · rintro rfl
    exact ⟨row, List.mem_append_right _ (List.mem_singleton_self row), hprovider, hsub, rfl⟩

theorem identitiesOf_append {row : IdentityRow} {id : UserId} (hne : id ≠ row.userId) :
    { db with userIdentities := db.userIdentities ++ [row] }.identitiesOf id =
      db.identitiesOf id := by
  unfold identitiesOf
  rw [List.filter_append, List.filter_singleton]
  simp [Ne.symm hne]

end Database

/-- The constraints on `users` and `user_identities`; identifiers that are still to be drawn are
new. -/
structure AccountConstraints (s : State) : Prop where
  usersPkey : (s.db.users.map (·.id)).Nodup
  usersUsernameKey : (s.db.users.map (·.username)).Nodup
  usersEmailKey : (s.db.users.map (·.email)).Nodup
  userIdentitiesUserIdFkey : ∀ i ∈ s.db.userIdentities, ∃ u ∈ s.db.users, u.id = i.userId
  userIdentitiesProviderUid :
    (s.db.userIdentities.map (fun i => (i.provider, i.providerUserId))).Nodup
  userIdentitiesUserProvider : (s.db.userIdentities.map (fun i => (i.userId, i.provider))).Nodup
  drawn : ∀ u ∈ s.db.users, u.id < s.nextId

theorem AccountConstraints.owner_unique (h : AccountConstraints s) {sub : String} {id other : UserId}
    (hid : s.db.OwnsGoogle sub id) (hother : s.db.OwnsGoogle sub other) : id = other := by
  obtain ⟨i, hi, hprovider, hsub, rfl⟩ := hid
  obtain ⟨j, hj, hprovider', hsub', rfl⟩ := hother
  have hij : i = j := by
    apply List.inj_on_of_nodup_map h.userIdentitiesProviderUid hi hj
    rw [hprovider, hsub, hprovider', hsub']
  rw [hij]

/-! ## The three ways to succeed -/

theorem exec_supply_db {α : Type} {p : App α} (hp : WritesOnly [.supply] p) (s : State) :
    (p.exec s).2.db = s.db := by
  apply hp.exec_rel (fun s t => t.db = s.db) (fun _ => rfl) (fun _ _ _ h h' => h'.trans h)
  intro c hc s
  cases c with
  | draw => rfl
  | redisSet key value ex => exact redisSet_db s key value ex
  | now | redisGet | redisDelete | selectUser | selectRole | selectTwoFactor | selectSystemConfig =>
    rfl
  | _ => exact absurd (List.mem_singleton.mp (hc _ rfl)) (by simp)

variable [External]

inductive OauthOutcome (s : State) (info : GoogleUserInfo) (user : UserData) (t : State) : Prop
  | found (hfound : s.db.selectUser (.googleSub info.sub) = some user) (hstate : t = s)
  | linked {email : String} (hemail : info.email = some email) (hverified : info.emailVerified = true)
      (hfound : s.db.selectUser (.email email) = some user)
      (hlink : (UserDAO.addIdentity user.id info).exec s = (.ok (), t))
  | created {userIn : UserCreate} {u : State} (hdb : u.db = s.db) (hnext : s.nextId ≤ u.nextId)
      (hcreate : (UserDAO.createUserOauth userIn info).exec u = (.ok user, t))

omit [External] in
theorem requireEmail_state (info : GoogleUserInfo) (s : State) :
    ((AuthService.requireEmail info).exec s).2 = s := by
  unfold AuthService.requireEmail
  split <;> rfl

omit [External] in
theorem baseName_state (info : GoogleUserInfo) (s : State) :
    ((AuthService.baseName info).exec s).2 = s := by
  have hlocal : ((AuthService.emailLocalPart info).exec s).2 = s := by
    unfold AuthService.emailLocalPart AuthService.requireEmail
    split <;> rfl
  unfold AuthService.baseName
  split
  · exact hlocal
  · split
    · exact hlocal
    · rfl

theorem createGoogleUser_outcome {info : GoogleUserInfo} {user : UserData}
    (h : (AuthService.createGoogleUser info).exec s = (.ok user, t)) :
    OauthOutcome s info user t := by
  obtain ⟨name, s₁, hname, hrest⟩ := exec_bind_ok.mp h
  obtain ⟨username, s₂, husername, hrest⟩ := exec_bind_ok.mp hrest
  obtain ⟨email, s₃, hemail, hcreate⟩ := exec_bind_ok.mp hrest
  have h₁ := baseName_state info s
  have h₂ := exec_supply_db (AuthService.generateUniqueUsername_writes name) s₁
  have hnext := exec_nextId (AuthService.generateUniqueUsername name) s₁
  have h₃ := requireEmail_state info s₂
  rw [hname] at h₁
  rw [husername] at h₂ hnext
  rw [hemail] at h₃
  dsimp only at h₁ h₂ h₃ hnext
  subst h₁ h₃
  split at hcreate
  · cases hcreate
  · exact .created h₂ hnext hcreate

theorem handleGoogleOauth_outcome {info : GoogleUserInfo} {user : UserData}
    (h : (AuthService.handleGoogleOauth info).exec s = (.ok user, t)) :
    OauthOutcome s info user t := by
  rw [AuthService.handleGoogleOauth, UserDAO.getByGoogleSub, exec_ask_bind] at h
  simp only [handler] at h
  cases hsub : s.db.selectUser (.googleSub info.sub) with
  | some found =>
    rw [hsub] at h
    cases h
    exact .found hsub rfl
  | none =>
    rw [hsub] at h
    dsimp only at h
    cases hemail : info.email with
    | none =>
      rw [hemail] at h
      exact createGoogleUser_outcome h
    | some email =>
      rw [hemail] at h
      dsimp only at h
      split at h
      case isTrue => exact createGoogleUser_outcome h
      case isFalse =>
        rw [UserDAO.getByEmail, exec_ask_bind] at h
        simp only [handler] at h
        cases hfound : s.db.selectUser (.email email) with
        | none =>
          rw [hfound] at h
          exact createGoogleUser_outcome h
        | some found =>
          rw [hfound] at h
          dsimp only at h
          split at h
          case isTrue hverified =>
            obtain ⟨_, u, hlink, h⟩ := exec_bind_ok.mp h
            cases h
            exact .linked hemail hverified hfound hlink
          case isFalse => exact createGoogleUser_outcome h

/-! ## Linking -/

structure LinkedSafely (s t : State) (info : GoogleUserInfo) (user : UserData) : Prop where
  /-- a new user, the owner of the identity, or the user with the verified email address -/
  returned : (∀ u ∈ s.db.users, u.id ≠ user.id) ∨ ∃ u ∈ s.db.users, user = s.db.userData u ∧
    (s.db.OwnsGoogle info.sub u.id ∨ info.email = some u.email ∧ info.emailVerified = true)
  stored : ∃ u ∈ t.db.users, u.id = user.id
  owner : ∀ id, t.db.OwnsGoogle info.sub id ↔ id = user.id
  others : ∀ id, id ≠ user.id → t.db.identitiesOf id = s.db.identitiesOf id
  again : ∀ later : GoogleUserInfo, later.sub = info.sub →
    ∃ found, (AuthService.handleGoogleOauth later).exec t = (.ok found, t) ∧ found.id = user.id

/-- The stored owner is found by the identity. -/
theorem handleGoogleOauth_again {sub : String} {user : UserId}
    (hstored : ∃ u ∈ t.db.users, u.id = user)
    (howner : ∀ id, t.db.OwnsGoogle sub id ↔ id = user) {info : GoogleUserInfo}
    (hsub : info.sub = sub) :
    ∃ found, (AuthService.handleGoogleOauth info).exec t = (.ok found, t) ∧ found.id = user := by
  subst hsub
  obtain ⟨u, hu, hid⟩ := hstored
  rw [AuthService.handleGoogleOauth, UserDAO.getByGoogleSub, exec_ask_bind]
  simp only [handler]
  cases hfind : t.db.selectUser (.googleSub info.sub) with
  | none =>
    have hnone := List.find?_eq_none.mp (Option.map_eq_none_iff.mp hfind) u hu
    exact absurd (Database.matchesUser_googleSub.mpr ((howner u.id).mpr hid)) hnone
  | some found =>
    obtain ⟨v, -, hmatch, rfl⟩ := selectUser_eq_some hfind
    refine ⟨_, rfl, ?_⟩
    exact (howner v.id).mp (Database.matchesUser_googleSub.mp hmatch)

omit [External] in
theorem addIdentity_ok {user : UserId} {info : GoogleUserInfo}
    (h : (UserDAO.addIdentity user info).exec s = (.ok (), t)) :
    (s.db.insertIdentity user info).1 = .ok () ∧
      t.db = (s.db.insertIdentity user info).2 := by
  rw [UserDAO.addIdentity, exec_ask_bind, exec_ofDb_ok] at h
  obtain ⟨hok, rfl⟩ := h
  exact ⟨hok, rfl⟩

omit [External] in
/-- An inserted identity has its user for its owner, and leaves everything else. -/
theorem addIdentity_links {user : UserId} {info : GoogleUserInfo}
    (h : (UserDAO.addIdentity user info).exec s = (.ok (), t)) :
    (∃ u ∈ t.db.users, u.id = user) ∧ (∀ id, t.db.OwnsGoogle info.sub id ↔ id = user) ∧
      ∀ id, id ≠ user → t.db.identitiesOf id = s.db.identitiesOf id := by
  obtain ⟨hok, hdb⟩ := addIdentity_ok h
  obtain ⟨hstored, hnone, row, rfl, hprovider, hsub, hrows⟩ := Database.insertIdentity_ok hok
  rw [hdb, hrows]
  exact ⟨hstored, Database.ownsGoogle_append hnone hprovider hsub rfl,
    fun id hne => Database.identitiesOf_append hne⟩

omit [External] in
theorem createUserOauth_links {userIn : UserCreate} {info : GoogleUserInfo} {user : UserData}
    (h : (UserDAO.createUserOauth userIn info).exec s = (.ok user, t)) :
    (∃ u ∈ t.db.users, u.id = user.id) ∧ (∀ id, t.db.OwnsGoogle info.sub id ↔ id = user.id) ∧
      ∀ id, id ≠ user.id → t.db.identitiesOf id = s.db.identitiesOf id := by
  obtain ⟨created, u, hcreate, hrest⟩ := exec_bind_ok.mp h
  obtain ⟨_, v, hlink, hanswer⟩ := exec_bind_ok.mp hrest
  cases hanswer
  rw [UserDAO.createUser, exec_ask_bind, exec_ofDb_ok] at hcreate
  obtain ⟨hrow, rfl⟩ := hcreate
  obtain ⟨hstored, howner, hothers⟩ := addIdentity_links hlink
  refine ⟨hstored, howner, ?_⟩
  intro id hne
  rw [hothers id hne]
  rcases s.db.insertUser_cases s.nextId userIn none with ⟨e, hc⟩ | ⟨row, -, -, -, hc⟩
  · simp only [handler, hc]
  · simp only [handler, hc]
    rfl

theorem handleGoogleOauth_safe (hs : AccountConstraints s) {info : GoogleUserInfo} {user : UserData}
    (h : (AuthService.handleGoogleOauth info).exec s = (.ok user, t)) :
    LinkedSafely s t info user := by
  cases handleGoogleOauth_outcome h with
  | found hfound hstate =>
    subst hstate
    obtain ⟨u, hu, hmatch, rfl⟩ := selectUser_eq_some hfound
    have howns := Database.matchesUser_googleSub.mp hmatch
    have howner (id : UserId) : t.db.OwnsGoogle info.sub id ↔ id = u.id := by
      constructor
      · intro hid
        exact hs.owner_unique hid howns
      · rintro rfl
        exact howns
    exact ⟨.inr ⟨u, hu, rfl, .inl howns⟩, ⟨u, hu, rfl⟩, howner, fun _ _ => rfl,
      fun later hsub => handleGoogleOauth_again ⟨u, hu, rfl⟩ howner hsub⟩
  | linked hemail hverified hfound hlink =>
    obtain ⟨u, hu, hmatch, rfl⟩ := selectUser_eq_some hfound
    have hsame : u.email = _ := of_decide_eq_true hmatch
    obtain ⟨hstored, howner, hothers⟩ := addIdentity_links hlink
    exact ⟨.inr ⟨u, hu, rfl, .inr ⟨hemail.trans (congrArg some hsame.symm), hverified⟩⟩, hstored,
      howner, hothers, fun later hsub => handleGoogleOauth_again hstored howner hsub⟩
  | created hdb hnext hcreate =>
    obtain ⟨hstored, howner, hothers⟩ := createUserOauth_links hcreate
    rw [hdb] at hothers
    refine ⟨.inl ?_, hstored, howner, hothers,
      fun later hsub => handleGoogleOauth_again hstored howner hsub⟩
    intro u hu hid
    have hlt := hs.drawn u hu
    rw [hid] at hlt
    exact absurd (hnext.trans (createUserOauth_ok hcreate).fresh) (not_le.mpr hlt)

def unlinkedState : State where
  db := { users := [⟨0, "testuser", "test@example.com", none, none, true, 1⟩] }
  redis := .empty
  clock := 0
  nextId := 1

def verifiedProfile : GoogleUserInfo := ⟨"1098", some "test@example.com", true, some "Test"⟩

omit [External] in
theorem unlinkedState_constraints : AccountConstraints unlinkedState where
  usersPkey := List.nodup_singleton _
  usersUsernameKey := List.nodup_singleton _
  usersEmailKey := List.nodup_singleton _
  userIdentitiesUserIdFkey := nofun
  userIdentitiesProviderUid := List.nodup_nil
  userIdentitiesUserProvider := List.nodup_nil
  drawn := by simp [unlinkedState]

omit [External] in
theorem handleGoogleOauth_safe_verifiedProfile :
    letI := External.plain
    ∃ user t, (AuthService.handleGoogleOauth verifiedProfile).exec unlinkedState = (.ok user, t) ∧
      user.id = 0 ∧ LinkedSafely unlinkedState t verifiedProfile user := by
  let _ := External.plain
  exact ⟨_, _, rfl, rfl, handleGoogleOauth_safe unlinkedState_constraints rfl⟩

end FastapiTemplate
