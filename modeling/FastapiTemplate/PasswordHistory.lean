import FastapiTemplate.AdminSessions
import FastapiTemplate.MigrationFiles
import FastapiTemplate.SecondFactorGate

/-!
# The passwords of the accounts

A registration and a password change store the hash of a password, which the schema of either
request has found strong. No other operation touches a stored hash, and an account that comes from
Google has none.
-/

namespace FastapiTemplate

/-! ## Strong passwords -/

def specialCharacters : List Char := ['@', '$', '!', '%', '*', '?', '&']

def validatePasswordStrength (v : String) : Except String String :=
  if v.length < 8 then .error "Password must be at least 8 characters long"
  else if ¬ v.toList.any Char.isLower then .error "Password must contain a lowercase letter"
  else if ¬ v.toList.any Char.isUpper then .error "Password must contain an uppercase letter"
  else if ¬ v.toList.any (fun c => (Migrations.digitValue? c).isSome) then
    .error "Password must contain a number"
  else if ¬ v.toList.any specialCharacters.contains then
    .error "Password must contain a special character (@$!%*?&)"
  else .ok v

structure StrongPassword (v : String) : Prop where
  long : 8 ≤ v.length
  lower : ∃ c ∈ v.toList, c.isLower
  upper : ∃ c ∈ v.toList, c.isUpper
  number : ∃ c ∈ v.toList, (Migrations.digitValue? c).isSome
  special : ∃ c ∈ v.toList, specialCharacters.contains c

theorem validatePasswordStrength_ok_iff {v v' : String} :
    validatePasswordStrength v = .ok v' ↔ v' = v ∧ StrongPassword v := by
  constructor
  · intro h
    unfold validatePasswordStrength at h
    split_ifs at h with hlong hlower hupper hnumber hspecial
    cases h
    exact ⟨rfl, Nat.le_of_not_lt hlong, List.any_eq_true.mp hlower, List.any_eq_true.mp hupper,
      List.any_eq_true.mp hnumber, List.any_eq_true.mp hspecial⟩
  · rintro ⟨rfl, h⟩
    rw [validatePasswordStrength, if_neg (Nat.not_lt.mpr h.long),
      if_neg (not_not.mpr (List.any_eq_true.mpr h.lower)),
      if_neg (not_not.mpr (List.any_eq_true.mpr h.upper)),
      if_neg (not_not.mpr (List.any_eq_true.mpr h.number)),
      if_neg (not_not.mpr (List.any_eq_true.mpr h.special))]

/-! ## Stored hashes -/

variable {s t u : State}

/-- The users of `t` have the hashes that they have in `s`, and new ones have none. -/
structure HashesKept (s t : State) : Prop where
  grows : s.nextId ≤ t.nextId
  users : ∀ v ∈ t.db.users, (∃ u ∈ s.db.users, u.id = v.id ∧ u.hashedPassword = v.hashedPassword) ∨
    s.nextId ≤ v.id ∧ v.hashedPassword = none

namespace HashesKept

theorem of_rows (hgrows : s.nextId ≤ t.nextId) (h : ∀ v ∈ t.db.users, ∃ u ∈ s.db.users,
    u.id = v.id ∧ u.hashedPassword = v.hashedPassword) : HashesKept s t :=
  ⟨hgrows, fun v hv => .inl (h v hv)⟩

theorem of_subset (hgrows : s.nextId ≤ t.nextId) (h : ∀ v ∈ t.db.users, v ∈ s.db.users) :
    HashesKept s t := of_rows hgrows (fun v hv => ⟨v, h v hv, rfl, rfl⟩)

theorem refl (s : State) : HashesKept s s := of_subset (le_refl _) (fun _ => id)

theorem trans (hst : HashesKept s t) (htu : HashesKept t u) : HashesKept s u := by
  refine ⟨hst.grows.trans htu.grows, fun v hv => ?_⟩
  rcases htu.users v hv with ⟨w, hw, hid, hhash⟩ | ⟨hnew, hnone⟩
  · rcases hst.users w hw with ⟨x, hx, hxid, hxhash⟩ | ⟨hnew, hnone⟩
    · exact .inl ⟨x, hx, hxid.trans hid, hxhash.trans hhash⟩
    · exact .inr ⟨hid ▸ hnew, hhash ▸ hnone⟩
  · exact .inr ⟨hst.grows.trans hnew, hnone⟩

end HashesKept

theorem Database.insertUser_row (db : Database) (id : UserId) (user : UserCreate)
    (hash : Option String) : (∃ e, db.insertUser id user hash = (.error e, db)) ∨
      ∃ row : UserRow, row.id = id ∧ row.hashedPassword = hash ∧
        db.insertUser id user hash =
          (.ok { db.userData row with roles := [] }, { db with users := db.users ++ [row] }) := by
  unfold insertUser
  split_ifs
  · exact .inl ⟨_, rfl⟩
  · exact .inl ⟨_, rfl⟩
  · exact .inl ⟨_, rfl⟩
  · exact .inl ⟨_, rfl⟩
  · exact .inl ⟨_, rfl⟩
  · exact .inr ⟨_, rfl, rfl, rfl⟩

theorem Database.updateUser_hashes (db : Database) (user : UserId) (upd : UserUpdate) :
    ∀ v ∈ (db.updateUser user upd).2.users, ∃ u ∈ db.users,
      u.id = v.id ∧ u.hashedPassword = v.hashedPassword := by
  intro v hv
  rcases db.updateUser_cases user upd with h | ⟨f, hf, h⟩
  · rw [h] at hv
    exact ⟨v, hv, rfl, rfl⟩
  · rw [h] at hv
    obtain ⟨u, hu, rfl⟩ := List.mem_map.mp hv
    obtain ⟨hid, -, -, hhash⟩ := hf u
    exact ⟨u, hu, hid.symm, hhash.symm⟩

def Call.keepsHashes : Call → Bool
  | .insertUser _ hash => hash.isNone
  | .updatePassword .. => false
  | _ => true

theorem hashesKept_bump (hgrows : s.nextId ≤ t.nextId) (p : UserRow → Prop) [DecidablePred p]
    (husers : t.db.users = s.db.users.map
      (fun u => if p u then { u with tokenVersion := u.tokenVersion + 1 } else u)) :
    HashesKept s t := by
  refine .of_rows hgrows (fun v hv => ?_)
  rw [husers] at hv
  obtain ⟨u, hu, rfl⟩ := List.mem_map.mp hv
  refine ⟨u, hu, ?_⟩
  by_cases hp : p u
  · rw [if_pos hp]
    exact ⟨rfl, rfl⟩
  · rw [if_neg hp]
    exact ⟨rfl, rfl⟩

theorem handler_hashesKept (c : Call) (s : State) (hkeeps : c.keepsHashes) :
    HashesKept s (handler c s).2 := by
  have hgrows := handler_nextId c s
  cases c with
  | insertUser user hash =>
    obtain rfl : hash = none := Option.isNone_iff_eq_none.mp hkeeps
    refine ⟨hgrows, ?_⟩
    simp only [handler]
    rcases s.db.insertUser_row s.nextId user none with ⟨e, h⟩ | ⟨row, hid, hhash, h⟩
    · rw [h]
      exact fun v hv => .inl ⟨v, hv, rfl, rfl⟩
    · rw [h]
      intro v hv
      rcases List.mem_append.mp hv with hv | hv
      · exact .inl ⟨v, hv, rfl, rfl⟩
      · rw [List.mem_singleton.mp hv]
        exact .inr ⟨hid.ge, hhash⟩
  | updateUser user upd => exact .of_rows hgrows (s.db.updateUser_hashes user upd)
  | updatePassword user hash => cases hkeeps
  | bumpTokenVersion user => exact hashesKept_bump hgrows (fun u => u.id = user) rfl
  | bumpRoleHolders role =>
    exact hashesKept_bump hgrows (fun u => (u.id, role) ∈ s.db.userRoles) rfl
  | deleteRoleTransaction role =>
    exact hashesKept_bump hgrows (fun u => (u.id, role) ∈ s.db.userRoles) rfl
  | deleteUsers ids => exact .of_subset hgrows (fun v hv => (List.mem_filter.mp hv).1)
  | insertIdentity user info =>
    refine .of_subset hgrows ?_
    simp only [handler]
    rcases s.db.insertIdentity_cases user info with ⟨e, h⟩ | ⟨rows, h⟩ <;> rw [h] <;>
      exact fun _ => id
  | redisSet key value ex =>
    refine .of_subset hgrows ?_
    simp only [handler, redisSet_db]
    exact fun _ => id
  | redisDelete key => exact .of_subset hgrows (fun _ => id)
  | _ =>
    refine .of_subset hgrows ?_
    rw [(handler_frame _ s).users (by simp [Call.Avoids, Call.area])]
    exact fun _ => id

def KeepsHashes {α : Type} (p : App α) : Prop := p.Makes (fun c => c.keepsHashes = true)

namespace KeepsHashes

variable {α β : Type} {p : App α}

theorem exec (h : KeepsHashes p) (s : State) : HashesKept s (p.exec s).2 :=
  Program.Makes.execute_rel h handler HashesKept HashesKept.refl (fun _ _ _ => HashesKept.trans)
    (fun c hc s => handler_hashesKept c s hc) s

theorem bind {f : α → App β} (h : KeepsHashes p) (hf : ∀ a, KeepsHashes (f a)) :
    KeepsHashes (p >>= f) := Program.Makes.bind h hf

theorem ask {c : Call} (h : c.keepsHashes) : KeepsHashes (App.ask c) :=
  (Program.makes_perform c).mpr h

theorem of_writes {areas : List Area} (h : WritesOnly areas p) (haccounts : .accounts ∉ areas)
    (hversions : .versions ∉ areas) : KeepsHashes p := by
  refine Program.Makes.mono h (fun c hc => ?_)
  cases c with
  | insertUser user hash => exact absurd (hc _ rfl) haccounts
  | updatePassword user hash => exact absurd (hc _ rfl) hversions
  | _ => rfl

end KeepsHashes

/-! ## What the operations store -/

section programs
variable [External]

omit [External] in
theorem updateUser_keepsHashes (user : UserId) (upd : UserUpdate) :
    KeepsHashes (UserDAO.updateUser user upd) :=
  .bind (.ask rfl) (fun _ => .bind (makes_ofDb _) (fun _ => .ask rfl))

omit [External] in
theorem createUserOauth_keepsHashes {user : UserCreate} (info : GoogleUserInfo) :
    KeepsHashes (UserDAO.createUserOauth user info) :=
  .bind (.bind (.ask rfl) (fun _ => makes_ofDb _)) (fun _ =>
    .bind (.bind (.ask rfl) (fun _ => makes_ofDb _)) (fun _ => trivial))

theorem createGoogleUser_keepsHashes (info : GoogleUserInfo) :
    KeepsHashes (AuthService.createGoogleUser info) := by
  have hemail : KeepsHashes (AuthService.requireEmail info) := by
    unfold AuthService.requireEmail
    split <;> trivial
  have hpart : KeepsHashes (AuthService.emailLocalPart info) := hemail.bind (fun _ => trivial)
  have hname : KeepsHashes (AuthService.baseName info) := by
    unfold AuthService.baseName
    split
    · exact hpart
    · split_ifs
      · exact hpart
      · trivial
  refine hname.bind (fun name => .bind ?_ (fun username => hemail.bind (fun email => ?_)))
  · exact .of_writes (AuthService.generateUniqueUsername_writes name) (by simp) (by simp)
  · split
    · trivial
    · exact createUserOauth_keepsHashes info

theorem handleGoogleOauth_keepsHashes (info : GoogleUserInfo) :
    KeepsHashes (AuthService.handleGoogleOauth info) := by
  have hcreate := createGoogleUser_keepsHashes info
  refine .bind (.ask rfl) (fun bySub => ?_)
  cases bySub with
  | some user => trivial
  | none =>
    dsimp only
    split
    · exact hcreate
    · split
      · exact hcreate
      · refine .bind (.ask rfl) (fun byEmail => ?_)
        cases byEmail with
        | none => exact hcreate
        | some user =>
          dsimp only
          split
          · exact .bind (.bind (.ask rfl) (fun _ => makes_ofDb _)) (fun _ => trivial)
          · exact hcreate

theorem googleCallback_keepsHashes (state : Option ℕ) (exchange : Except Detail GoogleUserInfo)
    (request : Request) : KeepsHashes (googleCallback state exchange request) := by
  unfold googleCallback
  split
  · trivial
  · refine .bind (.ask rfl) (fun found => ?_)
    cases found with
    | none => trivial
    | some _ =>
      refine .bind (.ask rfl) (fun _ => ?_)
      split
      · trivial
      · refine .bind (handleGoogleOauth_keepsHashes _) (fun user => ?_)
        exact .of_writes (AuthService.issueTokensAndSession_writes user request) (by simp) (by simp)

theorem edit_keepsHashes (pk : UserId) (form : UserAdminView.UserForm) :
    KeepsHashes (UserAdminView.edit pk form) := by
  have hnotFound (user : Option UserData) : KeepsHashes (UserAdminView.orNotFound pk user) := by
    cases user <;> trivial
  have hform : KeepsHashes (UserAdminView.formUpdate form) := by
    unfold UserAdminView.formUpdate
    split_ifs <;> trivial
  refine hform.bind (fun upd => (updateUser_keepsHashes pk upd).bind (fun found =>
    (hnotFound found).bind (fun user => ?_)))
  split_ifs
  · exact .bind (makes_ofDb _) (fun _ => .bind (.ask rfl) hnotFound)
  · trivial

omit [External] in
theorem updateRole_keepsHashes (role : RoleId) (upd : RoleUpdate) :
    KeepsHashes (RoleDAO.updateRole role upd) := by
  refine .bind ?_ (fun _ => .bind ?_ (fun _ => .bind (.ask rfl) (fun _ => .ask rfl)))
  · exact .of_writes (updateFields_writes role upd) (by simp) (by simp)
  · unfold RoleDAO.replacePermissions
    split
    · trivial
    · refine .bind (.ask rfl) (fun _ => ?_)
      exact .of_writes (insertPermissions_writes role _) (by simp) (by simp)

def Op.setsPassword : Op → Bool
  | .registerUser _ => true
  | .updatePassword .. => true
  | _ => false

theorem Op.program_keepsHashes (op : Op) (h : op.setsPassword = false) :
    KeepsHashes op.program := by
  cases op with
  | registerUser userIn => cases h
  | updatePassword user password => cases h
  | googleCallback state exchange request =>
    exact (googleCallback_keepsHashes state exchange request).bind (fun _ => trivial)
  | updateUser user upd =>
    refine KeepsHashes.bind ((updateUser_keepsHashes user upd).bind (fun found => ?_))
      (fun _ => trivial)
    cases found <;> trivial
  | assignRoles user roleIds =>
    have hassign : KeepsHashes (UserDAO.assignRoles user roleIds) := by
      unfold UserDAO.assignRoles
      split_ifs
      · trivial
      · exact .bind (.ask rfl) (fun _ => .bind (.ask rfl) (fun _ => makes_ofDb _))
    exact hassign.bind (fun _ => trivial)
  | updateRole role upd => exact (updateRole_keepsHashes role upd).bind (fun _ => trivial)
  | editUser pk form => exact (edit_keepsHashes pk form).bind (fun _ => trivial)
  | toggleActive pk =>
    refine KeepsHashes.bind (.bind (.ask rfl) (fun found => ?_)) (fun _ => trivial)
    cases found with
    | none => trivial
    | some user => exact (updateUser_keepsHashes _ _).bind (fun _ => trivial)
  | _ => exact .of_writes (Op.program_writes _) (by simp [areas]) (by simp [areas])

/-- A registration stores the hash of its password in a new row, or no row. -/
theorem registerUser_exec (userIn : UserCreate) (s : State) :
    (∃ e t, (Op.registerUser userIn).program.exec s = (.error e, t) ∧ HashesKept s t) ∨
      ∃ (password : String) (row : UserRow) (data : UserData) (t : State),
        userIn.password = some password ∧ data.id = row.id ∧ s.nextId ≤ row.id ∧
        row.id < t.nextId ∧ row.hashedPassword = some (External.hashpw password s.nextId) ∧
        t.db.users = s.db.users ++ [row] ∧
        (Op.registerUser userIn).program.exec s = (.ok (.user data), t) := by
  cases hpassword : userIn.password with
  | none =>
    refine .inl ⟨.value "Password is required for user creation", s, ?_, .refl s⟩
    rw [Op.program, UserService.createUser, hpassword]
    rfl
  | some password =>
    let hash := some (External.hashpw password s.nextId)
    let inserted := s.db.insertUser (s.nextId + 1) userIn hash
    let t : State := { s with db := inserted.2, nextId := s.nextId + 2 }
    have hexec : (Op.registerUser userIn).program.exec s =
        (App.ofDb inserted.1 >>= fun data => pure (Response.user data)).exec t := by
      rw [Op.program, UserService.createUser, hpassword]
      rfl
    rcases s.db.insertUser_row (s.nextId + 1) userIn hash with ⟨e, h⟩ | ⟨row, hid, hhash, h⟩
    · refine .inl ⟨.db e, t, ?_, .of_subset (Nat.le_add_right _ 2) ?_⟩
      · rw [hexec, show inserted = _ from h]
        rfl
      · have hdb : t.db = s.db := congrArg Prod.snd h
        rw [hdb]
        exact fun _ => id
    · refine .inr ⟨password, row, { s.db.userData row with roles := [] }, t, rfl, rfl, ?_, ?_,
        hhash, congrArg (fun r => r.2.users) h, ?_⟩
      · exact hid.symm ▸ Nat.le_succ _
      · exact hid.symm ▸ Nat.lt_succ_self _
      · rw [hexec, show inserted = _ from h]
        rfl

end programs

/-! ## The last password of an account -/

def passwordSet (user : UserId) : Op × Response → Option String
  | (.registerUser userIn, .user data) => if data.id = user then userIn.password else none
  | (.updatePassword id password, _) => if id = user then some password else none
  | _ => none

def lastPassword (log : List (Op × Response)) (user : UserId) : Option String :=
  (log.filterMap (passwordSet user)).getLast?

theorem lastPassword_concat (log : List (Op × Response)) (entry : Op × Response) (user : UserId) :
    lastPassword (log ++ [entry]) user = (passwordSet user entry).or (lastPassword log user) := by
  unfold lastPassword
  rw [List.filterMap_append]
  cases h : passwordSet user entry with
  | none => simp [h]
  | some password => simp [h]

theorem passwordSet_of_quiet {op : Op} (h : op.setsPassword = false) (r : Response)
    (user : UserId) : passwordSet user (op, r) = none := by
  cases op with
  | registerUser userIn => cases h
  | updatePassword id password => cases h
  | _ => rfl

section history
variable [External] {rows : List UserRow} {log log' : List (Op × Response)} {u v : UserRow}

/-- Where the stored hash of an account comes from, given the rows from before the first operation:
the last password that has been set, or the row from before, or it has none. -/
inductive HashFrom (rows : List UserRow) (log : List (Op × Response)) (u : UserRow) : Prop
  | given {password : String} {salt : ℕ} (hlast : lastPassword log u.id = some password)
      (hstrong : StrongPassword password)
      (hhash : u.hashedPassword = some (External.hashpw password salt))
  | initial {row : UserRow} (hlast : lastPassword log u.id = none) (hrow : row ∈ rows)
      (hid : row.id = u.id) (hhash : u.hashedPassword = row.hashedPassword)
  | absent (hlast : lastPassword log u.id = none) (hhash : u.hashedPassword = none)

theorem HashFrom.of_same (h : HashFrom rows log u) (hid : u.id = v.id)
    (hhash : u.hashedPassword = v.hashedPassword)
    (hlog : lastPassword log' v.id = lastPassword log v.id) : HashFrom rows log' v := by
  rw [← hid] at hlog
  cases h with
  | given hlast hstrong hu => exact .given (hid ▸ hlog.trans hlast) hstrong (hhash ▸ hu)
  | initial hlast hrow hrowid hu =>
    exact .initial (hid ▸ hlog.trans hlast) hrow (hrowid.trans hid) (hhash ▸ hu)
  | absent hlast hu => exact .absent (hid ▸ hlog.trans hlast) (hhash ▸ hu)

/-- The password passes for the one that has been set last, or for the one from before. -/
inductive Knows (rows : List UserRow) (log : List (Op × Response)) (user : UserId)
    (password : String) : Prop
  | given {last : String} {salt : ℕ} (hlast : lastPassword log user = some last)
      (hcheck : External.checkpw password (External.hashpw last salt) = true)
  | initial {row : UserRow} (hlast : lastPassword log user = none) (hrow : row ∈ rows)
      (hid : row.id = user) (hcheck : verifyPassword password row.hashedPassword = true)

theorem HashFrom.knows (h : HashFrom rows log u) {password : String}
    (hverify : verifyPassword password u.hashedPassword = true) :
    Knows rows log u.id password := by
  cases h with
  | given hlast hstrong hhash =>
    rw [hhash] at hverify
    exact .given hlast hverify
  | initial hlast hrow hid hhash => exact .initial hlast hrow hid (hhash ▸ hverify)
  | absent hlast hhash =>
    rw [hhash] at hverify
    cases hverify

def Op.credentials : Op → Option (String × String)
  | .authenticateUser username password _ => some (username, password)
  | .createSudoTokenUser username password => some (username, password)
  | .adminLogin username password => some (username, password)
  | _ => none

theorem Op.credentials_ok {op : Op} {name password : String} {r : Response}
    (hop : op.credentials = some (name, password)) (h : op.program.exec s = (.ok r, t)) :
    ∃ u ∈ s.db.users, (u.username = name ∨ u.email = name) ∧
      verifyPassword password u.hashedPassword = true := by
  cases op with
  | authenticateUser username password' request =>
    cases hop
    obtain ⟨result, hresult, -⟩ := exec_map_ok.mp h
    rw [AuthService.authenticateUser, UserDAO.getByUsername, exec_ask_bind] at hresult
    simp only [handler] at hresult
    cases hfound : s.db.selectUser (.username name) with
    | none =>
      rw [hfound] at hresult
      cases hresult
    | some data =>
      rw [hfound] at hresult
      obtain ⟨u, hu, hmatch, rfl⟩ := selectUser_eq_some hfound
      refine ⟨u, hu, .inl (of_decide_eq_true hmatch), ?_⟩
      dsimp only at hresult
      split_ifs at hresult with hverify
      · exact hverify
      · cases hresult
  | createSudoTokenUser username password' =>
    cases hop
    obtain ⟨response, hresponse, -⟩ := exec_map_ok.mp h
    obtain ⟨data, exp, hfound, hverify, -⟩ := createSudoTokenUser_ok hresponse
    obtain ⟨u, hu, hmatch, rfl⟩ := selectUser_eq_some hfound
    exact ⟨u, hu, .inl (of_decide_eq_true hmatch), hverify⟩
  | adminLogin username password' =>
    cases hop
    obtain ⟨data, hdata, -⟩ := exec_map_ok.mp h
    obtain ⟨-, hsignIn⟩ := adminLogin_ok_iff.mp hdata
    rcases Option.or_eq_some_iff.mp hsignIn.account with hfound | ⟨-, hfound⟩
    · obtain ⟨u, hu, hmatch, rfl⟩ := selectUser_eq_some hfound
      exact ⟨u, hu, .inr (of_decide_eq_true hmatch), hsignIn.password⟩
    · obtain ⟨u, hu, hmatch, rfl⟩ := selectUser_eq_some hfound
      exact ⟨u, hu, .inl (of_decide_eq_true hmatch), hsignIn.password⟩
  | _ => cases hop

/-! ## Runs -/

namespace World

/-- What the routes let through: a password has passed the schema, and it is changed for an account
that `get_sudo_user` has found. -/
def Admissible (w : World) : Event → Prop
  | .call (.registerUser userIn) =>
    ∀ password, userIn.password = some password → validatePasswordStrength password = .ok password
  | .call (.updatePassword user password) =>
    validatePasswordStrength password = .ok password ∧ ∃ u ∈ w.state.db.users, u.id = user
  | _ => True

structure PasswordLedger (rows : List UserRow) (w : World) : Prop where
  wellFormed : w.state.WellFormed
  hashes : ∀ u ∈ w.state.db.users, HashFrom rows w.log u
  known : ∀ user password, lastPassword w.log user = some password → user < w.state.nextId

namespace PasswordLedger

variable {w w' : World}

theorem fresh (h : PasswordLedger rows w) {user : UserId} (huser : w.state.nextId ≤ user) :
    lastPassword w.log user = none := by
  rw [Option.eq_none_iff_forall_ne_some]
  exact fun password hlast => (h.known user password hlast).not_ge huser

/-- A step that stores no hash and sets no password. -/
theorem quiet (h : PasswordLedger rows w) (hwf : w'.state.WellFormed)
    (hkept : HashesKept w.state w'.state)
    (hlog : ∀ user, lastPassword w'.log user = lastPassword w.log user) :
    PasswordLedger rows w' := by
  refine ⟨hwf, fun v hv => ?_, fun user password hlast => ?_⟩
  · rcases hkept.users v hv with ⟨u, hu, hid, hhash⟩ | ⟨hnew, hnone⟩
    · exact (h.hashes u hu).of_same hid hhash (hlog v.id)
    · exact .absent ((hlog v.id).trans (h.fresh hnew)) hnone
  · rw [hlog user] at hlast
    exact (h.known user password hlast).trans_le hkept.grows

/-- A step that sets the password of one account, which is new or has been there. -/
theorem set (h : PasswordLedger rows w) (hwf : w'.state.WellFormed)
    (hgrows : w.state.nextId ≤ w'.state.nextId) {user : UserId} {password : String}
    (hstrong : StrongPassword password) (huser : user < w'.state.nextId)
    (hlog : ∀ id, lastPassword w'.log id =
      (if user = id then some password else none).or (lastPassword w.log id))
    (hrows : ∀ v ∈ w'.state.db.users,
      (v.id = user ∧ ∃ salt, v.hashedPassword = some (External.hashpw password salt)) ∨
        user ≠ v.id ∧ v ∈ w.state.db.users) :
    PasswordLedger rows w' := by
  have hother {id : UserId} (hne : user ≠ id) :
      lastPassword w'.log id = lastPassword w.log id := by
    rw [hlog, if_neg hne, Option.none_or]
  refine ⟨hwf, fun v hv => ?_, fun id last hlast => ?_⟩
  · rcases hrows v hv with ⟨rfl, salt, hhash⟩ | ⟨hne, hv⟩
    · exact .given ((hlog v.id).trans (by rw [if_pos rfl, Option.some_or])) hstrong hhash
    · exact (h.hashes v hv).of_same rfl rfl (hother hne)
  · by_cases hid : user = id
    · exact hid ▸ huser
    · rw [hother hid] at hlast
      exact (h.known id last hlast).trans_le hgrows

theorem registerUser (h : PasswordLedger rows w) {userIn : UserCreate}
    (hok : Admissible w (.call (.registerUser userIn))) :
    PasswordLedger rows (w.step (.call (.registerUser userIn))) := by
  have hwf := exec_wellFormed (Op.registerUser userIn).program w.state h.wellFormed
  rcases registerUser_exec userIn w.state with ⟨e, t, hexec, hkept⟩ |
    ⟨password, row, data, t, hpassword, hdata, hnew, hlt, hhash, husers, hexec⟩
  · rw [hexec] at hwf
    rw [step, hexec]
    exact h.quiet hwf hkept (fun _ => rfl)
  · rw [hexec] at hwf
    rw [step, hexec]
    have hstrong := (validatePasswordStrength_ok_iff.mp (hok password hpassword)).2
    refine h.set hwf (hnew.trans hlt.le) hstrong hlt (fun id => ?_) (fun v hv => ?_)
    · rw [record, lastPassword_concat, passwordSet, hdata, hpassword]
    · replace hv : v ∈ w.state.db.users ++ [row] := husers ▸ hv
      rcases List.mem_append.mp hv with hv | hv
      · exact .inr ⟨((h.wellFormed.userId_lt v hv).trans_le hnew).ne', hv⟩
      · rw [List.mem_singleton.mp hv]
        exact .inl ⟨rfl, _, hhash⟩

theorem updatePassword (h : PasswordLedger rows w) {user : UserId} {password : String}
    (hok : Admissible w (.call (.updatePassword user password))) :
    PasswordLedger rows (w.step (.call (.updatePassword user password))) := by
  obtain ⟨hvalid, u, hu, rfl⟩ := hok
  have hwf := exec_wellFormed (Op.updatePassword u.id password).program w.state h.wellFormed
  refine h.set hwf (Nat.le_succ _) (validatePasswordStrength_ok_iff.mp hvalid).2
    ((h.wellFormed.userId_lt u hu).trans_le (Nat.le_succ _)) (fun id => ?_) (fun v hv => ?_)
  · exact lastPassword_concat w.log (.updatePassword u.id password, .done) id
  · obtain ⟨x, hx, rfl⟩ := List.mem_map.mp hv
    by_cases hid : x.id = u.id
    · rw [if_pos hid]
      exact .inl ⟨hid, _, rfl⟩
    · rw [if_neg hid]
      exact .inr ⟨Ne.symm hid, hx⟩

protected theorem step (h : PasswordLedger rows w) {e : Event} (hok : Admissible w e) :
    PasswordLedger rows (w.step e) := by
  cases e with
  | advance d =>
    obtain ⟨hnodup, hlt, hversion, hfactor⟩ := h.wellFormed
    exact h.quiet ⟨hnodup, hlt, hversion, hfactor⟩ (.of_subset (le_refl _) (fun _ => id))
      (fun _ => rfl)
  | call op =>
    cases hsets : op.setsPassword with
    | true =>
      cases op with
      | registerUser userIn => exact h.registerUser hok
      | updatePassword user password => exact h.updatePassword hok
      | _ => cases hsets
    | false =>
      have hkept := (op.program_keepsHashes hsets).exec w.state
      have hwf := exec_wellFormed op.program w.state h.wellFormed
      rw [← step_state] at hkept hwf
      refine h.quiet hwf hkept (fun user => ?_)
      rcases hexec : op.program.exec w.state with ⟨e | r, t⟩
      · rw [World.step, hexec]
        rfl
      · rw [World.step, hexec, record, lastPassword_concat, passwordSet_of_quiet hsets,
          Option.none_or]

end PasswordLedger

/-- After any run, the hash stored for an account is that of the password that was set last, which
is strong, and a password lets somebody in only if it passes for that one. Where no password has
been set, the row from before the run decides. -/
theorem passwords_last {w₀ w : World} (hinitial : Initial w₀)
    (hrun : RunsWhere step Admissible w₀ w) :
    (∀ u ∈ w.state.db.users, HashFrom w₀.state.db.users w.log u) ∧
    ∀ (op : Op) (name password : String) (r : Response) (t : State),
      op.credentials = some (name, password) → op.program.exec w.state = (.ok r, t) →
      ∃ u ∈ w.state.db.users, (u.username = name ∨ u.email = name) ∧
        Knows w₀.state.db.users w.log u.id password := by
  have hledger : PasswordLedger w₀.state.db.users w := by
    refine hrun.invariant ⟨hinitial.wellFormed, fun u hu => ?_, fun user password hlast => ?_⟩
      (fun x e hok hx => hx.step hok)
    · refine .initial ?_ hu rfl rfl
      rw [hinitial.log]
      rfl
    · rw [hinitial.log] at hlast
      cases hlast
  refine ⟨hledger.hashes, fun op name password r t hop hexec => ?_⟩
  obtain ⟨u, hu, hname, hverify⟩ := Op.credentials_ok hop hexec
  exact ⟨u, hu, hname, (hledger.hashes u hu).knows hverify⟩

omit [External] in
/-- The password from before has been changed, and lets nobody in. -/
theorem passwords_last_changed :
    letI := External.plain
    let w := (start { users := [testUser] } 1).step (.call (.updatePassword 0 "N3w!password"))
    ∀ request r t,
      (Op.authenticateUser "testuser" "U*U" request).program.exec w.state ≠ (.ok r, t) := by
  let _ := External.plain
  intro w request r t hexec
  have hinitial : Initial (start { users := [testUser] } 1) :=
    start_initial (by simp) (by simp [testUser]) (by simp) rfl
  have hok : Admissible (start { users := [testUser] } 1)
      (.call (.updatePassword 0 "N3w!password")) :=
    ⟨by decide +kernel, testUser, List.mem_cons_self, rfl⟩
  obtain ⟨u, hu, -, hknows⟩ :=
    (passwords_last hinitial (.tail _ .refl hok)).2 _ "testuser" "U*U" r t rfl hexec
  obtain rfl := List.mem_singleton.mp hu
  cases hknows with
  | @given last salt hlast hcheck =>
    obtain rfl : "N3w!password" = last := Option.some.inj hlast
    exact absurd hcheck Bool.false_ne_true
  | initial hlast => cases hlast

end World
end history

end FastapiTemplate
