import FastapiTemplate.AccountWrites

/-!
# When a write of several statements is all or nothing

An operation that raises from a statement should leave users, identities, roles and the two link
tables as they were, and one that returns should have all of its effects. For each operation the
condition for this is found on its arguments, on the tables before it and on the fates of its
statements: either the statements all come to an end, or none of those that are executed
before the failing one, and it itself, changes anything.
-/

namespace FastapiTemplate.AccountWrites

variable {replica : Option Database} {fates : Fates Statement Sql.DbError} {t u : Tables}

/-- The tables are as before, with `updated_at` of every row; a link table is a set. -/
structure Same (t u : Tables) : Prop where
  users : u.db.users = t.db.users
  userUpdates : ∀ x ∈ t.db.users, u.userUpdates x.id = t.userUpdates x.id
  userIdentities : u.db.userIdentities = t.db.userIdentities
  roles : u.db.roles = t.db.roles
  roleUpdates : ∀ x ∈ t.db.roles, u.roleUpdates x.id = t.roleUpdates x.id
  userRoles : ∀ x, x ∈ u.db.userRoles ↔ x ∈ t.db.userRoles
  rolePermissions : ∀ x, x ∈ u.db.rolePermissions ↔ x ∈ t.db.rolePermissions

theorem same_refl (t : Tables) : Same t t :=
  ⟨rfl, fun _ _ => rfl, rfl, rfl, fun _ _ => rfl, fun _ => Iff.rfl, fun _ => Iff.rfl⟩

/-! ## The fates of a statement -/

def executes (fates : Fates Statement Sql.DbError) (s : Statement) : Bool :=
  AttemptFate.executes Sql.DbError.retried (fates.attempt s) 2 0

def answers (fates : Fates Statement Sql.DbError) (s : Statement) : Bool :=
  AttemptFate.answers Sql.DbError.retried (fates.attempt s) 2 0

def answersFirst (fates : Fates Statement Sql.DbError) (s : Statement) : Bool :=
  AttemptFate.answersFirst Sql.DbError.retried (fates.attempt s) 2 0

theorem executes_of_answers {s : Statement} (h : answers fates s) : executes fates s :=
  AttemptFate.executes_of_answers h

theorem executes_of_answersFirst {s : Statement} (h : answersFirst fates s) : executes fates s :=
  AttemptFate.executes_of_answersFirst h

abbrev Write.exec {α : Type} (p : Write α) (replica : Option Database)
    (fates : Fates Statement Sql.DbError) (t : Tables) :
    Except (Raised DbError Sql.DbError) α × Tables :=
  p.execute (statementHandler (run replica) fates) t

section ask
variable {s : Statement} {v : s.Value} {e : DbError} {same effects : Tables → Prop} {α : Type}
variable {f : s.Value → Write α}

theorem ask_rejected (h : run replica s t = (.error e, t)) :
    AllOrNothing same effects (Write.exec (ask s >>= f) replica fates t) ↔ same t :=
  allOrNothing_rejected h

theorem ask_once (h : run replica s t = (.ok v, u)) (hagain : run replica s u = (.error e, u)) :
    AllOrNothing same effects (Write.exec (ask s >>= f) replica fates t) ↔
      if answersFirst fates s then AllOrNothing same effects ((f v).exec replica fates u)
      else same (if executes fates s then u else t) :=
  allOrNothing_once h hagain

theorem ask_repeatable {P : Tables → Prop} {g : Tables → Tables}
    (hrun : ∀ t, P t → run replica s t = (.ok v, g t) ∧ P (g t)) (ht : P t) :
    ∃ j, (executes fates s ↔ 0 < j) ∧
      (AllOrNothing same effects (Write.exec (ask s >>= f) replica fates t) ↔
        if answers fates s then AllOrNothing same effects ((f v).exec replica fates (g^[j] t))
        else same (g^[j] t)) :=
  allOrNothing_repeatable hrun ht

theorem ask_read (h : run replica s t = (.ok v, t)) :
    AllOrNothing same effects (Write.exec (ask s >>= f) replica fates t) ↔
      if answers fates s then AllOrNothing same effects ((f v).exec replica fates t)
      else same t :=
  allOrNothing_read h

end ask

/-! ## Token versions -/

def bumpUser (p : UserId → Bool) (j : ℕ) (x : UserRow) : UserRow :=
  if p x.id then { x with tokenVersion := x.tokenVersion + j } else x

def Tables.bumped (t : Tables) (p : UserId → Bool) (j : ℕ) : Tables :=
  { t with
    db := t.db.mapUsers (bumpUser p j)
    userUpdates := fun u => if p u then t.userUpdates u + j else t.userUpdates u }

section bumped
variable {p : UserId → Bool} {j : ℕ}

@[simp] theorem bumpUser_id (x : UserRow) : (bumpUser p j x).id = x.id := by
  unfold bumpUser
  split_ifs <;> rfl

theorem bumped_zero (t : Tables) (p : UserId → Bool) : t.bumped p 0 = t := by
  have hrow (x : UserRow) : bumpUser p 0 x = id x := by simp [bumpUser]
  simp [Tables.bumped, Database.mapUsers, List.map_congr_left (fun x _ => hrow x)]

theorem bumped_succ (t : Tables) (p : UserId → Bool) (j : ℕ) :
    (t.bumped p j).bumped p 1 = t.bumped p (j + 1) := by
  have hrow (x : UserRow) : bumpUser p 1 (bumpUser p j x) = bumpUser p (j + 1) x := by
    by_cases hx : p x.id <;> simp [bumpUser, hx, Nat.add_assoc]
  have husers : (t.db.users.map (bumpUser p j)).map (bumpUser p 1) =
      t.db.users.map (bumpUser p (j + 1)) := by
    rw [List.map_map]
    exact List.map_congr_left (fun x _ => hrow x)
  have hupdates : (fun u => if p u then (t.bumped p j).userUpdates u + 1
      else (t.bumped p j).userUpdates u) = (t.bumped p (j + 1)).userUpdates := by
    funext u
    by_cases hu : p u <;> simp [Tables.bumped, hu, Nat.add_assoc]
  rw [Tables.bumped, hupdates]
  simp only [Tables.bumped, Database.mapUsers, husers]

theorem iterate_bumped (t : Tables) (p : UserId → Bool) (j : ℕ) :
    (fun u : Tables => u.bumped p 1)^[j] t = t.bumped p j := by
  induction j with
  | zero => exact (bumped_zero t p).symm
  | succ j ih => rw [Function.iterate_succ_apply', ih, bumped_succ]

/-- Raised versions are a change if there is a user to raise. -/
theorem same_bumped (husers : u.db.users = t.db.users) (hupdates : u.userUpdates = t.userUpdates) :
    Same t (u.bumped p j) ↔ Same t u ∧ (0 < j → ∀ x ∈ t.db.users, ¬p x.id) := by
  constructor
  · intro h
    refine ⟨⟨husers, fun x _ => by rw [hupdates], h.userIdentities, h.roles, h.roleUpdates,
      h.userRoles, h.rolePermissions⟩, fun hj x hx hp => ?_⟩
    have := h.userUpdates x hx
    simp only [Tables.bumped, hp, if_true, hupdates] at this
    omega
  · rintro ⟨h, hnone⟩
    rcases Nat.eq_zero_or_pos j with rfl | hj
    · rwa [bumped_zero]
    · refine ⟨?_, fun x hx => ?_, h.userIdentities, h.roles, h.roleUpdates, h.userRoles,
        h.rolePermissions⟩
      · have hrow : ∀ x ∈ u.db.users, bumpUser p j x = id x := fun x hx =>
          if_neg (hnone hj x (husers ▸ hx))
        rw [Tables.bumped, Database.mapUsers, List.map_congr_left hrow, List.map_id, husers]
      · simp only [Tables.bumped, hnone hj x hx, hupdates]
        rfl

theorem version_bumped (husers : u.db.users = t.db.users) (hj : 0 < j) {x : UserRow}
    (hx : x ∈ t.db.users) (hp : p x.id) :
    ∃ y ∈ (u.bumped p j).db.users, y.id = x.id ∧ x.tokenVersion < y.tokenVersion := by
  refine ⟨bumpUser p j x, List.mem_map_of_mem (husers ▸ hx), bumpUser_id x, ?_⟩
  simpa [bumpUser, hp] using hj

end bumped

def holds (t : Tables) (role : RoleId) (user : UserId) : Bool := (user, role) ∈ t.db.userRoles

theorem run_bumpRoleHolders (role : RoleId) (h : u.db.userRoles = t.db.userRoles) :
    run replica (.bumpRoleHolders role) u = (.ok (), u.bumped (holds t role) 1) := by
  have hrow : (fun x : UserRow => if (x.id, role) ∈ t.db.userRoles then
      { x with tokenVersion := x.tokenVersion + 1 } else x) = bumpUser (holds t role) 1 := by
    funext x
    simp [bumpUser, holds]
  simp only [run, Tables.touchUsers, Tables.bumped, Database.bumpRoleHolders, h, hrow]
  rfl

theorem run_bumpTokenVersion (user : UserId) :
    run replica (.bumpTokenVersion user) t = (.ok (), t.bumped (· = user) 1) := by
  have hrow : (fun x : UserRow => if x.id = user then
      { x with tokenVersion := x.tokenVersion + 1 } else x) = bumpUser (· = user) 1 := by
    funext x
    simp [bumpUser]
  simp only [run, Tables.touchUsers, Tables.bumped, Database.bumpTokenVersion, hrow]

end FastapiTemplate.AccountWrites
