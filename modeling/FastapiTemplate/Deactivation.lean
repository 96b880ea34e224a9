import FastapiTemplate.EntryPoints

/-!
# Deactivated users

The toggle-active action of the admin portal hands the new status to a schema that
has no such field, and the edit form writes it together with a column that does not
exist. The first reports success and changes nothing, the second always fails, so a
reported deactivation never locks anyone out.
-/

namespace FastapiTemplate

variable {s t : State}

theorem Database.updateUser_empty (db : Database) (user : UserId) :
    db.updateUser user {} = (.ok (), db) := by
  have hsame : db.users.map (fun u => if u.id = user then u else u) = db.users := by
    simp only [ite_self, List.map_id']
  unfold updateUser
  split_ifs with hmissing hlong hwide hname
  · rfl
  · exact absurd hlong (by decide)
  · exact absurd hwide (by decide)
  · simp at hname
  · exact congrArg (Prod.mk _) (congrArg (fun us => { db with users := us }) hsame)

/-- The action reports the new status and leaves everything as it was. -/
theorem toggleActiveAction_exec {pk : UserId} {user : UserData}
    (hfound : s.db.selectUser (.id pk) = some user) :
    (UserAdminView.toggleActiveAction pk).exec s =
      (.ok ("User '" ++ user.email ++ "' has been successfully " ++
        UserAdminView.statusText (!user.isActive) ++ "."), s) := by
  rw [UserAdminView.toggleActiveAction, UserDAO.getById, exec_ask_bind]
  simp only [handler, hfound]
  have hupdate : (handler (.updateUser pk (UserAdminView.activeUpdate (!user.isActive))) s) =
      (.ok (), s) := by
    simp only [handler, UserAdminView.activeUpdate, s.db.updateUser_empty]
    rfl
  have hdao : (UserDAO.updateUser pk (UserAdminView.activeUpdate (!user.isActive))).exec s =
      (.ok (some user), s) := by
    rw [UserDAO.updateUser, exec_ask_bind, hupdate, ← hfound]
    rfl
  exact exec_bind_of_ok hdao

variable [External]

/-- The statement for the flags names a column that the table lacks. -/
theorem edit_flags_fails (pk : UserId) {form : UserAdminView.UserForm}
    (hflags : form.isActive.isSome) (r : UserData) :
    (UserAdminView.edit pk form).exec s ≠ (.ok r, t) := by
  intro h
  obtain ⟨upd, s₁, -, h⟩ := exec_bind_ok.mp h
  obtain ⟨found, s₂, -, h⟩ := exec_bind_ok.mp h
  obtain ⟨user, s₃, -, h⟩ := exec_bind_ok.mp h
  rw [if_pos (.inl hflags)] at h
  obtain ⟨_, s₄, hupdate, -⟩ := exec_bind_ok.mp h
  cases hupdate

namespace World

def Active (w : World) (user : UserId) : Prop :=
  (w.state.db.selectUser (.id user)).any (·.isActive)

instance (w : World) (user : UserId) : Decidable (Active w user) :=
  inferInstanceAs (Decidable (_ = true))

/-- The operation is a deactivation of the user by an administrator. -/
def Deactivates (w : World) (user : UserId) : Op → Prop
  | .toggleActive pk => pk = user ∧ Active w user
  | .editUser pk form => pk = user ∧ form.isActive = some false
  | _ => False

def Reactivates (w : World) (user : UserId) : Op → Prop
  | .toggleActive pk => pk = user ∧ ¬ Active w user
  | .editUser pk form => pk = user ∧ form.isActive = some true
  | _ => False

def Reports (w : World) (op : Op) : Prop := (op.program.exec w.state).1.isOk

/-- The user is marked inactive and nothing lets the user in: no password login, and no token
that was handed out before. -/
structure LockedOut (w : World) (user : UserId) : Prop where
  inactive : ∀ u ∈ w.state.db.users, u.id = user → u.isActive = false
  password : ∀ username password request data,
    w.state.db.selectUser (.username username) = some data → data.id = user →
      ¬ ((AuthService.authenticateUser username password request).exec w.state).1.isOk
  refresh : ∀ token ∈ w.tokens, token.userId = some user → ∀ request,
    ¬ ((AuthService.refreshToken token request).exec w.state).1.isOk
  bearer : ∀ token ∈ w.tokens, token.userId = some user → ∀ scopes,
    ¬ ((getCurrentUser scopes token).exec w.state).1.isOk

def StaysOff (user : UserId) (w : World) : Event → Prop
  | .advance _ => True
  | .call op => Reactivates w user op → ¬ Reports w op

/-- Wherever a deactivation is reported in the run, the user is locked out until a reactivation is
reported. -/
def DeactivationsHold (w₀ : World) (events : List Event) : Prop :=
  ∀ before op after rest user, events = before ++ Event.call op :: (after ++ rest) →
    Deactivates (run step w₀ before) user op → Reports (run step w₀ before) op →
    EveryStep step (StaysOff user) ((run step w₀ before).step (.call op)) after →
    LockedOut (run step w₀ (before ++ Event.call op :: after)) user

def TogglesActive (w : World) : Event → Prop
  | .call (.toggleActive pk) => Active w pk
  | _ => False

omit [External] in
theorem togglesActive_iff {w : World} {e : Event} :
    TogglesActive w e ↔ ∃ user, e = .call (.toggleActive user) ∧ Active w user := by
  constructor
  · intro h
    cases e with
    | advance d => cases h
    | call op =>
      cases op with
      | toggleActive user => exact ⟨user, rfl, h⟩
      | _ => cases h
  · rintro ⟨user, rfl, h⟩
    exact h

/-- After the action on an active user the user is still active. -/
theorem toggleActive_not_lockedOut {w : World} {user : UserId} (hactive : Active w user) :
    Reports w (.toggleActive user) ∧ ¬ LockedOut (w.step (.call (.toggleActive user))) user := by
  cases hfound : w.state.db.selectUser (.id user) with
  | none => simp [Active, hfound] at hactive
  | some data =>
    have hexec : (Op.program (.toggleActive user)).exec w.state = (.ok _, w.state) :=
      exec_map_ok.mpr ⟨_, toggleActiveAction_exec hfound, rfl⟩
    refine ⟨?_, fun hlocked => ?_⟩
    · rw [Reports, hexec]
      rfl
    · have hstate : (w.step (.call (.toggleActive user))).state = w.state := by
        rw [step_state, hexec]
      obtain ⟨u, hu, hid, rfl⟩ := selectUser_eq_some hfound
      have hinactive := hlocked.inactive u (hstate ▸ hu) (of_decide_eq_true hid)
      rw [Active, hfound] at hactive
      exact absurd (hinactive.symm.trans hactive) (by decide)

theorem DeactivationsHold.tail {w₀ : World} {e : Event} {events : List Event}
    (h : DeactivationsHold w₀ (e :: events)) : DeactivationsHold (w₀.step e) events := by
  intro before op after rest user hsplit
  exact h (e :: before) op after rest user (by rw [hsplit]; rfl)

/-- Deactivations hold in a run exactly if none is reported: no step of it toggles an active
user. -/
theorem deactivationsHold_iff (w₀ : World) (events : List Event) :
    DeactivationsHold w₀ events ↔ EveryStep step (fun w e => ¬ TogglesActive w e) w₀ events := by
  constructor
  · intro hhold
    induction events generalizing w₀ with
    | nil => trivial
    | cons e events ih =>
      refine ⟨fun htoggles => ?_, ih (w₀.step e) hhold.tail⟩
      obtain ⟨user, rfl, hactive⟩ := togglesActive_iff.mp htoggles
      obtain ⟨hreports, hnot⟩ := toggleActive_not_lockedOut hactive
      have hdeactivates : Deactivates w₀ user (.toggleActive user) := ⟨rfl, hactive⟩
      exact hnot (hhold [] (.toggleActive user) [] events user rfl hdeactivates hreports trivial)
  · intro hevery before op after rest user hsplit hdeactivates hreports _
    rw [hsplit] at hevery
    have hnot := hevery.of_append
    -- a deactivation that is no toggle is an edit of the flag, which reports nothing
    cases op with
    | toggleActive pk =>
      obtain ⟨rfl, hactive⟩ := hdeactivates
      exact absurd (togglesActive_iff.mpr ⟨pk, rfl, hactive⟩) hnot
    | editUser pk form =>
      obtain ⟨rfl, hform⟩ := hdeactivates
      obtain ⟨r, t, hr⟩ := ok_of_isOk hreports
      obtain ⟨data, hdata, -⟩ := exec_map_ok.mp hr
      exact absurd hdata (edit_flags_fails pk (by rw [hform]; rfl) data)
    | _ => cases hdeactivates

omit [External] in
/-- The deactivation of a user who has logged in is reported, and the flag, the password and both
tokens are as good as before. -/
theorem deactivation_not_held :
    letI := External.plain
    let w := loginWorld.step (.call (.toggleActive 0))
    Reachable loginWorld ∧ ¬ DeactivationsHold loginWorld [.call (.toggleActive 0)] ∧
      ((Op.program (.toggleActive 0)).exec loginWorld.state).1 =
        .ok (.message "User 'test@example.com' has been successfully deactivated.") ∧
      w.state.db.users.all (·.isActive) ∧
      ((AuthService.authenticateUser "testuser" "U*U" {}).exec w.state).1.isOk ∧
      (∃ token ∈ w.tokens, ((AuthService.refreshToken token {}).exec w.state).1.isOk) ∧
      ∃ token ∈ w.tokens, ((getCurrentUser [] token).exec w.state).1.isOk := by
  let _ := External.plain
  refine ⟨loginWorld_reachable, fun hhold => ?_, rfl, rfl, rfl, ?_, ?_⟩
  · have hevery := (deactivationsHold_iff _ _).mp hhold
    exact hevery.1 rfl
  · exact ⟨_, List.mem_cons_of_mem _ List.mem_cons_self, rfl⟩
  · exact ⟨_, List.mem_cons_self, rfl⟩

end World
end FastapiTemplate
