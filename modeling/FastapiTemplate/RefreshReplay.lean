import FastapiTemplate.PasswordChange
import FastapiTemplate.RequestPool

/-!
# Presenting a refresh token again

An exchange verifies the refresh token, compares its version and issues a new pair.
Nothing marks the token as used, so it is exchanged again as long as it verifies.
What is proved is the rest: in runs in which a token is presented again only after
every earlier attempt has failed, or when it can no longer be exchanged, no token is
exchanged twice.
-/

namespace FastapiTemplate

variable {s t : State}

def Dead (s : State) (token : Jwt) : Prop :=
  token.type ≠ some .refresh ∨ token.ExpiredAt s.clock ∨
    ∃ user, token.userId = some user ∧ Outdated s token user

/-! ## Dead tokens -/

theorem verifyToken_behaves {I : State → Prop} {earliest : ℕ}
    (hI : ∀ s, I s → earliest ≤ s.clock) (token : Jwt) (type : TokenTypes)
    (h : CallTrace Call Call.Answer) :
    Behaves handler I (fun _ _ => True) (fun _ data => token.type = some type ∧
      ¬ token.ExpiredAt earliest ∧ token.userId = some data.id ∧
      token.tokenVersion = data.tokenVersion) h (verifyToken token type) := by
  refine .perform_bind trivial (fun s hs => ?_)
  simp only [handler]
  cases hdecode : decodeJwt token s.clock with
  | none => exact .raise _
  | some payload =>
    obtain ⟨rfl, halive⟩ := Jwt.decodeJwt_eq_some.mp hdecode
    dsimp only
    cases hkeys : requiredKeys payload with
    | none => exact .raise _
    | some keys =>
      obtain ⟨-, hid, -, -, htype⟩ := requiredKeys_eq_some hkeys
      dsimp only
      split
      case isTrue => exact .raise _
      case isFalse hsame =>
        refine .perform_bind trivial (fun u _ => ?_)
        split
        · exact .raise _
        · refine .pure ⟨?_, fun hexpired => halive (hexpired.later (hI s hs)), hid, rfl⟩
          rw [← not_not.mp hsame]
          exact htype

theorem refreshToken_dead {token : Jwt} (hdead : Dead s token) (request : Request) :
    Behaves handler (Grows s) (fun _ _ => True) (fun _ _ => False) []
      (AuthService.refreshToken token request) := by
  refine .bind (verifyToken_behaves (fun _ ht => ht.clock) token .refresh _)
    (fun h data hdata => ?_)
  obtain ⟨htype, halive, hid, hversion⟩ := hdata
  refine .perform_bind trivial (fun t ht => ?_)
  simp only [handler]
  cases hfound : t.db.selectUser (.id data.id) with
  | none => exact .raise _
  | some user =>
    dsimp only
    split
    case isTrue => exact .raise _
    case isFalse hsame =>
      exfalso
      rcases hdead with hwrong | hexpired | ⟨id, hid', houtdated⟩
      · exact hwrong htype
      · exact halive hexpired
      · obtain ⟨u, hu, hmatch, rfl⟩ := selectUser_eq_some hfound
        have huid : u.id = id :=
          (of_decide_eq_true hmatch).trans (Option.some.inj (hid.symm.trans hid'))
        have hlt := (houtdated.mono ht.versions).2 u hu huid
        rw [hversion, ← not_not.mp hsame] at hlt
        exact hlt.ne rfl

/-! ## Attempts with one token -/

def Op.exchanges (token : Jwt) : Op → Bool
  | .refreshToken t _ => t = token
  | _ => false

theorem Op.exchanges_iff {token : Jwt} {op : Op} :
    op.exchanges token = true ↔ ∃ request, op = .refreshToken token request := by
  unfold exchanges
  split
  case h_1 t request => simp [eq_comm]
  case h_2 h => simpa using fun request he => h token request he

def Doomed (s : State) (th : RequestThread) : Prop :=
  ∃ s₀, Grows s₀ s ∧
    Behaves handler (Grows s₀) (fun _ _ => True) (fun _ _ => False) th.trace th.rest

theorem Doomed.result_eq_none {th : RequestThread} (h : Doomed s th) : th.result = none := by
  obtain ⟨s₀, -, hbehaves⟩ := h
  by_contra hresult
  obtain ⟨r, hr⟩ := Option.ne_none_iff_exists'.mp hresult
  rw [Thread.result_eq_some.mp hr] at hbehaves
  exact hbehaves

section doomed
variable [External]

theorem fresh_doomed {token : Jwt} (hdead : Dead s token) (request : Request) :
    Doomed s (requests.fresh (.refreshToken token request)) := by
  refine ⟨s, .refl s, ?_⟩
  exact .bind (refreshToken_dead hdead request) (fun _ _ hfalse => hfalse.elim)

theorem Doomed.step {p : RequestPool} {th th' : RequestThread} (h : Doomed p.state th)
    (hmoves : requests.Moves p.state th th') (m : RequestMove) :
    Doomed (requests.step p m).state th' := by
  obtain ⟨s₀, hgrows, hbehaves⟩ := h
  refine ⟨s₀, hgrows.trans (requests_step_grows p m), ?_⟩
  rcases hmoves with rfl | ⟨c, next, hrest, rfl⟩
  · exact hbehaves
  · exact hbehaves.answered hrest hgrows

end doomed

namespace RequestPool

def Exchanged (p : RequestPool) (token : Jwt) (i : ℕ) : Prop :=
  ∃ th ∈ p.threads[i]?, th.tag.exchanges token = true ∧ th.result.isSome = true

instance (p : RequestPool) (token : Jwt) (i : ℕ) : Decidable (p.Exchanged token i) :=
  inferInstanceAs (Decidable (∃ th ∈ p.threads[i]?, _))

/-- A token is presented again only if it is dead or every earlier attempt with it has failed. -/
def SparesReplay (p : RequestPool) : RequestMove → Prop
  | .spawn (.refreshToken token _) =>
    Dead p.state token ∨ ∀ th ∈ p.threads, th.tag.exchanges token = true → th.Failed
  | _ => True

/-- Of two attempts with one token the earlier has failed or the later is going to fail. -/
def ReplaysFail (p : RequestPool) : Prop :=
  ∀ (i j : ℕ) th th' token, i < j → p.threads[i]? = some th → p.threads[j]? = some th' →
    th.tag.exchanges token = true → th'.tag.exchanges token = true → th.Failed ∨ Doomed p.state th'

variable [External]

theorem ReplaysFail.step {p : RequestPool} (h : ReplaysFail p) {m : RequestMove}
    (hspares : SparesReplay p m) : ReplaysFail (requests.step p m) := by
  intro i j th th' token hij hi hj hpresents hpresents'
  rcases requests.step_pair hij hi hj with ⟨x, y, hx, hy, hmovesx, hmovesy⟩ | ⟨tag, rfl, hth, rfl⟩
  · rw [hmovesx.tag] at hpresents
    rw [hmovesy.tag] at hpresents'
    rcases h i j x y token hij hx hy hpresents hpresents' with hfailed | hdoomed
    · exact .inl (hmovesx.failed hfailed)
    · exact .inr (hdoomed.step hmovesy m)
  · obtain ⟨request, rfl⟩ := Op.exchanges_iff.mp hpresents'
    rcases hspares with hdead | hfailed
    · exact .inr (fresh_doomed hdead request)
    · exact .inl (hfailed th (List.mem_of_getElem? hth) hpresents)

/-- Under the condition, each refresh token is exchanged at most once. -/
theorem exchanged_once {s : State} {p : RequestPool}
    (hrun : RunsWhere requests.step SparesReplay (start s) p) {token : Jwt} {i j : ℕ}
    (hi : p.Exchanged token i) (hj : p.Exchanged token j) : i = j := by
  have hreplays : ReplaysFail p := by
    refine hrun.invariant ?_ (fun _ _ hspares h => h.step hspares)
    intro i j th th' token _ hth
    cases hth
  have hordered {i j : ℕ} (hi : p.Exchanged token i) (hj : p.Exchanged token j) : ¬ i < j := by
    intro hij
    obtain ⟨th, hth, hpresents, hresult⟩ := hi
    obtain ⟨th', hth', hpresents', hresult'⟩ := hj
    rcases hreplays i j th th' token hij hth hth' hpresents hpresents' with ⟨e, hfailed⟩ | hdoomed
    · simp [Thread.result, hfailed] at hresult
    · simp [hdoomed.result_eq_none] at hresult'
  have := hordered hi hj
  have := hordered hj hi
  omega

def replayToken : Jwt :=
  letI := External.plain
  World.loginWorld.tokens.getD 1 (.unsigned "")

def attempt : RequestMove := .spawn (.refreshToken replayToken {})

theorem finish_spares (p : RequestPool) (i : ℕ) :
    RunsWhere requests.step SparesReplay p (run requests.step p (RequestMove.finish i)) := by
  refine .of_run (fun l hl x => ?_) p
  rw [List.eq_of_mem_replicate hl]
  trivial

def changePassword : List RequestMove :=
  attempt :: RequestMove.finish 0 ++ .spawn (.updatePassword 0 "new") :: RequestMove.finish 1

theorem changePassword_spares (s : State) :
    RunsWhere requests.step SparesReplay (start s) (run requests.step (start s) changePassword) := by
  rw [changePassword, List.cons_append, run_cons, run_append, run_cons]
  have hfirst : SparesReplay (start s) attempt := .inr (fun _ hth => by cases hth)
  have hchange (p : RequestPool) : SparesReplay p (.spawn (.updatePassword 0 "new")) := trivial
  exact .head attempt hfirst ((finish_spares _ 0).trans (.head _ (hchange _) (finish_spares _ 1)))

omit [External] in
theorem exchanged_once_changePassword :
    letI := External.plain
    let s := World.loginWorld.state
    let moves := changePassword ++ attempt :: RequestMove.finish 2
    Exchanged (run requests.step (start s) moves) replayToken 0 ∧
      ∀ j, Exchanged (run requests.step (start s) moves) replayToken j → j = 0 := by
  let _ := External.plain
  intro s moves
  have hdead : Dead (run requests.step (start s) changePassword).state replayToken :=
    .inr (.inr ⟨0, by decide, by unfold Outdated; decide +kernel⟩)
  have hrun : RunsWhere requests.step SparesReplay (start s) (run requests.step (start s) moves) := by
    rw [run_append, run_cons]
    exact ((changePassword_spares s).tail attempt (.inl hdead)).trans (finish_spares _ 2)
  have hfirst : Exchanged (run requests.step (start s) moves) replayToken 0 := by decide +kernel
  exact ⟨hfirst, fun j hj => exchanged_once hrun hj hfirst⟩

omit [External] in
/-- The token is exchanged twice, one attempt after the other or call by call in turn. -/
theorem exchanged_twice :
    letI := External.plain
    World.Reachable World.loginWorld ∧
      ∀ moves ∈ [attempt :: RequestMove.finish 0 ++ attempt :: RequestMove.finish 1,
          attempt :: attempt :: (List.replicate 20 [.advance 0, .advance 1]).flatten],
        Exchanged (run requests.step (start World.loginWorld.state) moves) replayToken 0 ∧
          Exchanged (run requests.step (start World.loginWorld.state) moves) replayToken 1 :=
  ⟨World.loginWorld_reachable, by decide +kernel⟩

end RequestPool
end FastapiTemplate
