import FastapiTemplate.OneTimeKeys

/-!
# Challenges and OAuth states used once

A challenge is read at the start of a verification and deleted near its end, an OAuth
state is read and then deleted by the callback. Where a verification deletes only a
challenge that is still stored, and no callback reads a state that another one has
read and not yet deleted, each of them serves once. Both conditions fail when two
requests overlap between the reading and the deletion.
-/

namespace FastapiTemplate

variable {s t : State}

/-! ## Challenges -/

def DeletedChallenge (n : ℕ) (th : RequestThread) : Prop :=
  ⟨.redisDelete (.twoFactorChallenge n), ()⟩ ∈ th.trace

/-- The request is a verification of the challenge that has logged its user in. -/
def redeemedChallenge (n : ℕ) (th : RequestThread) : Bool :=
  match th.tag with
  | .verifyTwoFactorChallenge m _ _ => m = n && th.result.isSome
  | _ => false

theorem redeemedChallenge_iff {n : ℕ} {th : RequestThread} :
    redeemedChallenge n th = true ↔ (∃ code request,
      th.tag = .verifyTwoFactorChallenge n code request) ∧ th.result.isSome = true := by
  unfold redeemedChallenge
  split
  case h_1 m code request htag => simp [htag]
  case h_2 hother => simpa using fun code request htag => absurd htag (hother n code request)

/-! ## States -/

def readsState (n : ℕ) : (c : Call) × c.Answer → Bool
  | ⟨.redisGet (.oauthStateGoogle m), some _⟩ => m = n
  | _ => false

/-- The request is a callback that has passed its check of the state value. -/
def passedState (n : ℕ) (th : RequestThread) : Bool :=
  match th.tag with
  | .googleCallback (some m) _ _ => m = n && th.trace.head?.any (readsState n)
  | _ => false

theorem readsState_iff {n : ℕ} {e : (c : Call) × c.Answer} :
    readsState n e = true ↔ ∃ value, e = ⟨.redisGet (.oauthStateGoogle n), some value⟩ := by
  constructor
  · intro h
    unfold readsState at h
    split at h
    · rw [of_decide_eq_true h]
      exact ⟨_, rfl⟩
    · cases h
  · rintro ⟨value, rfl⟩
    simp [readsState]

theorem passedState_iff {n : ℕ} {th : RequestThread} :
    passedState n th = true ↔ ∃ exchange request value rest,
      th.tag = .googleCallback (some n) exchange request ∧
        th.trace = ⟨.redisGet (.oauthStateGoogle n), some value⟩ :: rest := by
  constructor
  · intro h
    unfold passedState at h
    split at h
    case h_1 m exchange request htag =>
      simp only [Bool.and_eq_true, decide_eq_true_eq] at h
      obtain ⟨rfl, hhead⟩ := h
      cases htrace : th.trace with
      | nil => simp [htrace] at hhead
      | cons e rest =>
        rw [htrace, List.head?_cons, Option.any_some] at hhead
        obtain ⟨value, rfl⟩ := readsState_iff.mp hhead
        exact ⟨exchange, request, value, rest, htag, rfl⟩
    case h_2 => cases h
  · rintro ⟨exchange, request, value, rest, htag, htrace⟩
    simp [passedState, htag, htrace, readsState]

def StateRead (op : Op) (h : RequestTrace) (c : Call) : Prop :=
  ∀ n exchange request, op = .googleCallback (some n) exchange request →
    (h = [] → c = .redisGet (.oauthStateGoogle n)) ∧
      ∀ value, h = [⟨.redisGet (.oauthStateGoogle n), some value⟩] →
        c = .redisDelete (.oauthStateGoogle n)

variable [External]

theorem googleCallback_stateRead {I : State → Prop} (n : ℕ)
    (exchange : Except Detail GoogleUserInfo) (request : Request) :
    Behaves handler I (StateRead (.googleCallback (some n) exchange request)) (fun _ _ => True) []
      (googleCallback (some n) exchange request) := by
  refine .perform_bind ?_ (fun s _ => ?_)
  · rintro _ _ _ ⟨⟩
    exact ⟨fun _ => rfl, fun _ hh => (List.cons_ne_nil _ _ hh.symm).elim⟩
  · cases (handler (.redisGet (.oauthStateGoogle n)) s).1 with
    | none => exact .raise _
    | some value =>
      refine .perform_bind ?_ (fun t _ => ?_)
      · rintro _ _ _ ⟨⟩
        exact ⟨fun hh => (List.cons_ne_nil _ _ hh).elim, fun _ _ => rfl⟩
      · refine .of_makes (writesOnly_allAreas _) (fun h' hstarts c _ => ?_) (fun _ _ _ => trivial)
        rintro _ _ _ ⟨⟩
        obtain ⟨rest, rfl⟩ := hstarts
        exact ⟨fun hh => (List.cons_ne_nil _ _ hh).elim, fun _ hh => (by cases hh)⟩

theorem Op.program_stateRead {I : State → Prop} (op : Op) :
    Behaves handler I (StateRead op) (fun _ _ => True) [] op.program := by
  cases op with
  | googleCallback state exchange request =>
    cases state with
    | none => exact .raise _
    | some n => exact .bind (googleCallback_stateRead n exchange request) (fun _ _ _ => trivial)
  | _ =>
    refine .of_makes (writesOnly_allAreas _) (fun h' _ c _ => ?_) (fun _ _ _ => trivial)
    rintro n exchange request ⟨⟩

/-! ## Runs -/

namespace RequestPool

variable {p : RequestPool} {n : ℕ}

/-- A verification deletes a challenge that is still stored, and a callback reads a live state value
only when no other callback is between its reading and its deletion. -/
def KeepsApart (p : RequestPool) : RequestMove → Bool
  | .advance i => p.threads[i]?.all (fun th =>
    match th.rest with
    | .call (.redisDelete (.twoFactorChallenge m)) _ =>
      (p.state.redis (.twoFactorChallenge m)).isSome
    | .call (.redisGet (.oauthStateGoogle m)) _ =>
      (p.state.redis.get p.state.clock (.oauthStateGoogle m)).isNone ||
        p.threads.all (fun th' => !(passedState m th' && th'.trace.length = 1))
    | _ => true)
  | _ => true

/-- A key that a request has read and that is gone does not come back. -/
theorem KeyLedger.gone_step {F : KeyFamily} (h : KeyLedger F n p)
    (hread : ∃ x ∈ p.threads, ∃ value, ⟨.redisGet (F.key n), some value⟩ ∈ x.trace)
    (hgone : p.state.redis (F.key n) = none) (m : RequestMove) :
    (requests.step p m).state.redis (F.key n) = none := by
  have hcase := requests.step_cases p m
  generalize requests.step p m = q at hcase
  cases hcase with
  | spawn tag => exact hgone
  | environment d => exact hgone
  | idle i => exact hgone
  | @call i th c next hth hrest =>
    rcases handler_redis c p.state (F.key n) with hsame | ⟨value, ex, rfl⟩ | ⟨-, hnone⟩
    · exact hsame.trans hgone
    · obtain ⟨x, hx, value', hmem⟩ := hread
      exact absurd hmem ((h.unissued_of_set hth hrest).2.unread x hx value')
    · exact hnone

structure ChallengeLedger (n : ℕ) (p : RequestPool) : Prop where
  keys : KeyLedger challenges n p
  read : ∀ th ∈ p.threads, DeletedChallenge n th →
    ∃ value, ⟨.redisGet (.twoFactorChallenge n), some value⟩ ∈ th.trace
  gone : ∀ th ∈ p.threads, DeletedChallenge n th → p.state.redis (.twoFactorChallenge n) = none
  once : PoolSystem.AtMostOne (DeletedChallenge n) p

theorem ChallengeLedger.step (h : ChallengeLedger n p) {m : RequestMove}
    (hapart : KeepsApart p m = true) : ChallengeLedger n (requests.step p m) := by
  refine ⟨h.keys.step m, ?_, fun th hth hdeleted => ?_, ?_⟩
  · refine requests.everyThread_step h.read (fun tag _ hdeleted => by cases hdeleted) ?_
    intro i th c next hth hrest hread hdeleted
    rcases List.mem_append.mp hdeleted with hold | hnew
    · obtain ⟨value, hmem⟩ := hread hold
      exact ⟨value, List.mem_append_left _ hmem⟩
    · obtain ⟨rfl, -⟩ := Sigma.mk.inj (List.mem_singleton.mp hnew)
      obtain ⟨value, hmem⟩ := (h.keys.behaving.call hth hrest).challenges.consumed n rfl
      exact ⟨value, List.mem_append_left _ hmem⟩
  · obtain ⟨i, hi⟩ := List.getElem?_of_mem hth
    have hkeep {x : RequestThread} (hx : x ∈ p.threads) (hdeleted : DeletedChallenge n x) :=
      h.keys.gone_step ⟨x, hx, h.read x hx hdeleted⟩ (h.gone x hx hdeleted) m
    rcases requests.step_thread hi with hold | ⟨tag, -, -, rfl⟩ | ⟨x, c, next, rfl, hx, hrest, rfl⟩
    · exact hkeep (List.mem_of_getElem? hold) hdeleted
    · cases hdeleted
    · rcases List.mem_append.mp hdeleted with hold | hnew
      · exact hkeep (List.mem_of_getElem? hx) hold
      · obtain ⟨rfl, -⟩ := Sigma.mk.inj (List.mem_singleton.mp hnew)
        rw [requests.step_advance hx hrest]
        exact p.state.redis.delete_self (.twoFactorChallenge n)
  · refine requests.atMostOne_step h.once (fun tag hdeleted => by cases hdeleted) ?_
    rintro i th c next rfl hth hrest hdeleted
    rcases List.mem_append.mp hdeleted with hold | hnew
    · exact .inl hold
    · obtain ⟨rfl, -⟩ := Sigma.mk.inj (List.mem_singleton.mp hnew)
      refine .inr (fun y hy hy' => ?_)
      simp [KeepsApart, hth, hrest, h.gone y hy hy'] at hapart

structure StateLedger (n : ℕ) (p : RequestPool) : Prop where
  keys : KeyLedger oauthStates n p
  reads : ∀ th ∈ p.threads,
    Behaves handler (fun _ => True) (StateRead th.tag) (fun _ _ => True) th.trace th.rest
  spent : ∀ th ∈ p.threads, passedState n th = true →
    th.trace.length = 1 ∨ p.state.redis (.oauthStateGoogle n) = none
  once : PoolSystem.AtMostOne (fun th => passedState n th = true) p

theorem StateLedger.gone_step (h : StateLedger n p) {th : RequestThread} (hth : th ∈ p.threads)
    (hpassed : passedState n th = true) (hgone : p.state.redis (.oauthStateGoogle n) = none)
    (m : RequestMove) : (requests.step p m).state.redis (.oauthStateGoogle n) = none := by
  obtain ⟨_, _, value, rest, -, htrace⟩ := passedState_iff.mp hpassed
  exact h.keys.gone_step ⟨th, hth, value, by rw [htrace]; exact List.mem_cons_self⟩ hgone m

/-- A callback that goes on after its check has passed deletes the state value, or has done so. -/
theorem StateLedger.spent_call (h : StateLedger n p) {i : ℕ} {th : RequestThread} {c : Call}
    {next : c.Answer → App Response} (hth : p.threads[i]? = some th)
    (hrest : th.rest = .call c next) (hpassed : passedState n th = true) :
    (requests.step p (.advance i)).state.redis (.oauthStateGoogle n) = none := by
  have hmem := List.mem_of_getElem? hth
  rcases h.spent th hmem hpassed with hone | hgone
  · obtain ⟨exchange, request, value, rest, htag, htrace⟩ := passedState_iff.mp hpassed
    have hread := h.reads th hmem
    rw [hrest] at hread
    have hempty : rest = [] := by simpa [htrace] using hone
    rw [hempty] at htrace
    have hdelete := (hread.1 n exchange request htag).2 value htrace
    subst hdelete
    rw [requests.step_advance hth hrest]
    exact p.state.redis.delete_self (.oauthStateGoogle n)
  · exact h.gone_step hmem hpassed hgone _

omit [External] in
/-- The check of a state value is passed with the first call of a callback. -/
theorem passedState_answered {th : RequestThread} {c : Call} {r : c.Answer}
    {next : c.Answer → App Response} (h : passedState n (th.answered c r next) = true) :
    passedState n th = true ∨ (th.trace = [] ∧
      ∃ value, (⟨c, r⟩ : (c : Call) × c.Answer) = ⟨.redisGet (.oauthStateGoogle n), some value⟩) := by
  obtain ⟨exchange, request, value, rest, htag, htrace⟩ := passedState_iff.mp h
  cases hbefore : th.trace with
  | nil =>
    refine .inr ⟨rfl, value, ?_⟩
    rw [show (th.answered c r next).trace = th.trace ++ [⟨c, r⟩] from rfl, hbefore] at htrace
    exact (List.cons.inj htrace).1
  | cons e rest' =>
    refine .inl (passedState_iff.mpr ⟨exchange, request, value, rest', htag, ?_⟩)
    rw [show (th.answered c r next).trace = th.trace ++ [⟨c, r⟩] from rfl, hbefore] at htrace
    rw [hbefore, (List.cons.inj htrace).1]

theorem StateLedger.step (h : StateLedger n p) {m : RequestMove}
    (hapart : KeepsApart p m = true) : StateLedger n (requests.step p m) := by
  refine ⟨h.keys.step m, ?_, fun th hth hpassed => ?_, ?_⟩
  · refine requests.everyThread_step h.reads (fun tag _ => tag.program_stateRead) ?_
    intro i th c next _ hrest hth
    exact hth.answered hrest trivial
  · obtain ⟨i, hi⟩ := List.getElem?_of_mem hth
    rcases requests.step_thread hi with hold | ⟨tag, -, -, rfl⟩ | ⟨x, c, next, rfl, hx, hrest, rfl⟩
    · have hmem := List.mem_of_getElem? hold
      rcases h.spent th hmem hpassed with hone | hgone
      · exact .inl hone
      · exact .inr (h.gone_step hmem hpassed hgone m)
    · obtain ⟨_, _, _, _, -, htrace⟩ := passedState_iff.mp hpassed
      cases htrace
    · rcases passedState_answered hpassed with hold | ⟨hempty, -⟩
      · exact .inr (h.spent_call hx hrest hold)
      · exact .inl (by simp [Thread.answered, hempty])
  · refine requests.atMostOne_step h.once (fun tag hpassed => ?_) ?_
    · obtain ⟨_, _, _, _, -, htrace⟩ := passedState_iff.mp hpassed
      cases htrace
    · rintro i th c next rfl hth hrest hpassed
      rcases passedState_answered hpassed with hold | ⟨-, value, he⟩
      · exact .inl hold
      · obtain ⟨rfl, hr⟩ := Sigma.mk.inj he
        have hlive : p.state.redis.get p.state.clock (.oauthStateGoogle n) = some value :=
          eq_of_heq hr
        refine .inr (fun y hy hy' => ?_)
        rcases h.spent y hy hy' with hone | hgone
        · simp only [KeepsApart, hth, hrest, Option.all_some, hlive, Option.isNone_some,
            Bool.false_or, List.all_eq_true, Bool.not_eq_true', Bool.and_eq_false_iff,
            decide_eq_false_iff_not] at hapart
          rcases hapart y hy with hnot | hnot
          · rw [hy'] at hnot
            cases hnot
          · exact hnot hone
        · rw [ExpiringStore.get_eq_none_of_apply hgone] at hlive
          cases hlive

def DrawnKeys (s : State) : Prop :=
  ∀ n, s.nextId ≤ n →
    s.redis (.twoFactorChallenge n) = none ∧ s.redis (.oauthStateGoogle n) = none

theorem keyLedger_start {F : KeyFamily} {s₀ : State}
    (hdrawn : s₀.nextId ≤ n → s₀.redis (F.key n) = none) : KeyLedger F n (start s₀) := by
  refine ⟨fun _ hth => ?_, fun hle => ⟨hdrawn hle, fun _ hth => ?_, fun _ hth => ?_⟩,
    fun _ hth => ?_, fun i j th th' hth => ?_⟩
  · cases hth
  · cases hth
  · cases hth
  · cases hth
  · cases hth

/-- Where overlapping requests keep apart, each challenge logs in once and each state value passes
the check of the callback once. -/
theorem artefacts_single_use {s₀ : State} (hdrawn : DrawnKeys s₀)
    (hrun : RunsWhere requests.step (fun p m => KeepsApart p m = true) (start s₀) p) (n : ℕ) :
    PoolSystem.AtMostOne (fun th => redeemedChallenge n th = true) p ∧
      PoolSystem.AtMostOne (fun th => passedState n th = true) p := by
  have both : ChallengeLedger n p ∧ StateLedger n p := by
    refine hrun.invariant (I := fun x => ChallengeLedger n x ∧ StateLedger n x)
      ⟨⟨keyLedger_start (fun hle => (hdrawn n hle).1), ?_, ?_, ?_⟩,
        keyLedger_start (fun hle => (hdrawn n hle).2), ?_, ?_, ?_⟩
      (fun _ _ hapart h => ⟨h.1.step hapart, h.2.step hapart⟩)
    · exact fun _ hth => by cases hth
    · exact fun _ hth => by cases hth
    · exact fun i j th th' hth => by cases hth
    · exact fun _ hth => by cases hth
    · exact fun _ hth => by cases hth
    · exact fun i j th th' hth => by cases hth
  have hdeleted {th : RequestThread} (hth : th ∈ p.threads) (h : redeemedChallenge n th = true) :
      DeletedChallenge n th := by
    obtain ⟨⟨code, request, htag⟩, hresult⟩ := redeemedChallenge_iff.mp h
    obtain ⟨r, hr⟩ := Option.isSome_iff_exists.mp hresult
    have hconcluded := both.1.keys.behaving.concluded hth hr
    rwa [htag] at hconcluded
  refine ⟨fun i j th th' hi hj hth hth' => ?_, both.2.once⟩
  exact both.1.once i j th th' hi hj (hdeleted (List.mem_of_getElem? hi) hth)
    (hdeleted (List.mem_of_getElem? hj) hth')

def callback (state : ℕ) : RequestMove :=
  .spawn (.googleCallback (some state) (.ok ⟨"sub", some "test@example.com", true, none⟩) {})

/-- A challenge is answered and answered again, and a state value is brought back twice. -/
def artefactsInTurn : List RequestMove :=
  login :: RequestMove.finish 0 ++ answer 1 "AAAA-BBBB" :: RequestMove.finish 1 ++
    answer 1 "CCCC-DDDD" :: RequestMove.finish 2 ++ .spawn .googleLogin :: RequestMove.finish 3 ++
    callback 4 :: RequestMove.finish 4 ++ callback 4 :: RequestMove.finish 5

/-- The same with two answers and two callbacks at once. -/
def artefactsAtOnce : List RequestMove :=
  login :: RequestMove.finish 0 ++ answer 1 "AAAA-BBBB" :: answer 1 "CCCC-DDDD" ::
    (List.replicate 20 [.advance 1, .advance 2]).flatten ++
    .spawn .googleLogin :: RequestMove.finish 3 ++ callback 6 :: callback 6 ::
    (List.replicate 20 [.advance 4, .advance 5]).flatten

omit [External] in
theorem challengeStart_drawn : DrawnKeys challengeStart := fun _ _ => ⟨rfl, rfl⟩

omit [External] in
theorem artefacts_single_use_inTurn :
    letI := External.plain
    let p := run requests.step (start challengeStart) artefactsInTurn
    (p.threads.map (redeemedChallenge 1) = [false, true, false, false, false, false] ∧
      PoolSystem.AtMostOne (fun th => redeemedChallenge 1 th = true) p) ∧
    (p.threads.map (passedState 4) = [false, false, false, false, true, false] ∧
      PoolSystem.AtMostOne (fun th => passedState 4 th = true) p) := by
  let _ := External.plain
  intro p
  have hevery : EveryStep requests.step (fun p m => KeepsApart p m = true) (start challengeStart)
      artefactsInTurn := by decide +kernel
  have hrun : RunsWhere requests.step (fun p m => KeepsApart p m = true) (start challengeStart) p :=
    hevery.runsWhere
  exact ⟨⟨by decide +kernel, (artefacts_single_use challengeStart_drawn hrun 1).1⟩,
    ⟨by decide +kernel, (artefacts_single_use challengeStart_drawn hrun 4).2⟩⟩

omit [External] in
/-- Two requests at once log in with one challenge, and two pass the check of one state value. -/
theorem artefacts_not_single_use :
    letI := External.plain
    let p := run requests.step (start challengeStart) artefactsAtOnce
    p.threads.map (redeemedChallenge 1) = [false, true, true, false, false, false] ∧
      p.threads.map (passedState 6) = [false, false, false, false, true, true] := by
  decide +kernel

end RequestPool
end FastapiTemplate
