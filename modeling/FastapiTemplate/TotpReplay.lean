import FastapiTemplate.RequestCalls

/-!
# One-time passwords presented again

A one-time password that is accepted leaves a marker named after the time step of the
acceptance, for sixty seconds. The code is also valid in the steps around its own, and
there other markers are looked up. Nor is the look-up of the marker and its setting
one step. What is proved is that these are the only ways: where a request sets its
marker only while none is there, and no earlier acceptance of a code of the same step
fell into another time step or has outlived its marker, each code is accepted once.
-/

namespace FastapiTemplate

variable {s t : State}

def markedSlice (h : RequestTrace) (user : UserId) : Option ℕ :=
  h.findSome? (fun e => match e with
    | ⟨.redisSet (.twoFactorReplay u slice) _ _, _⟩ => if u = user then some slice else none
    | _ => none)

theorem markedSlice_append (h : RequestTrace) (e : (c : Call) × c.Answer) (user : UserId) :
    markedSlice (h ++ [e]) user = (markedSlice h user).or (markedSlice [e] user) := by
  unfold markedSlice
  exact List.findSome?_append

theorem markedSlice_single {c : Call} {r : c.Answer} {user : UserId} {slice : ℕ}
    (h : markedSlice [⟨c, r⟩] user = some slice) :
    ∃ value ex, c = .redisSet (.twoFactorReplay user slice) value ex := by
  unfold markedSlice at h
  rw [List.findSome?_singleton] at h
  split at h
  case h_1 u slice' value ex r' heq =>
    split at h
    · obtain ⟨rfl, -⟩ := Sigma.mk.inj heq
      simp_all
    · cases h
  case h_2 => cases h

/-- The marker outlasts the step after the one it is named after. -/
def Marked (s : State) (user : UserId) (slice : ℕ) : Prop :=
  ∃ e x, s.redis (.twoFactorReplay user slice) = some e ∧ e.expiresAt = some x ∧
    (slice + 2) * (totpInterval * second) ≤ x

theorem Marked.live {user : UserId} {slice : ℕ} (h : Marked s user slice)
    (hclock : s.clock < (slice + 2) * (totpInterval * second)) :
    s.redis.get s.clock (.twoFactorReplay user slice) ≠ none := by
  obtain ⟨e, x, he, hx, hle⟩ := h
  have halive : ExpiringStore.aliveAt s.clock e = true := by
    simp only [ExpiringStore.aliveAt, hx, decide_eq_true_eq]
    omega
  rw [ExpiringStore.get_eq_some_iff.mpr ⟨e, he, halive, rfl⟩]
  simp

/-- A marker that is set in or after its own step lasts to the end of the next one. -/
theorem marked_redisSet {user : UserId} {now : ℕ} (hnow : now ≤ s.clock) :
    Marked (handler (.redisSet (.twoFactorReplay user (timeStep now)) .one 60) s).2 user
      (timeStep now) := by
  refine ⟨⟨.one, some (s.clock + 60 * second)⟩, _, ?_, rfl, ?_⟩
  · simp [handler, State.redisSet]
  · have hstep : timeStep now * (totpInterval * second) ≤ now := Nat.div_mul_le_self _ _
    have hminute : 2 * (totpInterval * second) = 60 * second := by decide
    rw [Nat.add_mul]
    omega

variable [External]

/-- A call sets a replay marker as a request that has checked its code does, or sets none. -/
theorem RequestCall.replays {op : Op} {h : RequestTrace} {c : Call} (hcall : RequestCall op h c) :
    c.Avoids [.replays] ∨ ∃ user now, c = .redisSet (.twoFactorReplay user (timeStep now)) .one 60 ∧
      (readFactor h user).isSome = true ∧ (firstNow h).isSome = true ∧ ⟨.now, now⟩ ∈ h := by
  cases hcall with
  | aside hwithin havoids hfactors => exact .inl (fun a ha => havoids a (by simp_all))
  | markReplay hrecord hfirst hnow =>
    exact .inr ⟨_, _, rfl, by rw [hrecord]; rfl, by rw [hfirst]; rfl, hnow⟩
  | _ => exact .inl (by simp [Call.Avoids, Call.area, RedisKey.area])

theorem Marked.call {user : UserId} {slice : ℕ} (h : Marked s user slice) {op : Op}
    {trace : RequestTrace} {c : Call} (hcall : RequestCall op trace c)
    (hclock : ∀ t, ⟨.now, t⟩ ∈ trace → t ≤ s.clock) : Marked (handler c s).2 user slice := by
  rcases hcall.replays with havoids | ⟨u, now, rfl, -, -, hnow⟩
  · obtain ⟨e, x, he, hx, hle⟩ := h
    exact ⟨e, x, ((handler_frame c s).replays havoids user slice).trans he, hx, hle⟩
  · by_cases hsame : user = u ∧ slice = timeStep now
    · obtain ⟨rfl, rfl⟩ := hsame
      exact marked_redisSet (hclock now hnow)
    · obtain ⟨e, x, he, hx, hle⟩ := h
      refine ⟨e, x, ?_, hx, hle⟩
      rw [← he]
      refine redisSet_redis_of_ne s (fun hkey => hsame ?_) .one 60
      cases hkey
      exact ⟨rfl, rfl⟩

/-! ## Acceptances -/

/-- The code of the request is that of the step `k` of the secret, which was valid when the request
checked it. -/
def matchesTotp (user : UserId) (secret : String) (k : ℤ) (th : RequestThread) : Bool :=
  match th.tag with
  | .verifyTwoFactorChallenge _ code _ =>
    External.otpMatches secret (cleanedCode (strip code)) k &&
      (readFactor th.trace user).any
        (fun record => External.fernetDecrypt record.secretEncrypted = some secret) &&
      (firstNow th.trace).any (fun t => timeStep t - 1 ≤ k ∧ k ≤ timeStep t + 1)
  | _ => false

/-- The request has been accepted with the code of the step and has set the marker of the slice. -/
def acceptedTotp (user : UserId) (secret : String) (k : ℤ) (slice : ℕ) (th : RequestThread) : Bool :=
  matchesTotp user secret k th && markedSlice th.trace user = some slice

def MarkedAfterCheck (th : RequestThread) : Prop :=
  ∀ user, (markedSlice th.trace user).isSome = true →
    (readFactor th.trace user).isSome = true ∧ (firstNow th.trace).isSome = true

theorem matchesTotp_answered {th : RequestThread} {user : UserId}
    (hread : (readFactor th.trace user).isSome = true) (hfirst : (firstNow th.trace).isSome = true)
    (secret : String) (k : ℤ) (c : Call) (r : c.Answer) (next : c.Answer → App Response) :
    matchesTotp user secret k (th.answered c r next) = matchesTotp user secret k th := by
  obtain ⟨record, hrecord⟩ := Option.isSome_iff_exists.mp hread
  obtain ⟨t, ht⟩ := Option.isSome_iff_exists.mp hfirst
  simp only [matchesTotp, Thread.answered]
  rw [readFactor_extend hrecord (List.prefix_append _ _), hrecord,
    firstNow_extend ht (List.prefix_append _ _), ht]

/-- A request is accepted with the call that sets its marker, and stays accepted. -/
theorem acceptedTotp_answered {th : RequestThread} {c : Call} {r : c.Answer}
    {next : c.Answer → App Response} {user : UserId} {secret : String} {k : ℤ} {slice : ℕ}
    (hcheck : MarkedAfterCheck th) (hcall : RequestCall th.tag th.trace c)
    (h : acceptedTotp user secret k slice (th.answered c r next) = true) :
    acceptedTotp user secret k slice th = true ∨ (matchesTotp user secret k th = true ∧
      ∃ value ex, c = .redisSet (.twoFactorReplay user slice) value ex) := by
  simp only [acceptedTotp, Bool.and_eq_true, decide_eq_true_eq] at h ⊢
  obtain ⟨hmatch, hslice⟩ := h
  rw [show (th.answered c r next).trace = th.trace ++ [⟨c, r⟩] from rfl, markedSlice_append] at hslice
  cases hmarked : markedSlice th.trace user with
  | some slice' =>
    obtain ⟨hread, hfirst⟩ := hcheck user (by rw [hmarked]; rfl)
    rw [hmarked, Option.some_or] at hslice
    exact .inl ⟨matchesTotp_answered hread hfirst secret k c r next ▸ hmatch, hslice⟩
  | none =>
    rw [hmarked, Option.none_or] at hslice
    obtain ⟨value, ex, rfl⟩ := markedSlice_single hslice
    rcases hcall.replays with havoids | ⟨u, now, hc, hread, hfirst, -⟩
    · exact absurd rfl (havoids .replays (by simp))
    · cases hc
      exact .inr ⟨matchesTotp_answered hread hfirst secret k _ r next ▸ hmatch, _, _, rfl⟩

/-! ## Runs -/

namespace RequestPool

/-- A marker is set only while none is there, and an earlier acceptance of a code of the same step
has the same marker and is not older than the marker lasts. -/
def MarksFresh (p : RequestPool) : RequestMove → Prop
  | .advance i => ∀ th user slice value ex next, p.threads[i]? = some th →
    th.rest = .call (.redisSet (.twoFactorReplay user slice) value ex) next →
      p.state.redis.get p.state.clock (.twoFactorReplay user slice) = none ∧
      ∀ th' ∈ p.threads, ∀ secret k slice', matchesTotp user secret k th = true →
        acceptedTotp user secret k slice' th' = true →
          slice' = slice ∧ p.state.clock < (slice + 2) * (totpInterval * second)
  | _ => True

structure TotpLedger (p : RequestPool) : Prop where
  behaving : Behaving p
  clock : ∀ th ∈ p.threads, ∀ t, ⟨.now, t⟩ ∈ th.trace → t ≤ p.state.clock
  checked : ∀ th ∈ p.threads, MarkedAfterCheck th
  marked : ∀ th ∈ p.threads, ∀ user slice, markedSlice th.trace user = some slice →
    Marked p.state user slice

variable {p : RequestPool}

theorem clock_step (h : ∀ th ∈ p.threads, ∀ t, ⟨.now, t⟩ ∈ th.trace → t ≤ p.state.clock)
    (m : RequestMove) : ∀ th ∈ (requests.step p m).threads, ∀ t, ⟨.now, t⟩ ∈ th.trace →
      t ≤ (requests.step p m).state.clock := by
  intro th hth t ht
  have hgrows := (requests_step_grows p m).clock
  obtain ⟨i, hi⟩ := List.getElem?_of_mem hth
  rcases requests.step_thread hi with hold | ⟨tag, -, -, rfl⟩ | ⟨x, c, next, -, hx, hrest, rfl⟩
  · exact (h th (List.mem_of_getElem? hold) t ht).trans hgrows
  · cases ht
  · rcases List.mem_append.mp ht with hold | hnew
    · exact (h x (List.mem_of_getElem? hx) t hold).trans hgrows
    · obtain ⟨rfl, hr⟩ := Sigma.mk.inj (List.mem_singleton.mp hnew)
      rw [eq_of_heq hr]
      exact hgrows

theorem checked_step (hbehaving : Behaving p) (h : ∀ th ∈ p.threads, MarkedAfterCheck th)
    (m : RequestMove) : ∀ th ∈ (requests.step p m).threads, MarkedAfterCheck th := by
  refine requests.everyThread_step h (fun tag _ user hmarked => by cases hmarked) ?_
  intro i x c next hx hrest hchecks user hmarked
  have hchecked : (readFactor x.trace user).isSome = true ∧ (firstNow x.trace).isSome = true := by
    rw [show (x.answered c _ next).trace = x.trace ++ [⟨c, _⟩] from rfl, markedSlice_append] at hmarked
    cases hbefore : markedSlice x.trace user with
    | some slice => exact hchecks user (by rw [hbefore]; rfl)
    | none =>
      rw [hbefore, Option.none_or] at hmarked
      obtain ⟨slice, hslice⟩ := Option.isSome_iff_exists.mp hmarked
      obtain ⟨value, ex, rfl⟩ := markedSlice_single hslice
      rcases (hbehaving.call hx hrest).replays with havoids | ⟨u, now, hc, hread, hfirst, -⟩
      · exact absurd rfl (havoids .replays (by simp))
      · cases hc
        exact ⟨hread, hfirst⟩
  obtain ⟨record, hrecord⟩ := Option.isSome_iff_exists.mp hchecked.1
  obtain ⟨t, ht⟩ := Option.isSome_iff_exists.mp hchecked.2
  refine ⟨?_, ?_⟩
  · exact Option.isSome_iff_exists.mpr ⟨record, readFactor_extend hrecord (List.prefix_append _ _)⟩
  · exact Option.isSome_iff_exists.mpr ⟨t, firstNow_extend ht (List.prefix_append _ _)⟩

theorem Marked.step {user : UserId} {slice : ℕ} (h : Marked p.state user slice)
    (hledger : TotpLedger p) (m : RequestMove) : Marked (requests.step p m).state user slice := by
  have hcase := requests.step_cases p m
  generalize requests.step p m = q at hcase
  cases hcase with
  | spawn tag => exact h
  | environment d => exact h
  | idle i => exact h
  | call hth hrest =>
    exact h.call (hledger.behaving.call hth hrest) (hledger.clock _ (List.mem_of_getElem? hth))

theorem TotpLedger.step (h : TotpLedger p) (m : RequestMove) : TotpLedger (requests.step p m) := by
  refine ⟨h.behaving.step m, clock_step h.clock m, checked_step h.behaving h.checked m, ?_⟩
  intro th hth user slice hmarked
  obtain ⟨i, hi⟩ := List.getElem?_of_mem hth
  rcases requests.step_thread hi with hold | ⟨tag, -, -, rfl⟩ | ⟨x, c, next, rfl, hx, hrest, rfl⟩
  · exact Marked.step (h.marked th (List.mem_of_getElem? hold) user slice hmarked) h m
  · cases hmarked
  · rw [show (x.answered c _ next).trace = x.trace ++ [⟨c, _⟩] from rfl, markedSlice_append] at hmarked
    cases hbefore : markedSlice x.trace user with
    | some slice' =>
      rw [hbefore, Option.some_or] at hmarked
      cases hmarked
      exact Marked.step (h.marked x (List.mem_of_getElem? hx) user slice hbefore) h _
    | none =>
      rw [hbefore, Option.none_or] at hmarked
      obtain ⟨value, ex, rfl⟩ := markedSlice_single hmarked
      rw [requests.step_advance hx hrest]
      rcases (h.behaving.call hx hrest).replays with havoids | ⟨u, now, hc, -, -, hnow⟩
      · exact absurd rfl (havoids .replays (by simp))
      · cases hc
        exact marked_redisSet (h.clock x (List.mem_of_getElem? hx) now hnow)

/-- No two requests are accepted with the code of one step. -/
def AcceptedOnce (p : RequestPool) : Prop :=
  ∀ user secret k,
    PoolSystem.AtMostOne (fun th => ∃ slice, acceptedTotp user secret k slice th = true) p

/-- Nothing has been accepted before with the code that a request marks. -/
theorem MarksFresh.unaccepted {i : ℕ} (h : MarksFresh p (.advance i)) (hledger : TotpLedger p)
    {th : RequestThread} (hth : p.threads[i]? = some th) {user : UserId} {slice : ℕ}
    {value : RedisValue} {ex : ℤ} {next : Except AppError Unit → App Response}
    (hrest : th.rest = .call (.redisSet (.twoFactorReplay user slice) value ex) next)
    {secret : String} {k : ℤ} (hmatch : matchesTotp user secret k th = true) {th' : RequestThread}
    (hth' : th' ∈ p.threads) (slice' : ℕ) : acceptedTotp user secret k slice' th' = false := by
  obtain ⟨hnone, hearlier⟩ := h th user slice value ex next hth hrest
  by_contra haccepted
  rw [Bool.not_eq_false] at haccepted
  obtain ⟨rfl, hclock⟩ := hearlier th' hth' secret k slice' hmatch haccepted
  have hslice : markedSlice th'.trace user = some slice' := by
    simp only [acceptedTotp, Bool.and_eq_true, decide_eq_true_eq] at haccepted
    exact haccepted.2
  exact (hledger.marked th' hth' user slice' hslice).live hclock hnone

theorem AcceptedOnce.step (h : AcceptedOnce p) (hledger : TotpLedger p) {m : RequestMove}
    (hfresh : MarksFresh p m) : AcceptedOnce (requests.step p m) := by
  intro user secret k
  refine requests.atMostOne_step (h user secret k) (fun tag => ?_) ?_
  · rintro ⟨slice, haccepted⟩
    simp [acceptedTotp, PoolSystem.fresh, markedSlice] at haccepted
  · rintro i th c next rfl hth hrest ⟨slice, haccepted⟩
    have hmem := List.mem_of_getElem? hth
    rcases acceptedTotp_answered (hledger.checked th hmem) (hledger.behaving.call hth hrest)
      haccepted with hold | ⟨hmatch, value, ex, rfl⟩
    · exact .inl ⟨slice, hold⟩
    · refine .inr (fun y hy ⟨slice', hy'⟩ => ?_)
      rw [hfresh.unaccepted hledger hth hrest hmatch hy slice'] at hy'
      cases hy'

/-- Where markers are set in time, the code of one step is accepted at most once. -/
theorem totp_accepted_once {s₀ : State} (hrun : RunsWhere requests.step MarksFresh (start s₀) p) :
    AcceptedOnce p := by
  have both : TotpLedger p ∧ AcceptedOnce p := by
    refine hrun.invariant (I := fun x => TotpLedger x ∧ AcceptedOnce x) ⟨⟨?_, ?_, ?_, ?_⟩, ?_⟩
      (fun _ m hfresh h => ⟨h.1.step m, h.2.step h.1 hfresh⟩)
    · exact fun _ hth => by cases hth
    · exact fun _ hth => by cases hth
    · exact fun _ hth => by cases hth
    · exact fun _ hth => by cases hth
    · intro user secret k i j th th' hth
      cases hth
  exact both.2

def firstMark (p : RequestPool) : RequestMove → Bool
  | .advance i => p.threads[i]?.all (fun th =>
    match th.rest with
    | .call (.redisSet (.twoFactorReplay user slice) _ _) _ =>
      (p.state.redis.get p.state.clock (.twoFactorReplay user slice)).isNone &&
        p.threads.all (fun th' => (markedSlice th'.trace user).isNone)
    | _ => true)
  | _ => true

theorem marksFresh_of_first {m : RequestMove} (h : firstMark p m = true) : MarksFresh p m := by
  cases m with
  | spawn op => trivial
  | environment d => trivial
  | advance i =>
    intro th user slice value ex next hth hrest
    simp only [firstMark, hth, hrest, Option.all_some, Bool.and_eq_true, Option.isNone_iff_eq_none,
      List.all_eq_true] at h
    refine ⟨h.1, fun th' hth' secret k slice' _ haccepted => ?_⟩
    simp [acceptedTotp, h.2 th' hth'] at haccepted

omit [External] in
theorem totp_accepted_once_answersInTurn :
    letI := External.plain
    let p := run requests.step (start challengeStart) (answersInTurn 0 "755224" "755224")
    p.threads.map (acceptedTotp 0 "GEZDGNBVGY3TQOJQGEZDGNBVGY3TQOJQ" 0 0) =
      [false, false, true, false] ∧ AcceptedOnce p := by
  let _ := External.plain
  intro p
  have hevery : EveryStep requests.step (fun p m => firstMark p m = true) (start challengeStart)
      (answersInTurn 0 "755224" "755224") := by decide +kernel
  have hrun : RunsWhere requests.step MarksFresh (start challengeStart) p :=
    hevery.runsWhere.mono (fun _ _ h => marksFresh_of_first h)
  exact ⟨by decide +kernel, totp_accepted_once hrun⟩

omit [External] in
/-- A code is accepted twice: in its own step and in the next, and by two requests at once. -/
theorem totp_not_accepted_once :
    letI := External.plain
    let late := run requests.step (start challengeStart)
      (answersInTurn (totpInterval * second) "755224" "755224")
    let race := run requests.step (start challengeStart) (answersAtOnce "755224" "755224")
    late.threads.map (acceptedTotp 0 "GEZDGNBVGY3TQOJQGEZDGNBVGY3TQOJQ" 0 0) =
        [false, false, true, false] ∧
      late.threads.map (acceptedTotp 0 "GEZDGNBVGY3TQOJQGEZDGNBVGY3TQOJQ" 0 1) =
        [false, false, false, true] ∧
      (late.threads.drop 2).all (·.result.isSome) = true ∧
      race.threads.map (acceptedTotp 0 "GEZDGNBVGY3TQOJQGEZDGNBVGY3TQOJQ" 0 0) =
        [false, false, true, true] ∧
      (race.threads.drop 2).all (·.result.isSome) = true := by
  decide +kernel

end RequestPool
end FastapiTemplate
