import FastapiTemplate.RequestCalls

/-!
# Keys that are handed out once

Challenges and OAuth states are Redis keys named after a drawn number. A key is set
right after its number has been drawn, and deleted only by a request that has read it.
So as long as a key may still be set, no request has read or deleted it, and a key
that has been deleted never comes back.
-/

namespace FastapiTemplate

/-- The keys of a family are set after a draw and deleted after they were read. -/
structure OneTime (key : ℕ → RedisKey) (h : RequestTrace) (c : Call) : Prop where
  created : ∀ n value ex, c = .redisSet (key n) value ex → h.getLast? = some ⟨.draw, n⟩
  consumed : ∀ n, c = .redisDelete (key n) → ∃ value, ⟨.redisGet (key n), some value⟩ ∈ h

theorem OneTime.of_avoids (key : ℕ → RedisKey) (a : Area) (hkey : ∀ n, (key n).area = a)
    {h : RequestTrace} {c : Call} (hc : c.Avoids [a]) : OneTime key h c := by
  refine ⟨fun n value ex he => ?_, fun n he => ?_⟩
  · exact absurd (by rw [he, Call.area, hkey n]) (hc a List.mem_cons_self)
  · exact absurd (by rw [he, Call.area, hkey n]) (hc a List.mem_cons_self)

theorem handler_redis (c : Call) (s : State) (key : RedisKey) :
    (handler c s).2.redis key = s.redis key ∨ (∃ value ex, c = .redisSet key value ex) ∨
      (c = .redisDelete key ∧ (handler c s).2.redis key = none) := by
  cases c with
  | redisSet k value ex =>
    by_cases hk : key = k
    · subst hk
      exact .inr (.inl ⟨value, ex, rfl⟩)
    · exact .inl (redisSet_redis_of_ne s hk value ex)
  | redisDelete k =>
    by_cases hk : key = k
    · subst hk
      exact .inr (.inr ⟨rfl, s.redis.delete_self key⟩)
    · exact .inl (s.redis.delete_of_ne hk)
  | _ => exact .inl rfl

variable [External]

structure KeyFamily where
  key : ℕ → RedisKey
  guarded : ∀ {op : Op} {h : RequestTrace} {c : Call}, RequestCall op h c → OneTime key h c

theorem RequestCall.oauthStates {op : Op} {h : RequestTrace} {c : Call} (hcall : RequestCall op h c) :
    OneTime .oauthStateGoogle h c := by
  have hother (hc : c.Avoids [.oauthStates]) : OneTime .oauthStateGoogle h c :=
    .of_avoids .oauthStateGoogle .oauthStates (fun _ => rfl) hc
  cases hcall with
  | aside hwithin havoids hfactors => exact hother (fun a ha => havoids a (by simp_all))
  | createState hdraw =>
    refine ⟨fun n value ex he => ?_, fun n he => ?_⟩
    · cases he
      exact hdraw
    · cases he
  | consumeState hread =>
    refine ⟨fun n value ex he => ?_, fun n he => ?_⟩
    · cases he
    · cases he
      exact ⟨_, hread⟩
  | _ => exact hother (by simp [Call.Avoids, Call.area, RedisKey.area])

theorem RequestCall.challenges {op : Op} {h : RequestTrace} {c : Call} (hcall : RequestCall op h c) :
    OneTime .twoFactorChallenge h c := by
  have hother (hc : c.Avoids [.challenges]) : OneTime .twoFactorChallenge h c :=
    .of_avoids .twoFactorChallenge .challenges (fun _ => rfl) hc
  cases hcall with
  | aside hwithin havoids hfactors => exact hother (fun a ha => havoids a (by simp_all))
  | createChallenge hdraw =>
    refine ⟨fun n value ex he => ?_, fun n he => ?_⟩
    · cases he
      exact hdraw
    · cases he
  | consumeChallenge hread =>
    refine ⟨fun n value ex he => ?_, fun n he => ?_⟩
    · cases he
    · cases he
      exact ⟨_, hread⟩
  | _ => exact hother (by simp [Call.Avoids, Call.area, RedisKey.area])

def oauthStates : KeyFamily := ⟨.oauthStateGoogle, RequestCall.oauthStates⟩

def challenges : KeyFamily := ⟨.twoFactorChallenge, RequestCall.challenges⟩

/-! ## The ledger of a key -/

namespace RequestPool

variable (F : KeyFamily) (n : ℕ) {p : RequestPool}

/-- The key is not stored, and no request has read or deleted it. -/
structure Unissued (p : RequestPool) : Prop where
  stored : p.state.redis (F.key n) = none
  unread : ∀ th ∈ p.threads, ∀ value, ⟨.redisGet (F.key n), some value⟩ ∉ th.trace
  undeleted : ∀ th ∈ p.threads, ⟨.redisDelete (F.key n), ()⟩ ∉ th.trace

def Armed (n : ℕ) (th : RequestThread) : Prop := th.trace.getLast? = some ⟨.draw, n⟩

structure KeyLedger (p : RequestPool) : Prop where
  behaving : Behaving p
  undrawn : p.state.nextId ≤ n → Unissued F n p
  armed : ∀ th ∈ p.threads, Armed n th → n < p.state.nextId ∧ Unissued F n p
  armedOnce : ∀ (i j : ℕ) th th', p.threads[i]? = some th → p.threads[j]? = some th' →
    Armed n th → Armed n th' → i = j

variable {F n}

/-- A request sets the key only while it is unissued. -/
theorem KeyLedger.unissued_of_set (h : KeyLedger F n p) {i : ℕ} {th : RequestThread}
    (hth : p.threads[i]? = some th) {value : RedisValue} {ex : ℤ}
    {next : Except AppError Unit → App Response}
    (hrest : th.rest = .call (.redisSet (F.key n) value ex) next) :
    n < p.state.nextId ∧ Unissued F n p :=
  h.armed th (List.mem_of_getElem? hth)
    ((F.guarded (h.behaving.call hth hrest)).created n value ex rfl)

/-- A call of a request that has not just drawn the number leaves the key unissued. -/
theorem Unissued.call (h : Unissued F n p) (hledger : KeyLedger F n p) {i : ℕ} {th : RequestThread}
    {c : Call} {next : c.Answer → App Response} (hth : p.threads[i]? = some th)
    (hrest : th.rest = .call c next) (hunarmed : ¬ Armed n th) :
    Unissued F n (requests.step p (.advance i)) := by
  have hmem := List.mem_of_getElem? hth
  have honce := F.guarded (hledger.behaving.call hth hrest)
  have hnotdeleted : c ≠ .redisDelete (F.key n) := by
    intro he
    obtain ⟨value, hread⟩ := honce.consumed n he
    exact h.unread th hmem value hread
  rw [requests.step_advance hth hrest]
  refine ⟨?_, fun x hx value hread => ?_, fun x hx hdelete => ?_⟩
  · rcases handler_redis c p.state (F.key n) with hsame | ⟨value, ex, he⟩ | ⟨he, hnone⟩
    · exact hsame.trans h.stored
    · exact absurd (honce.created n value ex he) hunarmed
    · exact hnone
  · rcases List.mem_or_eq_of_mem_set hx with hold | rfl
    · exact h.unread x hold value hread
    · rcases List.mem_append.mp hread with hold | hnew
      · exact h.unread th hmem value hold
      · obtain ⟨rfl, hr⟩ := Sigma.mk.inj (List.mem_singleton.mp hnew)
        have hnone : (handler (.redisGet (F.key n)) p.state).1 = none :=
          ExpiringStore.get_eq_none_of_apply h.stored p.state.clock
        exact absurd ((eq_of_heq hr).trans hnone) (by simp)
  · rcases List.mem_or_eq_of_mem_set hx with hold | rfl
    · exact h.undeleted x hold hdelete
    · rcases List.mem_append.mp hdelete with hold | hnew
      · exact h.undeleted th hmem hold
      · exact hnotdeleted (Sigma.mk.inj (List.mem_singleton.mp hnew)).1.symm

theorem Unissued.step (h : Unissued F n p) (hledger : KeyLedger F n p) {m : RequestMove}
    (hunarmed : ∀ i th c next, m = .advance i → p.threads[i]? = some th →
      th.rest = .call c next → ¬ Armed n th) : Unissued F n (requests.step p m) := by
  have hcase := requests.step_cases p m
  generalize hq : requests.step p m = q at hcase
  cases hcase with
  | environment d => exact ⟨h.stored, h.unread, h.undeleted⟩
  | idle i => exact h
  | spawn tag =>
    refine ⟨h.stored, fun th hth value hread => ?_, fun th hth hdelete => ?_⟩
    · rcases List.mem_append.mp hth with hold | hnew
      · exact h.unread th hold value hread
      · rw [List.mem_singleton.mp hnew] at hread
        cases hread
    · rcases List.mem_append.mp hth with hold | hnew
      · exact h.undeleted th hold hdelete
      · rw [List.mem_singleton.mp hnew] at hdelete
        cases hdelete
  | call hth hrest =>
    rw [← hq]
    exact h.call hledger hth hrest (hunarmed _ _ _ _ rfl hth hrest)

/-- A request that has just drawn the number has drawn it in this move, or was idle in it. -/
theorem armed_step {m : RequestMove} {i : ℕ} {th : RequestThread}
    (hi : (requests.step p m).threads[i]? = some th) (harmed : Armed n th) :
    (p.threads[i]? = some th ∧ ∀ c next, m = .advance i → th.rest ≠ .call c next) ∨
      (m = .advance i ∧ n = p.state.nextId ∧ n < (requests.step p m).state.nextId) := by
  by_cases hm : m = .advance i
  · subst hm
    rcases requests.step_thread hi with hold | ⟨_, hm, -, -⟩ | ⟨x, c, next, -, hx, hrest, rfl⟩
    · by_cases hcall : ∃ c next, th.rest = .call c next
      · -- a thread with a call left would have moved on
        obtain ⟨c, next, hrest⟩ := hcall
        rw [requests.step_advance hold hrest] at hi
        have hlt := (List.getElem?_eq_some_iff.mp hold).1
        rw [List.getElem?_set_self hlt] at hi
        have hlength := congrArg (fun th => th.trace.length) (Option.some.inj hi)
        simp [Thread.answered] at hlength
      · push Not at hcall
        exact .inl ⟨hold, fun c next _ => hcall c next⟩
    · cases hm
    · rw [Armed, Thread.answered, List.getLast?_concat] at harmed
      obtain ⟨rfl, hr⟩ := Sigma.mk.inj (Option.some.inj harmed)
      have hn : n = p.state.nextId := (eq_of_heq hr).symm
      refine .inr ⟨rfl, hn, ?_⟩
      rw [requests.step_advance hx hrest, hn]
      exact Nat.lt_succ_self _
  · rcases requests.step_thread hi with hold | ⟨_, -, -, rfl⟩ | ⟨_, _, _, hm', -, -, -⟩
    · exact .inl ⟨hold, fun _ _ hm' => absurd hm' hm⟩
    · cases harmed
    · exact absurd hm' hm

theorem KeyLedger.step (h : KeyLedger F n p) (m : RequestMove) :
    KeyLedger F n (requests.step p m) := by
  have hnext : p.state.nextId ≤ (requests.step p m).state.nextId :=
    (requests_step_grows p m).versions.1
  have hundrawn (hle : p.state.nextId ≤ n) : Unissued F n (requests.step p m) := by
    refine (h.undrawn hle).step h (fun i th _ _ _ hth _ harmed => ?_)
    have hlt := (h.armed th (List.mem_of_getElem? hth) harmed).1
    omega
  refine ⟨h.behaving.step m, fun hle => hundrawn (hnext.trans hle), fun th hth harmed => ?_, ?_⟩
  · obtain ⟨i, hi⟩ := List.getElem?_of_mem hth
    rcases armed_step hi harmed with ⟨hold, hidle⟩ | ⟨-, rfl, hlt⟩
    · obtain ⟨hlt, hunissued⟩ := h.armed th (List.mem_of_getElem? hold) harmed
      refine ⟨hlt.trans_le hnext, hunissued.step h (fun k x c next hm hx hrest harmed' => ?_)⟩
      have hki : k = i := h.armedOnce k i x th hx hold harmed' harmed
      subst hki
      rw [hx] at hold
      cases hold
      exact hidle c next hm hrest
    · exact ⟨hlt, hundrawn (le_refl _)⟩
  · intro i j th th' hi hj harmed harmed'
    rcases armed_step hi harmed with ⟨hold, -⟩ | ⟨hm, hn, -⟩
    · rcases armed_step hj harmed' with ⟨hold', -⟩ | ⟨-, hn, -⟩
      · exact h.armedOnce i j th th' hold hold' harmed harmed'
      · have hlt := (h.armed th (List.mem_of_getElem? hold) harmed).1
        omega
    · rcases armed_step hj harmed' with ⟨hold', -⟩ | ⟨hm', -, -⟩
      · have hlt := (h.armed th' (List.mem_of_getElem? hold') harmed').1
        omega
      · rw [hm'] at hm
        cases hm
        rfl

end RequestPool
end FastapiTemplate
