import FastapiTemplate.RequestPool
import FastapiTemplate.SecondFactor

/-!
# The calls of a request along its trace

Requests compete for one-time keys, replay markers and lists of backup codes. For
each operation this says when it may touch them, given the calls it has made before
and their answers. It is the only place where the bodies of the operations are
followed call by call; the properties of interleaved runs are derived from it.
-/

namespace FastapiTemplate

abbrev RequestTrace := CallTrace Call Call.Answer

def readFactor (h : RequestTrace) (user : UserId) : Option UserTwoFactorData :=
  h.findSome? (fun e => match e with
    | ⟨.selectTwoFactor u, found⟩ => if u = user then found else none
    | _ => none)

def firstNow (h : RequestTrace) : Option ℕ :=
  h.findSome? (fun e => match e with
    | ⟨.now, t⟩ => some t
    | _ => none)

theorem readFactor_extend {h h' : RequestTrace} {user : UserId} {record : UserTwoFactorData}
    (hread : readFactor h user = some record) (hstarts : h <+: h') :
    readFactor h' user = some record := by
  obtain ⟨rest, rfl⟩ := hstarts
  unfold readFactor at hread ⊢
  rw [List.findSome?_append, hread]
  rfl

theorem firstNow_extend {h h' : RequestTrace} {t : ℕ} (hnow : firstNow h = some t)
    (hstarts : h <+: h') : firstNow h' = some t := by
  obtain ⟨rest, rfl⟩ := hstarts
  unfold firstNow at hnow ⊢
  rw [List.findSome?_append, hnow]
  rfl

def Op.Concluded (h : RequestTrace) : Op → Prop
  | .verifyTwoFactorChallenge twoFactorToken _ _ =>
    ⟨.redisDelete (.twoFactorChallenge twoFactorToken), ()⟩ ∈ h
  | _ => True

variable [External]

/-- The calls that an operation may make after a trace. -/
inductive RequestCall : Op → RequestTrace → Call → Prop
  /-- a call on nothing that requests compete for -/
  | aside {op : Op} {h : RequestTrace} {c : Call} (hwithin : c.Within op.areas)
      (havoids : c.Avoids [.oauthStates, .challenges, .replays])
      (hfactors : ∀ twoFactorToken code request,
        op = .verifyTwoFactorChallenge twoFactorToken code request → c.Avoids [.factors]) :
      RequestCall op h c
  | createState {h : RequestTrace} {n : ℕ} {value : RedisValue} {ex : ℤ}
      (hdraw : h.getLast? = some ⟨.draw, n⟩) :
      RequestCall .googleLogin h (.redisSet (.oauthStateGoogle n) value ex)
  | consumeState {n : ℕ} {exchange : Except Detail GoogleUserInfo} {request : Request}
      {h : RequestTrace} {value : RedisValue}
      (hread : ⟨.redisGet (.oauthStateGoogle n), some value⟩ ∈ h) :
      RequestCall (.googleCallback (some n) exchange request) h (.redisDelete (.oauthStateGoogle n))
  | createChallenge {username password : String} {request : Request} {h : RequestTrace} {n : ℕ}
      {value : RedisValue} {ex : ℤ} (hdraw : h.getLast? = some ⟨.draw, n⟩) :
      RequestCall (.authenticateUser username password request) h
        (.redisSet (.twoFactorChallenge n) value ex)
  | consumeChallenge {n : ℕ} {code : String} {request : Request} {h : RequestTrace}
      {value : RedisValue} (hread : ⟨.redisGet (.twoFactorChallenge n), some value⟩ ∈ h) :
      RequestCall (.verifyTwoFactorChallenge n code request) h (.redisDelete (.twoFactorChallenge n))
  | markReplay {n : ℕ} {code : String} {request : Request} {h : RequestTrace} {user : UserId}
      {record : UserTwoFactorData} {t now : ℕ} (hrecord : readFactor h user = some record)
      (hfirst : firstNow h = some t) (hnow : ⟨.now, now⟩ ∈ h) :
      RequestCall (.verifyTwoFactorChallenge n code request) h
        (.redisSet (.twoFactorReplay user (timeStep now)) .one 60)
  | markCode {n : ℕ} {code : String} {request : Request} {h : RequestTrace} {user : UserId}
      {record : UserTwoFactorData} {now : ℕ} {codes : List BackupCodeRecord}
      (hrecord : readFactor h user = some record)
      (hmark : consumeRecord (hashBackupCode (strip code)) now record.backupCodes = (true, codes))
      (hfirst : ∀ e ∈ h, e.1.Avoids [.factors]) :
      RequestCall (.verifyTwoFactorChallenge n code request) h (.updateBackupCodes user codes)

section calls
variable {I : State → Prop} {α : Type} {op : Op} {h : RequestTrace}

/-- A part of an operation that stays within harmless areas. -/
theorem behaves_aside (areas : List Area) {p : App α} (hp : WritesOnly areas p)
    (hsub : areas ⊆ op.areas)
    (havoids : ∀ a ∈ [Area.oauthStates, .challenges, .replays, .factors], a ∉ areas)
    {Ψ : RequestTrace → α → Prop} (hΨ : ∀ h', h <+: h' → ∀ a, Ψ h' a) :
    Behaves handler I (RequestCall op) Ψ h p := by
  refine .of_makes hp (fun h' _ c hc => ?_) hΨ
  refine .aside (fun a ha => hsub (hc a ha)) (hc.avoids (fun a ha => ?_))
    (fun _ _ _ _ => hc.avoids (fun a ha => ?_))
  · refine havoids a ?_
    simp only [List.mem_cons, List.not_mem_nil, or_false] at ha ⊢
    tauto
  · rw [List.mem_singleton.mp ha]
    exact havoids .factors (by simp)

/-- A call that writes nothing. -/
theorem requestCall_read {c : Call} (hc : c.area = none) : RequestCall op h c :=
  .aside (fun a ha => by rw [hc] at ha; cases ha) (fun a _ => by rw [hc]; simp)
    (fun _ _ _ _ a _ => by rw [hc]; simp)

theorem googleLogin_calls :
    Behaves handler I (RequestCall .googleLogin) (fun _ _ => True) [] googleLogin := by
  refine .perform_bind (.aside (by simp [Call.Within, Call.area, Op.areas])
    (by simp [Call.Avoids, Call.area]) (by simp)) (fun s _ => ?_)
  refine .bind (M := fun _ _ => True) ?_ (fun _ _ _ => trivial)
  refine .perform_bind (.createState (by rfl)) (fun t _ => ?_)
  split
  · trivial
  · trivial

theorem googleCallback_calls (state : Option ℕ) (exchange : Except Detail GoogleUserInfo)
    (request : Request) :
    Behaves handler I (RequestCall (.googleCallback state exchange request)) (fun _ _ => True) []
      (googleCallback state exchange request) := by
  cases state with
  | none => exact .raise _
  | some n =>
    refine .perform_bind (requestCall_read rfl) (fun s _ => ?_)
    cases (handler (.redisGet (.oauthStateGoogle n)) s).1 with
    | none => exact .raise _
    | some value =>
      refine .perform_bind (.consumeState List.mem_cons_self) (fun t _ => ?_)
      cases exchange with
      | error detail => exact .raise _
      | ok info =>
        have hoauth : WritesOnly [.supply, .accounts, .sessions] (AuthService.handleGoogleOauth info) :=
          (AuthService.handleGoogleOauth_writes info).mono (by simp)
        have hissue (user : UserData) : WritesOnly [.supply, .accounts, .sessions]
            (AuthService.authenticateOauthUser user request) :=
          (AuthService.issueTokensAndSession_writes user request).mono (by simp)
        exact behaves_aside _ (hoauth.bind hissue) (by simp [Op.areas]) (by simp)
          (fun _ _ _ => trivial)

theorem authenticateUser_calls (username password : String) (request : Request) :
    Behaves handler I (RequestCall (.authenticateUser username password request)) (fun _ _ => True)
      [] (AuthService.authenticateUser username password request) := by
  refine .perform_bind (requestCall_read rfl) (fun s _ => ?_)
  cases (handler (.selectUser (.username username)) s).1 with
  | none => exact .raise _
  | some user =>
    dsimp only
    split
    · exact .raise _
    · refine .perform_bind (requestCall_read rfl) (fun t _ => ?_)
      split
      · refine .bind (M := fun _ _ => True) ?_ (fun _ _ _ => trivial)
        refine .perform_bind (.aside (by simp [Call.Within, Call.area, Op.areas])
          (by simp [Call.Avoids, Call.area]) (by simp)) (fun u _ => ?_)
        refine .bind (M := fun _ _ => True) ?_ (fun _ _ _ => trivial)
        refine .perform_bind (.createChallenge (by simp)) (fun v _ => ?_)
        split
        · trivial
        · trivial
      · have hissue := AuthService.issueTokensAndSession_writes user request
        exact behaves_aside _ (hissue.bind (fun _ => .pure _)) (by simp [Op.areas]) (by simp)
          (fun _ _ _ => trivial)

theorem decryptSecret_behaves {Φ : RequestTrace → Call → Prop} (encrypted : String) :
    Behaves handler I Φ (fun h' _ => h' = h) h (decryptSecret encrypted) := by
  unfold decryptSecret
  split
  · exact .pure rfl
  · exact .raise _

theorem requireEnabled_calls (user : UserId) :
    Behaves handler I (RequestCall op) (fun h' record => ∃ found,
      h' = h ++ [⟨.selectTwoFactor user, found⟩] ∧ found = some record) h
      (AuthService.requireEnabled user) := by
  refine .perform_bind (requestCall_read rfl) (fun s _ => ?_)
  cases (handler (.selectTwoFactor user) s).1 with
  | none => exact .raise _
  | some record =>
    dsimp only
    split
    · exact .pure ⟨_, rfl, rfl⟩
    · exact .raise _

theorem recordTotpUse_calls {n : ℕ} {code : String} {request : Request} {user : UserId}
    {record : UserTwoFactorData} {t : ℕ} (hrecord : readFactor h user = some record)
    (hfirst : firstNow h = some t) :
    Behaves handler I (RequestCall (.verifyTwoFactorChallenge n code request))
      (fun h' _ => h <+: h') h (AuthService.recordTotpUse user) := by
  refine .perform_bind (requestCall_read rfl) (fun s _ => ?_)
  refine .perform_bind (requestCall_read rfl) (fun u _ => ?_)
  cases (handler (.redisGet (.twoFactorReplay user (timeStep (handler .now s).1))) u).1 with
  | some v => exact .raise _
  | none =>
    have hlonger {e e' : (c : Call) × c.Answer} : h <+: h ++ [e] ++ [e'] :=
      (List.prefix_append h _).trans (List.prefix_append _ _)
    refine .perform_bind (.markReplay (readFactor_extend hrecord hlonger)
      (firstNow_extend hfirst hlonger) (by simp)) (fun v _ => ?_)
    split
    · exact .pure (hlonger.trans (List.prefix_append _ _))
    · exact .raise _

theorem verifyTotp_calls (secret code : String) :
    Behaves handler I (RequestCall op) (fun h' _ => ∃ t, h' = h ++ [⟨.now, t⟩]) h
      (verifyTotp secret code) :=
  .perform_bind (requestCall_read rfl) (fun _ _ => .pure ⟨_, rfl⟩)

theorem verifyAndConsume_calls (codes : List BackupCodeRecord) (code : String) :
    Behaves handler I (RequestCall op) (fun h' r => ∃ t, h' = h ++ [⟨.now, t⟩] ∧
      r = consumeRecord (hashBackupCode code) t codes) h (verifyAndConsumeBackupCode codes code) :=
  .perform_bind (requestCall_read rfl) (fun _ _ => .pure ⟨_, rfl, rfl⟩)

theorem verify2faCodeOrBackup_calls {n : ℕ} {code : String} {request : Request} {user : UserId}
    {record : UserTwoFactorData} (hrecord : readFactor h user = some record)
    (hnow : firstNow h = none) (hfactors : ∀ e ∈ h, e.1.Avoids [.factors]) :
    Behaves handler I (RequestCall (.verifyTwoFactorChallenge n code request))
      (fun h' _ => h <+: h') h (AuthService.verify2faCodeOrBackup user record (strip code)) := by
  have hlonger {e : (c : Call) × c.Answer} : h <+: h ++ [e] := List.prefix_append h _
  refine .bind (decryptSecret_behaves _) (fun _ secret hsame => ?_)
  rw [hsame]
  refine .bind (verifyTotp_calls secret (strip code)) (fun _ valid ⟨t, ht⟩ => ?_)
  rw [ht]
  cases valid with
  | true =>
    have hfirst : firstNow (h ++ [⟨.now, t⟩]) = some t := by
      unfold firstNow at hnow ⊢
      rw [List.findSome?_append, hnow]
      rfl
    exact (recordTotpUse_calls (readFactor_extend hrecord hlonger) hfirst).mono
      (fun _ _ hc => hc) (fun _ _ hstarts => hlonger.trans hstarts)
  | false =>
    refine .bind (verifyAndConsume_calls record.backupCodes (strip code))
      (fun _ marked ⟨now, hh, hmarked⟩ => ?_)
    have hlonger' : h <+: h ++ [⟨.now, t⟩] ++ [⟨.now, now⟩] := hlonger.trans (List.prefix_append _ _)
    rw [hh]
    obtain ⟨validBackup, codes⟩ := marked
    cases validBackup with
    | false => exact .raise _
    | true =>
      have hother : ∀ e ∈ h ++ [⟨.now, t⟩] ++ [⟨.now, now⟩], e.1.Avoids [.factors] := by
        intro e he
        simp only [List.append_assoc, List.cons_append, List.nil_append, List.mem_append,
          List.mem_cons, List.not_mem_nil, or_false] at he
        rcases he with he | rfl | rfl
        · exact hfactors e he
        · simp [Call.Avoids, Call.area]
        · simp [Call.Avoids, Call.area]
      exact ⟨.markCode (readFactor_extend hrecord hlonger') hmarked.symm hother,
        fun _ _ => hlonger'.trans (List.prefix_append _ _)⟩

/-- The end of a verification: the challenge that was read is deleted. -/
theorem completeChallenge_calls {n : ℕ} {code : String} {request : Request} (user : UserId)
    {value : RedisValue} (hread : ⟨.redisGet (.twoFactorChallenge n), some value⟩ ∈ h) :
    Behaves handler I (RequestCall (.verifyTwoFactorChallenge n code request))
      (fun h' _ => ⟨.redisDelete (.twoFactorChallenge n), ()⟩ ∈ h') h
      (AuthService.completeChallenge n user request) := by
  refine .perform_bind (.consumeChallenge hread) (fun s _ => ?_)
  refine .perform_bind (requestCall_read rfl) (fun t _ => ?_)
  cases (handler (.selectUser (.id user)) t).1 with
  | none => exact .raise _
  | some data =>
    refine behaves_aside _ (AuthService.issueTokensAndSession_writes data request)
      (by simp [Op.areas]) (by simp) (fun h' hstarts _ => hstarts.subset ?_)
    simp [handler]

theorem verifyTwoFactorChallenge_calls (n : ℕ) (code : String) (request : Request) :
    Behaves handler I (RequestCall (.verifyTwoFactorChallenge n code request))
      (fun h' _ => ⟨.redisDelete (.twoFactorChallenge n), ()⟩ ∈ h') []
      (AuthService.verifyTwoFactorChallenge n code request) := by
  refine .perform_bind (requestCall_read rfl) (fun s _ => ?_)
  split
  case h_2 => exact .raise _
  case h_1 user hget =>
    rw [hget]
    refine .bind (requireEnabled_calls user) (fun _ record ⟨found, hh, hfound⟩ => ?_)
    subst hfound
    rw [hh]
    refine .bind (verify2faCodeOrBackup_calls ?_ rfl ?_) (fun _ _ hstarts => ?_)
    · simp [readFactor]
    · simp [Call.Avoids, Call.area]
    · have hread : ⟨.redisGet (.twoFactorChallenge n), some (.userId user)⟩ ∈
          ([] ++ [⟨.redisGet (.twoFactorChallenge n), some (.userId user)⟩] ++
            [⟨.selectTwoFactor user, some record⟩] : RequestTrace) := by simp
      exact completeChallenge_calls user (hstarts.subset hread)

/-- What each operation does along its trace. -/
theorem Op.program_calls (op : Op) :
    Behaves handler I (RequestCall op) (fun h _ => op.Concluded h) [] op.program := by
  cases op with
  | googleLogin => exact .bind googleLogin_calls (fun _ _ _ => trivial)
  | googleCallback state exchange request =>
    exact .bind (googleCallback_calls state exchange request) (fun _ _ _ => trivial)
  | authenticateUser username password request =>
    exact .bind (authenticateUser_calls username password request) (fun _ _ _ => trivial)
  | verifyTwoFactorChallenge n code request =>
    exact .bind (verifyTwoFactorChallenge_calls n code request) (fun _ _ hdelete => hdelete)
  | _ =>
    exact .of_makes (Op.program_writes _) (fun _ _ c hc => .aside hc (hc.avoids (by simp [areas]))
      (fun _ _ _ hverify => by cases hverify)) (fun _ _ _ => trivial)

end calls

/-! ## Pools -/

namespace RequestPool

variable {p : RequestPool}

def Behaving (p : RequestPool) : Prop :=
  ∀ th ∈ p.threads, Behaves handler (fun _ => True) (RequestCall th.tag)
    (fun h _ => th.tag.Concluded h) th.trace th.rest

theorem Behaving.step (h : Behaving p) (m : RequestMove) : Behaving (requests.step p m) := by
  refine requests.everyThread_step h (fun tag _ => tag.program_calls) ?_
  intro i th c next _ hrest hth
  exact hth.answered hrest trivial

theorem Behaving.call (h : Behaving p) {i : ℕ} {th : RequestThread} {c : Call}
    {next : c.Answer → App Response} (hth : p.threads[i]? = some th)
    (hrest : th.rest = .call c next) : RequestCall th.tag th.trace c := by
  have hbehaves := h th (List.mem_of_getElem? hth)
  rw [hrest] at hbehaves
  exact hbehaves.1

theorem Behaving.concluded (h : Behaving p) {th : RequestThread} (hth : th ∈ p.threads)
    {r : Response} (hresult : th.result = some r) : th.tag.Concluded th.trace := by
  have hbehaves := h th hth
  rw [Thread.result_eq_some.mp hresult] at hbehaves
  exact hbehaves

end RequestPool
end FastapiTemplate
