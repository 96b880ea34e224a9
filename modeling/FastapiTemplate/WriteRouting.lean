import FastapiTemplate.MethodCalls

/-!
# Which pool a statement is run on

`write`, `execute` and `transaction` use the write pool, `fetch` and `fetchval` a read
pool whenever one is configured. A method keeps its writes on the write pool exactly if
it hands none of them to a reading helper.
-/

namespace FastapiTemplate.Sql

def OnPrimary (db : DataBase) : DbOp → Prop
  | .statement conn q => q.isWrite → db.writePool = some conn.pool
  | _ => True

section combinators
variable {P : DbOp → Prop} {α β : Type}

theorem makes_ofExcept (r : Except DbError α) : (ofExcept r).Makes P := by
  cases r <;> trivial

/-- An operation whose error is raised, and what follows. -/
theorem makes_ask_bind {op : DbOp} {f : op.Answer → DbProgram α} (hop : P op)
    (hf : ∀ r, (f r).Makes P) : (ask op >>= f).Makes P := ⟨hop, hf⟩

theorem makes_withConnection {pool : PoolId} {body : Conn → DbProgram α} (hacquire : P (.acquire pool))
    (hrelease : ∀ id, P (.release ⟨pool, id⟩)) (hbody : ∀ id, (body ⟨pool, id⟩).Makes P) :
    (withConnection pool body).Makes P := by
  refine makes_ask_bind hacquire (fun r => (makes_ofExcept r).bind (fun id => ?_))
  exact (hbody id).tryFinally ((Program.makes_perform _).mpr (hrelease id))

theorem makes_runStatement {conn : Conn} {q : Query} (h : P (.statement conn q)) :
    (runStatement conn q).Makes P :=
  makes_ask_bind h makes_ofExcept

theorem makes_runStatements {conn : Conn} {qs : List Query}
    (h : ∀ q ∈ qs, P (.statement conn q)) : (runStatements conn qs).Makes P := by
  induction qs with
  | nil => trivial
  | cons q qs ih =>
    have hq := makes_runStatement (h q List.mem_cons_self)
    exact hq.bind (fun _ => ih (fun q' hq' => h q' (List.mem_cons_of_mem _ hq')))

theorem makes_retry {p : DbProgram α} (hattempt : P .attempt) (hp : p.Makes P) (n : ℕ) :
    (retry p n).Makes P := by
  induction n with
  | zero => exact ⟨hattempt, fun _ => hp⟩
  | succ n ih =>
    refine ⟨hattempt, fun _ => hp.handle (fun e => ?_)⟩
    by_cases hretried : e.retried = true
    · rw [if_pos hretried]
      exact ih
    · rw [if_neg hretried]
      trivial

theorem makes_setSession {ctx : RequestContext} {conn : Conn}
    (h : P (.setConfig conn ctx.settings false)) : (setSession ctx conn).Makes P := by
  refine makes_ask_bind h (fun r => ?_)
  cases r with
  | ok u => trivial
  | error e =>
    by_cases hdb : e.isDatabaseError = true
    · simp only [if_pos hdb]
      trivial
    · simp only [if_neg hdb]
      trivial

end combinators

section routing
variable {db : DataBase} {ctx : RequestContext} {P : DbOp → Prop} {α : Type}

/-- What follows the choice of the write pool is only run with this pool. -/
theorem makes_getPool_primary {f : PoolId × String → DbProgram α}
    (hf : ∀ pool region, db.writePool = some pool → (f (pool, region)).Makes P) :
    (getPool db ctx true >>= f).Makes P := by
  unfold getPool
  rw [if_pos rfl]
  cases hpool : db.writePool with
  | none => trivial
  | some pool => exact hf pool _ hpool

/-- Without a read pool the choice for reading falls back to the write pool. -/
theorem makes_getPool_read {f : PoolId × String → DbProgram α} (hchoice : ∀ n, P (.choice n))
    (hf : ∀ pool region, (db.HasReadPool ∨ db.writePool = some pool) →
      (f (pool, region)).Makes P) : (getPool db ctx false >>= f).Makes P := by
  cases hregion : db.chooseRegion ctx.clientRegion with
  | none =>
    unfold getPool selectReadPool
    rw [if_neg (by simp), hregion]
    cases hpool : db.writePool with
    | none => trivial
    | some pool => exact hf pool _ (.inr hpool)
  | some region =>
    have hread : db.HasReadPool := DataBase.hasReadPool_of_chooseRegion hregion
    rw [getPool_read hregion, Program.bind_assoc]
    refine makes_ask_bind (hchoice _) (fun k => ?_)
    cases (db.candidates region)[k]? with
    | none => trivial
    | some m => exact hf m.pool region (.inl hread)

theorem onPrimary_of_routed {q : Query} {pool : PoolId} {id : ℕ}
    (hrouted : q.isWrite → ¬ db.HasReadPool) (hpool : db.HasReadPool ∨ db.writePool = some pool) :
    OnPrimary db (.statement ⟨pool, id⟩ q) := by
  intro hwrite
  rcases hpool with hread | hprimary
  · exact absurd hread (hrouted hwrite)
  · exact hprimary

theorem makes_routed_statement {q : Query} {pool : PoolId} (hrouted : q.isWrite → ¬ db.HasReadPool)
    (hpool : db.HasReadPool ∨ db.writePool = some pool) :
    (withConnection pool (fun conn => runStatement conn q)).Makes (OnPrimary db) :=
  makes_withConnection trivial (fun _ => trivial)
    (fun _ => makes_runStatement (onPrimary_of_routed hrouted hpool))

theorem fetch_onPrimary {q : Query} {fetchRow logExplain : Bool}
    (hrouted : q.isWrite → ¬ db.HasReadPool) :
    (fetch db ctx q fetchRow logExplain).Makes (OnPrimary db) := by
  apply makes_retry trivial
  apply makes_getPool_read (fun _ => trivial)
  intro pool region hpool
  have hstatement := makes_routed_statement hrouted hpool
  cases logExplain with
  | false => exact hstatement.bind (fun _ => trivial)
  | true =>
    have hexplain : (withConnection pool (fun conn => ask (.explain conn q))).Makes (OnPrimary db) :=
      makes_withConnection trivial (fun _ => trivial) (fun id => makes_ask_bind trivial (fun _ => trivial))
    exact (Program.makes_attempt.mpr hexplain).bind (fun _ => hstatement.bind (fun _ => trivial))

theorem fetchval_onPrimary {q : Query} {column : ℕ} (hrouted : q.isWrite → ¬ db.HasReadPool) :
    (fetchval db ctx q none column false).Makes (OnPrimary db) := by
  apply makes_retry trivial
  unfold fetchvalExecutor
  rw [Program.bind_assoc]
  apply makes_getPool_read (fun _ => trivial)
  intro pool region hpool
  have hstatement := makes_routed_statement hrouted hpool
  exact hstatement.bind (fun _ => trivial)

/-- A write between setting the session and releasing the connection. -/
theorem makes_session_statement {q : Query} {pool : PoolId} (hpool : db.writePool = some pool) :
    (withConnection pool (fun conn => do
      setSession ctx conn
      runStatement conn q)).Makes (OnPrimary db) :=
  makes_withConnection trivial (fun _ => trivial) (fun _ =>
    (makes_setSession trivial).bind (fun _ => makes_runStatement (fun _ => hpool)))

theorem write_onPrimary (q : Query) : (write db ctx q).Makes (OnPrimary db) := by
  apply makes_retry trivial
  apply makes_getPool_primary
  intro pool region hpool
  exact (makes_session_statement hpool).bind (fun _ => trivial)

theorem execute_onPrimary (q : Query) : (execute db ctx q none).Makes (OnPrimary db) := by
  apply makes_retry trivial
  unfold executeTarget
  cases hpool : db.writePool with
  | none => trivial
  | some pool =>
    exact (makes_session_statement hpool).bind (fun _ => trivial)

theorem transaction_onPrimary (qs : List Query) :
    (transaction db ctx true (fun conn => runStatements conn qs)).Makes (OnPrimary db) := by
  refine makes_ask_bind trivial (fun _ => makes_getPool_primary ?_)
  intro pool region hpool
  apply makes_withConnection trivial (fun _ => trivial)
  intro id
  have hbody : (runStatements ⟨pool, id⟩ qs).Makes (OnPrimary db) :=
    makes_runStatements (fun q _ _ => hpool)
  refine makes_ask_bind trivial (fun r => (makes_ofExcept r).bind (fun _ => ?_))
  apply Program.Makes.bind
  · apply Program.Makes.handle
    · by_cases hsettings : ctx.settings ≠ .empty
      · rw [if_pos hsettings]
        exact makes_ask_bind trivial (fun _ => hbody)
      · rw [if_neg hsettings]
        exact hbody
    · exact fun e => makes_ask_bind trivial (fun _ => trivial)
  · exact fun _ => makes_ask_bind trivial (fun r => (makes_ofExcept r).bind (fun _ => trivial))

theorem program_onPrimary {c : HelperCall} (h : Routed (fun _ => ¬ db.HasReadPool) c) :
    (c.program db ctx).Makes (OnPrimary db) := by
  cases c with
  | fetch q fetchRow => exact fetch_onPrimary h
  | write q => exact write_onPrimary q
  | fetchval q => exact fetchval_onPrimary h
  | execute q => exact execute_onPrimary q
  | transaction qs => exact transaction_onPrimary qs

/-- A region is chosen, and one of its pools can be drawn. -/
theorem getPool_canReturn (hread : db.HasReadPool) :
    ∃ pool region, db.IsReadPool pool ∧ (getPool db ctx false).CanReturn (pool, region) := by
  obtain ⟨region, hregion⟩ : ∃ region, db.chooseRegion ctx.clientRegion = some region :=
    Option.isSome_iff_exists.mp (DataBase.chooseRegion_isSome_iff.mpr hread)
  obtain ⟨m, hm⟩ := List.exists_mem_of_ne_nil _ (DataBase.candidates_ne_nil hread region)
  obtain ⟨k, hk⟩ := List.getElem?_of_mem hm
  refine ⟨m.pool, region, DataBase.isReadPool_of_candidates hm, ?_⟩
  rw [getPool_read hregion]
  refine ⟨k, ?_⟩
  change Program.CanReturn _ ((db.candidates region)[k]?.elim (Program.raise .index)
    (fun m => (pure (m.pool, region) : DbProgram (PoolId × String))))
  rw [hk]
  rfl

theorem Makes.of_retry {p : DbProgram α} {n : ℕ} (h : (retry p n).Makes P) : p.Makes P := by
  cases n with
  | zero => exact h.2 ()
  | succ n => exact (h.2 ()).of_handle

/-- A reading helper that is handed a write runs it on a read pool, if there is one. -/
theorem not_onPrimary_read {q : Query} (hdistinct : db.Distinct) (hread : db.HasReadPool)
    (hwrite : q.isWrite) {f : PoolId × String → Reply → DbProgram α} :
    ¬ (getPool db ctx false >>= fun x =>
      withConnection x.1 (fun conn => runStatement conn q) >>= f x).Makes (OnPrimary db) := by
  intro h
  obtain ⟨pool, region, hpool, hreturn⟩ := @getPool_canReturn db ctx hread
  have hrest := (hreturn.makes h).of_bind
  have hstatement := (hrest.2 (.ok 0)).1
  exact hdistinct pool hpool (hstatement hwrite)

/-- The call hands a write to a reading helper. -/
def Misrouted (c : HelperCall) : Prop := ¬ Routed (fun _ => False) c

theorem not_program_onPrimary {c : HelperCall} (hdistinct : db.Distinct) (hread : db.HasReadPool)
    (h : Misrouted c) : ¬ (c.program db ctx).Makes (OnPrimary db) := by
  intro hc
  cases c with
  | fetch q fetchRow =>
    have hwrite : q.isWrite := by
      by_contra hw
      exact h (fun hw' => absurd hw' hw)
    exact not_onPrimary_read hdistinct hread hwrite (Makes.of_retry (n := 2) hc)
  | fetchval q =>
    have hwrite : q.isWrite := by
      by_contra hw
      exact h (fun hw' => absurd hw' hw)
    have hattempt := Makes.of_retry (n := 2) hc
    unfold fetchvalExecutor at hattempt
    rw [Program.bind_assoc] at hattempt
    exact not_onPrimary_read hdistinct hread hwrite hattempt
  | write q => exact h trivial
  | execute q => exact h trivial
  | transaction qs => exact h trivial

def StartsMisrouted : DaoProgram α → Prop
  | .call c _ => Misrouted c
  | _ => False

theorem not_onPrimary_of_starts {p : DaoProgram α} (hdistinct : db.Distinct)
    (hread : db.HasReadPool) (h : StartsMisrouted p) :
    ¬ (p.onConnections db ctx).Makes (OnPrimary db) := by
  intro hmakes
  cases p with
  | pure a => exact h
  | raise e => exact h
  | call c next =>
    exact not_program_onPrimary hdistinct hread h (Program.makes_attempt.mp hmakes.of_bind)

/-- A reading helper may find no rows. -/
theorem fetch_canReturn {q : Query} (hread : db.HasReadPool) :
    ((HelperCall.fetch q false).program db ctx).CanReturn [] := by
  obtain ⟨pool, region, -, hpool⟩ := @getPool_canReturn db ctx hread
  have hrows : (withConnection pool (fun conn => runStatement conn q) >>= fun reply =>
      (pure reply.rows : DbProgram (List Row))).CanReturn [] := ⟨.ok 0, .ok ⟨[], ""⟩, (), rfl⟩
  exact ⟨(), (hpool.bind hrows).handle⟩

end routing

/-! ## The methods -/

theorem UserDAO.Method.startsMisrouted {m : UserDAO.Method} {t : Table}
    (h : m.misroutes = some t) : StartsMisrouted m.program := by
  cases m with
  | deleteUsers userIds =>
    by_cases hids : userIds = []
    · simp [misroutes, hids] at h
    · simp only [program, UserDAO.deleteUsers, if_neg hids]
      exact fun hrouted => hrouted rfl
  | revokeUserSession => exact fun hrouted => hrouted rfl
  | revokeAllUserSessions => exact fun hrouted => hrouted rfl
  | _ => cases h

theorem RoleDAO.Method.startsMisrouted {m : RoleDAO.Method} {t : Table}
    (h : m.misroutes = some t) : StartsMisrouted m.program := by
  cases m with
  | deleteRoles roleIds =>
    by_cases hids : roleIds = []
    · simp [misroutes, hids] at h
    · simp only [program, RoleDAO.deleteRoles, if_neg hids]
      exact fun hrouted => hrouted rfl
  | _ => cases h

theorem DeadLetterTaskDAO.Method.startsMisrouted {m : DeadLetterTaskDAO.Method} {t : Table}
    (h : m.misroutes = some t) : StartsMisrouted m.program := by
  cases m with
  | fetchAndDeleteTasks taskIds taskName =>
    simp only [program, DeadLetterTaskDAO.fetchAndDeleteTasks]
    by_cases hids : taskIds = []
    · rw [if_neg (not_not.mpr hids)]
      cases nonEmpty taskName <;> exact fun hrouted => hrouted rfl
    · rw [if_pos hids]
      exact fun hrouted => hrouted rfl
  | _ => cases h

theorem PeriodicTaskDAO.Method.startsMisrouted {m : PeriodicTaskDAO.Method} {t : Table}
    (h : m.misroutes = some t) : StartsMisrouted m.program := by
  cases m with
  | deleteTasks taskIds =>
    by_cases hids : taskIds = []
    · simp [misroutes, hids] at h
    · simp only [program, PeriodicTaskDAO.deleteTasks, if_neg hids]
      exact fun hrouted => hrouted rfl
  | createTask => exact fun hrouted => hrouted rfl
  | updateTask => exact fun hrouted => hrouted rfl
  | deleteTask => exact fun hrouted => hrouted rfl
  | _ => cases h

theorem VersionDAO.Method.startsMisrouted {m : VersionDAO.Method} {t : Table}
    (h : m.misroutes = some t) : StartsMisrouted m.program := by
  cases m with
  | deleteVersions platforms =>
    by_cases hplatforms : platforms = []
    · simp [misroutes, hplatforms] at h
    · simp only [program, VersionDAO.deleteVersions, if_neg hplatforms]
      exact fun hrouted => hrouted rfl
  | _ => cases h

theorem WebhookDAO.Method.startsMisrouted {m : WebhookDAO.Method} {t : Table}
    (h : m.misroutes = some t) : StartsMisrouted m.program := by
  cases m with
  | deleteEndpoints endpointIds =>
    by_cases hids : endpointIds = []
    · simp [misroutes, hids] at h
    · simp only [program, WebhookDAO.deleteEndpoints, if_neg hids]
      exact fun hrouted => hrouted rfl
  | _ => cases h

section methods
variable {db : DataBase} {ctx : RequestContext}

/-- The keys are read before they are deleted, so the misrouted call is the second one. -/
theorem ApiKeyDAO.Method.not_onPrimary {m : ApiKeyDAO.Method} {t : Table}
    (hdistinct : db.Distinct) (hread : db.HasReadPool) (h : m.misroutes = some t) :
    ¬ (m.program.onConnections db ctx).Makes (OnPrimary db) := by
  cases m with
  | deleteApiKeys keyIds =>
    by_cases hids : keyIds = []
    · simp [misroutes, hids] at h
    · simp only [program, ApiKeyDAO.deleteApiKeys, if_neg hids]
      intro hmakes
      have hrest := fetch_canReturn hread |>.attempt.makes hmakes
      refine not_onPrimary_of_starts hdistinct hread ?_ hrest
      exact fun hrouted => hrouted rfl
  | _ => cases h

theorem DaoMethod.not_onPrimary {m : DaoMethod} {t : Table} (hdistinct : db.Distinct)
    (hread : db.HasReadPool) (h : m.misroutes = some t) :
    ¬ (m.program.onConnections db ctx).Makes (OnPrimary db) := by
  cases m with
  | user m => exact not_onPrimary_of_starts hdistinct hread (m.startsMisrouted h)
  | role m => exact not_onPrimary_of_starts hdistinct hread (m.startsMisrouted h)
  | deadLetterTask m => exact not_onPrimary_of_starts hdistinct hread (m.startsMisrouted h)
  | periodicTask m => exact not_onPrimary_of_starts hdistinct hread (m.startsMisrouted h)
  | version m => exact not_onPrimary_of_starts hdistinct hread (m.startsMisrouted h)
  | apiKey m => exact m.not_onPrimary hdistinct hread h
  | webhook m => exact not_onPrimary_of_starts hdistinct hread (m.startsMisrouted h)

/-- A method runs its writes on the write pool exactly if it misroutes none of them, or no
read pool is configured. -/
theorem DaoMethod.writesOnPrimary_iff (m : DaoMethod) (hdistinct : db.Distinct) :
    (m.program.onConnections db ctx).Makes (OnPrimary db) ↔
      m.misroutes = none ∨ ¬ db.HasReadPool := by
  constructor
  · intro hmakes
    by_contra hnot
    obtain ⟨hsome, hread⟩ := not_or.mp hnot
    obtain ⟨t, ht⟩ := Option.ne_none_iff_exists'.mp hsome
    exact m.not_onPrimary hdistinct (not_not.mp hread) ht hmakes
  · intro h
    have hrouted : m.program.Makes (Routed (fun _ => ¬ db.HasReadPool)) := by
      apply m.routed_iff.mpr
      intro t ht
      rcases h with hnone | hread
      · rw [hnone] at ht
        cases ht
      · exact hread
    exact hrouted.expand (fun c hc => Program.makes_attempt.mpr (program_onPrimary hc))

end methods

theorem replicated_distinct : replicated.Distinct := by
  rintro pool ⟨entry, hentry, m, hm, rfl⟩
  cases List.mem_singleton.mp hentry
  cases List.mem_singleton.mp hm
  decide

theorem writesOnPrimary_iff_replicated : replicated.Distinct ∧
    ((DaoMethod.user (.updatePassword "u1" "hash")).program.onConnections replicated
      anonymous).Makes (OnPrimary replicated) := by
  refine ⟨replicated_distinct, ?_⟩
  apply (DaoMethod.writesOnPrimary_iff _ replicated_distinct).mpr
  exact .inl rfl

/-- The sessions of a user are deleted on the replica. -/
theorem not_writesOnPrimary : ¬ ∀ (db : DataBase) (ctx : RequestContext) (m : DaoMethod),
    db.Distinct → (m.program.onConnections db ctx).Makes (OnPrimary db) := by
  intro h
  have hmakes := h replicated anonymous (.user (.revokeAllUserSessions "u1")) replicated_distinct
  have hread : replicated.HasReadPool := ⟨("eu", [⟨1, true, none⟩]), by decide, by decide⟩
  exact DaoMethod.not_onPrimary replicated_distinct hread rfl hmakes

end FastapiTemplate.Sql
