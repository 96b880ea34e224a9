import FastapiTemplate.MigrationRuns
import FastapiTemplate.ProgramProtocol
import Mathlib.Data.List.Induction

/-!
# Processes that migrate at once

Processes run `apply_migrations` up against one database, in any interleaving of their statements.
Nothing keeps a process from running a file that another one has run since it read the table: the
record is an upsert. What holds without a lock is proved for every run.
-/

namespace FastapiTemplate.Migrations

abbrev MigrateTrace := CallTrace MigrateCall MigrateCall.Answer

structure Deployment where
  steps : Option ℤ
  dryRun : Bool
  target : Option String

abbrev DeploymentPool :=
  Pool MigrateCall MigrateCall.Answer MigrateError (List String) Deployment Session

abbrev DeploymentMove := PoolMove Deployment Empty

section system
variable (computeChecksum : String → String) (dir : MigrationsDir)

def deployments :
    PoolSystem MigrateCall MigrateCall.Answer MigrateError (List String) Deployment Empty Session where
  handler := handler computeChecksum dir
  environment e _ := e.elim
  program d := applyMigrations computeChecksum dir "up" d.steps d.dryRun d.target

end system

def MigrateCall.script? : MigrateCall → Option String
  | .runMigration filename _ => some filename
  | _ => none

section commits
variable (computeChecksum : String → String) (dir : MigrationsDir)

def commit? (p : DeploymentPool) (m : DeploymentMove) : Option (ℕ × String) :=
  match m with
  | .advance i =>
    if p.state.database.log.length <
        ((deployments computeChecksum dir).step p m).state.database.log.length then
      ((p.threads[i]?.bind (·.nextCall)).bind MigrateCall.script?).map (fun f => (i, f))
    else none
  | _ => none

def commits (p : DeploymentPool) : List DeploymentMove → List (ℕ × String)
  | [] => []
  | m :: ms => (commit? computeChecksum dir p m).toList ++
      commits ((deployments computeChecksum dir).step p m) ms

theorem commits_concat (p : DeploymentPool) (ms : List DeploymentMove) (m : DeploymentMove) :
    commits computeChecksum dir p (ms ++ [m]) = commits computeChecksum dir p ms ++
      (commit? computeChecksum dir (run (deployments computeChecksum dir).step p ms) m).toList := by
  induction ms generalizing p with
  | nil => simp [commits, run]
  | cons n ms ih =>
    rw [List.cons_append, commits, commits, ih, List.append_assoc]
    rfl

end commits

/-! ## What a process does along its trace -/

def readIn (x : (c : MigrateCall) × c.Answer) : Option (List String) :=
  match x with
  | ⟨.getAppliedMigrations, .ok applied⟩ => some applied
  | _ => none

def acknowledgedIn (x : (c : MigrateCall) × c.Answer) : Option String :=
  match x with
  | ⟨.runMigration filename _, .ok _⟩ => some filename
  | _ => none

def readVersions (trace : MigrateTrace) : Option (List String) := trace.findSome? readIn

def attempts (trace : MigrateTrace) : List String := trace.filterMap (fun x => x.1.script?)

def acknowledged (trace : MigrateTrace) : List String := trace.filterMap acknowledgedIn

theorem acknowledgedIn_script {c : MigrateCall} {a : c.Answer} {v : String}
    (h : acknowledgedIn ⟨c, a⟩ = some v) : c.script? = some v := by
  unfold acknowledgedIn at h
  split at h
  · next heq =>
    cases heq
    exact h
  · cases h

theorem readIn_eq_some {x : (c : MigrateCall) × c.Answer} {applied : List String}
    (h : readIn x = some applied) : x = ⟨.getAppliedMigrations, .ok applied⟩ := by
  unfold readIn at h
  split at h
  · cases h
    rfl
  · cases h

section concat
variable {trace : MigrateTrace} {x : (c : MigrateCall) × c.Answer}

theorem readVersions_concat : readVersions (trace ++ [x]) = (readVersions trace).or (readIn x) := by
  simp [readVersions, List.findSome?_append]

theorem attempts_concat : attempts (trace ++ [x]) = attempts trace ++ x.1.script?.toList := by
  simp only [attempts, List.filterMap_append]
  cases h : x.1.script? <;> simp [h]

theorem acknowledged_concat :
    acknowledged (trace ++ [x]) = acknowledged trace ++ (acknowledgedIn x).toList := by
  simp only [acknowledged, List.filterMap_append]
  cases h : acknowledgedIn x <;> simp [h]

end concat

/-- A process reads once, and then sends each script at most once, and only scripts of files that it
has not read as applied; it records what it knows to be committed. -/
def deploymentProtocol : Protocol MigrateCall MigrateCall.Answer MigrateTrace where
  permits trace
    | .getAppliedMigrations => trace = []
    | .getAppliedMigrationRecords => True
    | .runMigration filename direction => direction = "up" ∧ filename ∉ attempts trace ∧
        ∃ applied, readVersions trace = some applied ∧ filename ∉ applied
    | .recordMigration version .. => version ∈ acknowledged trace
    | .removeMigrationRecord _ => False
  after trace c answer := trace ++ [⟨c, answer⟩]
  possible _ _ := True

/-- The program follows the protocol from a trace on, and returns after traces as asserted. -/
abbrev Deploys {α : Type} (Post : α → MigrateTrace → Prop) (trace : MigrateTrace)
    (p : MigrateProgram α) : Prop :=
  deploymentProtocol.Follows Post (fun _ _ => True) trace p

section protocol
variable {α : Type} {trace : MigrateTrace} {computeChecksum : String → String} {dir : MigrationsDir}

theorem deploys_ask {c : MigrateCall} (h : deploymentProtocol.permits trace c) :
    Deploys (fun a t => t = trace ++ [⟨c, .ok a⟩]) trace (ask c) := by
  apply Protocol.Follows.perform_bind h
  intro answer _
  cases answer with
  | ok a => exact Protocol.Follows.pure rfl
  | error e => exact Protocol.Follows.raise trivial

theorem deploys_ofExcept {r : Except MigrateError α} :
    Deploys (fun a t => r = .ok a ∧ t = trace) trace (Program.ofExcept r) := by
  cases r with
  | ok a => exact Protocol.Follows.pure ⟨rfl, rfl⟩
  | error e => exact Protocol.Follows.raise trivial

def MayRun (rest : List String) (trace : MigrateTrace) : Prop :=
  rest.Nodup ∧ (∀ f ∈ rest, f ∉ attempts trace) ∧
    ∃ applied, readVersions trace = some applied ∧ ∀ f ∈ rest, f ∉ applied

theorem MayRun.tail {f : String} {rest : List String} (h : MayRun (f :: rest) trace) :
    MayRun rest trace := by
  obtain ⟨hnodup, hnew, applied, hread, hnot⟩ := h
  exact ⟨(List.nodup_cons.mp hnodup).2, fun g hg => hnew g (List.mem_cons_of_mem f hg), applied, hread,
    fun g hg => hnot g (List.mem_cons_of_mem f hg)⟩

theorem deploys_processMigration {f : String} {rest : List String} (h : MayRun (f :: rest) trace) :
    Deploys (fun _ t => MayRun rest t) trace (processMigration computeChecksum dir "up" f) := by
  obtain ⟨hnodup, hnew, applied, hread, hnot⟩ := h
  have hrun : deploymentProtocol.permits trace (.runMigration f "up") :=
    ⟨rfl, hnew f List.mem_cons_self, applied, hread, hnot f List.mem_cons_self⟩
  apply (deploys_ask hrun).bind
  rintro u _ rfl
  rw [if_pos rfl]
  have hrecord : deploymentProtocol.permits (trace ++ [⟨.runMigration f "up", .ok u⟩])
      (.recordMigration f ((dir.content? f).map computeChecksum) none) := by
    change f ∈ acknowledged _
    rw [acknowledged_concat]
    exact List.mem_append_right _ List.mem_cons_self
  apply (deploys_ask hrecord).mono
  · rintro v _ rfl
    refine ⟨(List.nodup_cons.mp hnodup).2, fun g hg hmem => ?_, applied, ?_, fun g hg => ?_⟩
    · rw [attempts_concat, attempts_concat] at hmem
      simp only [MigrateCall.script?, Option.toList_some, Option.toList_none, List.append_nil,
        List.mem_append, List.mem_singleton] at hmem
      rcases hmem with hmem | rfl
      · exact hnew g (List.mem_cons_of_mem f hg) hmem
      · exact (List.nodup_cons.mp hnodup).1 hg
    · rw [readVersions_concat, readVersions_concat, hread]
      rfl
    · exact hnot g (List.mem_cons_of_mem f hg)
  · exact fun _ _ _ => trivial

theorem deploys_processMigrations (dryRun : Bool) {selected : List String}
    (h : MayRun selected trace) :
    Deploys (fun _ _ => True) trace
      (processMigrations computeChecksum dir "up" dryRun selected) := by
  induction selected generalizing trace with
  | nil => exact Protocol.Follows.pure trivial
  | cons f rest ih =>
    have hrest (t : MigrateTrace) (ht : MayRun rest t) : Deploys (fun _ _ => True) t
        (processMigrations computeChecksum dir "up" dryRun rest >>= fun processed =>
          pure (f :: processed)) := by
      apply (ih ht).bind
      intro processed t' _
      exact Protocol.Follows.pure trivial
    cases dryRun with
    | true => exact hrest trace h.tail
    | false =>
      apply (deploys_processMigration h).bind
      intro u t ht
      exact hrest t ht

theorem deploys_applyMigrations (d : Deployment) :
    Deploys (fun _ _ => True) []
      (applyMigrations computeChecksum dir "up" d.steps d.dryRun d.target) := by
  have hfirst : deploymentProtocol.permits [] .getAppliedMigrations := rfl
  apply (deploys_ask hfirst).bind
  rintro applied _ rfl
  have hsecond : deploymentProtocol.permits [⟨.getAppliedMigrations, .ok applied⟩]
      .getAppliedMigrationRecords := trivial
  apply (deploys_ask hsecond).bind
  rintro records _ rfl
  apply deploys_ofExcept.bind
  rintro _ _ ⟨-, rfl⟩
  rw [if_pos rfl]
  apply deploys_ofExcept.bind
  rintro selected _ ⟨hselected, rfl⟩
  cases selected with
  | none => exact Protocol.Follows.pure trivial
  | some selected =>
    have hpending := selectUpMigrations_first hselected
    apply deploys_processMigrations
    refine ⟨((sorted_nodup dir).filter _).sublist hpending.sublist, fun f _ => ?_, applied, rfl, ?_⟩
    · exact List.not_mem_nil
    · intro f hf
      simpa using (List.mem_filter.mp (hpending.subset hf)).2

end protocol

/-! ## What a call does to the table -/

structure Commits (f : String) (before after : Database) : Prop where
  log : after.log.length = before.log.length + 1
  versions : ∀ v, v ∈ after.versions ↔ v = f ∨ v ∈ before.versions

structure Keeps (before after : Database) : Prop where
  log : after.log.length = before.log.length
  versions : ∀ v, v ∈ after.versions ↔ v ∈ before.versions

section calls
variable {computeChecksum : String → String} {dir : MigrationsDir} {trace : MigrateTrace}

theorem Keeps.refl (db : Database) : Keeps db db := ⟨rfl, fun _ => Iff.rfl⟩

theorem effect_runMigration_up (db : Database) (f : String) :
    if (sqlToExecute dir f "up").isOk then
      Commits f db (effect computeChecksum dir db (.runMigration f "up"))
    else effect computeChecksum dir db (.runMigration f "up") = db := by
  split_ifs with hok
  · rw [effect, if_pos hok, if_pos rfl]
    constructor
    · change (db.log ++ [_]).length = _
      rw [List.length_append, List.length_singleton]
    · intro v
      exact Database.mem_upsert_versions
  · rw [effect, if_neg hok]

/-- A call keeps what its effect keeps, whether it takes effect or not. -/
theorem handler_keeps {c : MigrateCall} {s : Session}
    (h : Keeps s.database (effect computeChecksum dir s.database c)) :
    Keeps s.database (handler computeChecksum dir c s).2.database := by
  rcases @handler_database computeChecksum dir c s with hsame | heffect
  · rw [hsame]
    exact Keeps.refl _
  · rw [heffect]
    exact h

/-- A permitted call commits its script, or leaves the versions as they are; a script that is
acknowledged has been committed. -/
theorem handler_permitted {c : MigrateCall} {s : Session}
    (hpermits : deploymentProtocol.permits trace c)
    (hknown : ∀ v ∈ acknowledged trace, v ∈ s.database.versions) :
    (∃ f, c.script? = some f ∧
        Commits f s.database (handler computeChecksum dir c s).2.database) ∨
      (Keeps s.database (handler computeChecksum dir c s).2.database ∧
        acknowledgedIn ⟨c, (handler computeChecksum dir c s).1⟩ = none) := by
  cases c with
  | getAppliedMigrations => exact .inr ⟨handler_keeps (Keeps.refl _), rfl⟩
  | getAppliedMigrationRecords => exact .inr ⟨handler_keeps (Keeps.refl _), rfl⟩
  | removeMigrationRecord version => exact hpermits.elim
  | recordMigration version checksum executionTimeMs =>
    have hkeeps : Keeps s.database
        (effect computeChecksum dir s.database
          (.recordMigration version checksum executionTimeMs)) := by
      refine ⟨rfl, fun v => ?_⟩
      rw [effect, Database.mem_upsert_versions]
      have hversion := hknown version hpermits
      constructor
      · rintro (rfl | hv)
        · exact hversion
        · exact hv
      · exact .inr
    exact .inr ⟨handler_keeps hkeeps, rfl⟩
  | runMigration f direction =>
    obtain ⟨rfl, -⟩ := hpermits
    have heffect := @effect_runMigration_up computeChecksum dir s.database f
    by_cases hok : (sqlToExecute dir f "up").isOk = true
    · rw [if_pos hok] at heffect
      unfold handler
      split
      · exact .inl ⟨f, rfl, heffect⟩
      · exact .inl ⟨f, rfl, heffect⟩
      · exact .inr ⟨Keeps.refl _, rfl⟩
      · exact .inl ⟨f, rfl, heffect⟩
    · rw [if_neg hok] at heffect
      right
      constructor
      · apply handler_keeps
        rw [heffect]
        exact Keeps.refl _
      · cases hanswer : (handler computeChecksum dir (.runMigration f "up") s).1 with
        | error e => rfl
        | ok u =>
          obtain ⟨hresult, -⟩ := handler_ok hanswer
          cases hsql : sqlToExecute dir f "up" with
          | ok sql => exact absurd (by rw [hsql]; rfl) hok
          | error e =>
            rw [result, hsql] at hresult
            cases hresult

end calls

/-! ## Runs -/

section runs
variable {computeChecksum : String → String} {dir : MigrationsDir} {p : DeploymentPool}

def Follow (p : DeploymentPool) : Prop :=
  ∀ th ∈ p.threads, Deploys (fun _ _ => True) th.trace th.rest

def KnownRecorded (p : DeploymentPool) : Prop :=
  ∀ th ∈ p.threads, ∀ v ∈ acknowledged th.trace, v ∈ p.state.database.versions

def Sends (p : DeploymentPool) (i : ℕ) (f : String) : Prop :=
  ∃ th c next, p.threads[i]? = some th ∧ th.rest = .call c next ∧ c.script? = some f ∧
    deploymentProtocol.permits th.trace c

theorem follow_step (h : Follow p) (m : DeploymentMove) :
    Follow ((deployments computeChecksum dir).step p m) := by
  apply (deployments computeChecksum dir).everyThread_step h
  · exact fun d _ => deploys_applyMigrations d
  · intro i th c next _ hrest hth
    exact (Protocol.Follows.answered hth hrest trivial).2

theorem commit?_idle {m : DeploymentMove}
    (h : ((deployments computeChecksum dir).step p m).state.database.log.length =
      p.state.database.log.length) : commit? computeChecksum dir p m = none := by
  cases m with
  | spawn d => rfl
  | environment e => exact e.elim
  | advance i => simp [commit?, h]

theorem commit?_advance {i : ℕ} {th : Thread MigrateCall MigrateCall.Answer MigrateError (List String) Deployment}
    {c : MigrateCall} {f : String} (hth : p.threads[i]? = some th) (hcall : th.nextCall = some c)
    (hf : c.script? = some f) (hlog : p.state.database.log.length <
      ((deployments computeChecksum dir).step p (.advance i)).state.database.log.length) :
    commit? computeChecksum dir p (.advance i) = some (i, f) := by
  rw [commit?, if_pos hlog, hth, Option.bind_some, hcall, Option.bind_some, hf]
  rfl

/-- A move commits the script that a process sends, or keeps the versions. -/
theorem commit?_cases (hfollow : Follow p) (hknown : KnownRecorded p) (m : DeploymentMove) :
    (∃ i f, m = .advance i ∧ commit? computeChecksum dir p m = some (i, f) ∧ Sends p i f ∧
      Commits f p.state.database ((deployments computeChecksum dir).step p m).state.database) ∨
    (commit? computeChecksum dir p m = none ∧
      Keeps p.state.database ((deployments computeChecksum dir).step p m).state.database) := by
  have hcase := (deployments computeChecksum dir).step_cases p m
  generalize hq : (deployments computeChecksum dir).step p m = q at hcase
  have hidle (hkeeps : Keeps p.state.database q.state.database) :
      commit? computeChecksum dir p m = none ∧ Keeps p.state.database q.state.database :=
    ⟨commit?_idle (hq ▸ hkeeps.log), hkeeps⟩
  cases hcase with
  | spawn d => exact .inr (hidle (Keeps.refl _))
  | environment e => exact e.elim
  | idle i => exact .inr (hidle (Keeps.refl _))
  | @call i th c next hth hrest =>
    have hmem := List.mem_of_getElem? hth
    have hpermits := (Protocol.Follows.answered (hfollow th hmem) hrest
      (r := (handler computeChecksum dir c p.state).1) trivial).1
    rcases @handler_permitted computeChecksum dir _ _ _ hpermits (hknown th hmem) with
      ⟨f, hf, hcommits⟩ | ⟨hkeeps, -⟩
    · left
      refine ⟨i, f, rfl, ?_, ⟨th, c, next, hth, hrest, hf, hpermits⟩, hcommits⟩
      apply commit?_advance hth (Thread.nextCall_of_rest hrest) hf
      rw [hq]
      exact hcommits.log ▸ Nat.lt_succ_self _
    · exact .inr (hidle hkeeps)

/-- Versions are never removed. -/
theorem versions_step (hfollow : Follow p) (hknown : KnownRecorded p) (m : DeploymentMove) {v : String}
    (hv : v ∈ p.state.database.versions) :
    v ∈ ((deployments computeChecksum dir).step p m).state.database.versions := by
  rcases @commit?_cases computeChecksum dir p hfollow hknown m with ⟨i, f, -, -, -, h⟩ | ⟨-, h⟩
  · exact (h.versions v).mpr (.inr hv)
  · exact (h.versions v).mpr hv

theorem knownRecorded_step (hfollow : Follow p) (hknown : KnownRecorded p) (m : DeploymentMove) :
    KnownRecorded ((deployments computeChecksum dir).step p m) := by
  intro th' hmem v hv
  obtain ⟨i, hi⟩ := List.getElem?_of_mem hmem
  rcases (deployments computeChecksum dir).step_thread hi with
    hold | ⟨d, -, -, rfl⟩ | ⟨th, c, next, rfl, hth, hrest, rfl⟩
  · exact versions_step hfollow hknown m (hknown th' (List.mem_of_getElem? hold) v hv)
  · exact absurd hv List.not_mem_nil
  · have hthread := List.mem_of_getElem? hth
    have hpermits := (Protocol.Follows.answered (hfollow th hthread) hrest
      (r := (handler computeChecksum dir c p.state).1) trivial).1
    rw [Thread.answered, acknowledged_concat, List.mem_append] at hv
    rcases hv with hv | hv
    · exact versions_step hfollow hknown _ (hknown th hthread v hv)
    · rw [Option.mem_toList] at hv
      change acknowledgedIn ⟨c, (handler computeChecksum dir c p.state).1⟩ = some v at hv
      rw [(deployments computeChecksum dir).step_advance hth hrest]
      rcases @handler_permitted computeChecksum dir _ _ _ hpermits (hknown th hthread) with
        ⟨f, hf, hcommits⟩ | ⟨-, hnone⟩
      · apply (hcommits.versions v).mpr
        rw [acknowledgedIn_script hv] at hf
        exact .inl (Option.some.inj hf)
      · rw [hnone] at hv
        cases hv

/-- Before the last of these moves, process `i` read the table with these versions applied. -/
def ReadAt (computeChecksum : String → String) (dir : MigrationsDir) (start : DeploymentPool)
    (ms : List DeploymentMove) (i : ℕ) (applied : List String) : Prop :=
  ∃ before after, ms = before ++ .advance i :: after ∧
    (∃ th, (run (deployments computeChecksum dir).step start before).threads[i]? = some th ∧
      th.nextCall = some .getAppliedMigrations) ∧
    ∀ v, v ∈ applied ↔
      v ∈ (run (deployments computeChecksum dir).step start before).state.database.versions

theorem ReadAt.later {start : DeploymentPool} {ms : List DeploymentMove} {i : ℕ}
    {applied : List String} (h : ReadAt computeChecksum dir start ms i applied) (m : DeploymentMove) :
    ReadAt computeChecksum dir start (ms ++ [m]) i applied := by
  obtain ⟨before, after, rfl, hreads⟩ := h
  exact ⟨before, after ++ [m], by simp, hreads⟩

structure Deploying (computeChecksum : String → String) (dir : MigrationsDir) (start : DeploymentPool)
    (ms : List DeploymentMove) (now : DeploymentPool) : Prop where
  follow : Follow now
  known : KnownRecorded now
  read : ∀ (i : ℕ) th applied, now.threads[i]? = some th → readVersions th.trace = some applied →
    ReadAt computeChecksum dir start ms i applied
  attempted : ∀ i f, (i, f) ∈ commits computeChecksum dir start ms →
    ∃ th, now.threads[i]? = some th ∧ f ∈ attempts th.trace
  once : (commits computeChecksum dir start ms).Nodup
  versions : ∀ v, v ∈ now.state.database.versions ↔ v ∈ start.state.database.versions ∨
    ∃ i, (i, v) ∈ commits computeChecksum dir start ms

section step
variable {start : DeploymentPool} {ms : List DeploymentMove} {m : DeploymentMove}

theorem Deploying.read_step (h : Deploying computeChecksum dir start ms p)
    (hp : run (deployments computeChecksum dir).step start ms = p) {i : ℕ}
    {th' : Thread MigrateCall MigrateCall.Answer MigrateError (List String) Deployment}
    {applied : List String}
    (hi : ((deployments computeChecksum dir).step p m).threads[i]? = some th')
    (hread : readVersions th'.trace = some applied) :
    ReadAt computeChecksum dir start (ms ++ [m]) i applied := by
  rcases (deployments computeChecksum dir).step_thread hi with
    hold | ⟨d, -, -, rfl⟩ | ⟨th, c, next, rfl, hth, hrest, rfl⟩
  · exact (h.read i th' applied hold hread).later m
  · cases hread
  · rw [Thread.answered, readVersions_concat] at hread
    cases hbefore : readVersions th.trace with
    | some applied' =>
      rw [hbefore] at hread
      cases hread
      exact (h.read i th applied hth hbefore).later _
    | none =>
      rw [hbefore, Option.none_or] at hread
      have hcall := readIn_eq_some hread
      obtain ⟨rfl, hanswer⟩ := Sigma.mk.inj hcall
      have hresult := (handler_ok (eq_of_heq hanswer)).1
      cases hresult
      refine ⟨ms, [], rfl, ⟨th, hp ▸ hth, Thread.nextCall_of_rest hrest⟩, fun v => ?_⟩
      rw [hp]
      exact List.mem_insertionSort _

/-- A script that a process has committed stays among those that it has attempted. -/
theorem Deploying.attempted_later (h : Deploying computeChecksum dir start ms p)
    (m : DeploymentMove) {i : ℕ} {f : String} (hmem : (i, f) ∈ commits computeChecksum dir start ms) :
    ∃ th, ((deployments computeChecksum dir).step p m).threads[i]? = some th ∧
      f ∈ attempts th.trace := by
  obtain ⟨th, hth, hf⟩ := h.attempted i f hmem
  obtain ⟨th', hth', hmoves⟩ := (deployments computeChecksum dir).step_getElem? hth m
  exact ⟨th', hth', (hmoves.trace_prefix.sublist.filterMap _).subset hf⟩

/-- A script that a process has not attempted is none of its commits. -/
theorem Deploying.once_concat (h : Deploying computeChecksum dir start ms p) {i : ℕ} {f : String}
    {th : Thread MigrateCall MigrateCall.Answer MigrateError (List String) Deployment}
    (hth : p.threads[i]? = some th) (hnew : f ∉ attempts th.trace) :
    (commits computeChecksum dir start ms ++ [(i, f)]).Nodup := by
  apply List.Nodup.append h.once (List.nodup_singleton _)
  rw [List.disjoint_singleton]
  intro hmem
  obtain ⟨th', hth', hf'⟩ := h.attempted i f hmem
  rw [hth] at hth'
  cases hth'
  exact hnew hf'

theorem Deploying.step (h : Deploying computeChecksum dir start ms p)
    (hp : run (deployments computeChecksum dir).step start ms = p) (m : DeploymentMove) :
    Deploying computeChecksum dir start (ms ++ [m]) ((deployments computeChecksum dir).step p m) := by
  have hcommits := commits_concat computeChecksum dir start ms m
  rw [hp] at hcommits
  rcases @commit?_cases computeChecksum dir p h.follow h.known m with
    ⟨i, f, rfl, hcommit, ⟨th, c, next, hth, hrest, hf, hpermits⟩, hdone⟩ | ⟨hnone, hkeeps⟩
  · -- the script was not attempted before by this process
    have hnew : f ∉ attempts th.trace := by
      cases c with
      | runMigration g direction =>
        cases hf
        exact hpermits.2.1
      | _ => cases hf
    rw [hcommit] at hcommits
    constructor
    · exact follow_step h.follow _
    · exact knownRecorded_step h.follow h.known _
    · exact fun j th' applied => h.read_step hp
    · intro j g hmem
      rw [hcommits, List.mem_append] at hmem
      rcases hmem with hmem | hmem
      · exact h.attempted_later _ hmem
      · cases List.mem_singleton.mp hmem
        obtain ⟨hlt, -⟩ := List.getElem?_eq_some_iff.mp hth
        rw [(deployments computeChecksum dir).step_advance hth hrest]
        refine ⟨_, List.getElem?_set_self hlt, ?_⟩
        rw [Thread.answered, attempts_concat, hf]
        exact List.mem_append_right _ List.mem_cons_self
    · rw [hcommits]
      exact h.once_concat hth hnew
    · intro v
      rw [hdone.versions v, h.versions v, hcommits]
      simp only [Option.toList_some, List.mem_append, List.mem_singleton, Prod.mk.injEq]
      constructor
      · rintro (rfl | hv | ⟨j, hj⟩)
        · exact .inr ⟨i, .inr ⟨rfl, rfl⟩⟩
        · exact .inl hv
        · exact .inr ⟨j, .inl hj⟩
      · rintro (hv | ⟨j, hj | ⟨-, rfl⟩⟩)
        · exact .inr (.inl hv)
        · exact .inr (.inr ⟨j, hj⟩)
        · exact .inl rfl
  · rw [hnone, Option.toList_none, List.append_nil] at hcommits
    constructor
    · exact follow_step h.follow _
    · exact knownRecorded_step h.follow h.known _
    · exact fun j th' applied => h.read_step hp
    · rw [hcommits]
      exact fun i f hmem => h.attempted_later m hmem
    · rw [hcommits]
      exact h.once
    · intro v
      rw [hcommits, hkeeps.versions v]
      exact h.versions v

end step

def beforeDeployments (db : Database) (fates : List Fate) : DeploymentPool := ⟨⟨db, fates⟩, []⟩

theorem deploying_run (db : Database) (fates : List Fate) (ms : List DeploymentMove) :
    Deploying computeChecksum dir (beforeDeployments db fates) ms
      (run (deployments computeChecksum dir).step (beforeDeployments db fates) ms) := by
  induction ms using List.reverseRecOn with
  | nil =>
    constructor
    · exact fun th hth => absurd hth List.not_mem_nil
    · exact fun th hth => absurd hth List.not_mem_nil
    · exact fun i th applied hth => absurd hth (by simp [run, beforeDeployments])
    · exact fun i f hmem => absurd hmem List.not_mem_nil
    · exact List.nodup_nil
    · intro v
      simp [commits, run]
  | append_singleton ms m ih =>
    rw [run_append]
    exact ih.step rfl m

end runs

/-- Without a lock, for any processes at once and any fates of their statements: a process commits
each up section at most once, and only one that was not recorded when this process read the table;
and the versions at the end are those from before and those that were committed. -/
theorem deployments_commit (computeChecksum : String → String) (dir : MigrationsDir) (db : Database)
    (fates : List Fate) (ms : List DeploymentMove) :
    let start := beforeDeployments db fates
    let after := fun ms => run (deployments computeChecksum dir).step start ms
    (commits computeChecksum dir start ms).Nodup ∧
    (∀ before m rest i f, ms = before ++ m :: rest →
      commit? computeChecksum dir (after before) m = some (i, f) →
      ∃ applied, f ∉ applied ∧ ReadAt computeChecksum dir start before i applied) ∧
    ∀ v, v ∈ (after ms).state.database.versions ↔
      v ∈ db.versions ∨ ∃ i, (i, v) ∈ commits computeChecksum dir start ms := by
  intro start after
  have hend : Deploying computeChecksum dir start ms (after ms) := deploying_run db fates ms
  refine ⟨hend.once, fun before m rest i f _ hcommit => ?_, hend.versions⟩
  have hbefore : Deploying computeChecksum dir start before (after before) :=
    deploying_run db fates before
  rcases @commit?_cases computeChecksum dir _ hbefore.follow hbefore.known m with
    ⟨j, g, -, hsome, ⟨th, c, next, hth, -, hg, hpermits⟩, -⟩ | ⟨hnone, -⟩
  · rw [hcommit] at hsome
    cases hsome
    cases c with
    | runMigration f' direction =>
      cases hg
      obtain ⟨-, -, applied, hread, hnot⟩ := hpermits
      exact ⟨applied, hnot, hbefore.read i th applied hth hread⟩
    | _ => cases hg
  · rw [hcommit] at hnone
    cases hnone

def oneMigration : MigrationsDir where
  files := [("001_users.sql", "CREATE TABLE IF NOT EXISTS users ();\n-- down\nDROP TABLE users;")]
  namesApart := by decide

/-- Two processes that both read the empty table before either of them runs the file. -/
def bothRead : List DeploymentMove :=
  [.spawn ⟨none, false, none⟩, .spawn ⟨none, false, none⟩, .advance 0, .advance 0, .advance 1,
    .advance 1, .advance 0, .advance 1, .advance 0, .advance 1]

/-- The up section is committed twice, and both processes return. -/
theorem committed_twice :
    (commits id oneMigration (beforeDeployments .empty []) bothRead).map (·.2) =
        ["001_users.sql", "001_users.sql"] ∧
      (run (deployments id oneMigration).step (beforeDeployments .empty []) bothRead).threads.map
        Thread.result = [some ["001_users.sql"], some ["001_users.sql"]] := by
  decide +kernel

end FastapiTemplate.Migrations
