import FastapiTemplate.EventBus

/-!
# What the event bus loses

Every pending entry of a worker is either in the batch that the worker is at, or all its
handlers were called. The steps that break this are those in which a call fails, or the
lock of an event is found taken, while handlers are still to be called.
-/

namespace FastapiTemplate.Events

/-- The batch of a task holds entries of the stream, and its first message is as far as the
task says. -/
structure Task.Consistent (app : Application) (s : Bus) (task : Task) : Prop where
  entries : ∀ x ∈ task.batch, s.stream.entries[x.1]? = some x.2
  locking : ∀ event batch, task = .locking event batch →
    ∃ x rest, batch = x :: rest ∧ app.eventOf x.2 = some event
  invoking : ∀ event handlers batch, task = .invoking event handlers batch →
    ∃ x rest, batch = x :: rest ∧ app.eventOf x.2 = some event ∧
      ∀ handler ∈ app.subscribers event.eventName,
        (event, handler) ∈ s.invoked ∨ handler ∈ handlers
  acking : ∀ x rest, task = .acking (x :: rest) → s.Settled app x.1

namespace Bus

structure Delivers (app : Application) (s : Bus) : Prop where
  consistent : ∀ w, (s.workers w).task.Consistent app s
  pendingEntry : ∀ x ∈ s.stream.pending, x.1 < s.stream.entries.length
  ackedEntry : ∀ i ∈ s.stream.acked, i < s.stream.entries.length
  acked : ∀ i ∈ s.stream.acked, s.Settled app i
  pending : ∀ i w k, (i, (w, k)) ∈ s.stream.pending → s.Settled app i ∨
    k = (s.workers w).instanceNo ∧ i ∈ (s.workers w).task.batch.map (·.1)

section delivers
variable {app : Application} {s t : Bus}

theorem Delivers.atLeastOnce (h : s.Delivers app) : s.AtLeastOnce app := by
  rintro i (hacked | ⟨w, k, hpending, hnot⟩)
  · exact h.acked i hacked
  · exact (h.pending i w k hpending).resolve_right hnot

theorem delivers_empty : empty.Delivers app := by
  refine ⟨fun w => ⟨nofun, nofun, nofun, nofun⟩, nofun, nofun, nofun, nofun⟩

structure Grows (s t : Bus) : Prop where
  entries : s.stream.entries <+: t.stream.entries
  invoked : s.invoked ⊆ t.invoked

theorem Grows.refl (hstream : t.stream.entries = s.stream.entries) (hinvoked : t.invoked = s.invoked) :
    Grows s t := by
  constructor
  · simpa only [hstream] using List.prefix_refl s.stream.entries
  · simpa only [hinvoked] using List.Subset.refl s.invoked

theorem Grows.getElem? (h : Grows s t) {i : ℕ} (hi : i < s.stream.entries.length) :
    t.stream.entries[i]? = s.stream.entries[i]? :=
  (List.prefix_iff_getElem?.mp h.entries i hi).trans (List.getElem?_eq_getElem hi).symm

theorem Grows.length_le (h : Grows s t) : s.stream.entries.length ≤ t.stream.entries.length :=
  h.entries.length_le

theorem Settled.grows {i : ℕ} (h : s.Settled app i) (hi : i < s.stream.entries.length)
    (hgrows : Grows s t) : t.Settled app i := by
  intro event hevent handler hhandler
  unfold eventAt at hevent
  rw [hgrows.getElem? hi] at hevent
  exact hgrows.invoked (h event hevent handler hhandler)

theorem consistent_lt {task : Task} (h : task.Consistent app s) {x : ℕ × Message}
    (hx : x ∈ task.batch) : x.1 < s.stream.entries.length := by
  obtain ⟨hlt, -⟩ := List.getElem?_eq_some_iff.mp (h.entries x hx)
  exact hlt

theorem consistent_entries {task : Task} {batch : Batch} (h : task.Consistent app s)
    (hbatch : task.batch = batch) : ∀ x ∈ batch, s.stream.entries[x.1]? = some x.2 := by
  rw [← hbatch]
  exact h.entries

/-- The entries are to be acknowledged, and the first of them is settled. -/
theorem consistent_acking {x : ℕ × Message} {rest : Batch}
    (hentries : ∀ y ∈ x :: rest, s.stream.entries[y.1]? = some y.2) (hhead : s.Settled app x.1) :
    (Task.acking (x :: rest)).Consistent app s := by
  refine ⟨hentries, nofun, nofun, fun y ys heq => ?_⟩
  cases heq
  exact hhead

theorem consistent_grows {task : Task} (h : task.Consistent app s) (hgrows : Grows s t) :
    task.Consistent app t := by
  refine ⟨fun x hx => ?_, h.locking, fun event handlers batch htask => ?_, fun x rest htask => ?_⟩
  · rw [hgrows.getElem? (consistent_lt h hx)]
    exact h.entries x hx
  · obtain ⟨x, rest, hbatch, hevent, hhandlers⟩ := h.invoking event handlers batch htask
    refine ⟨x, rest, hbatch, hevent, fun handler hhandler => ?_⟩
    exact (hhandlers handler hhandler).imp_left (fun hin => hgrows.invoked hin)
  · have hx : x ∈ task.batch := by
      rw [htask]
      exact List.mem_cons_self
    exact (h.acking x rest htask).grows (consistent_lt h hx) hgrows

/-- A step that concerns one worker: others keep their tasks, and what is acknowledged or
pending anew is settled or in the batch of this worker. -/
theorem Delivers.of_worker (h : s.Delivers app) (hgrows : Grows s t) (w : ℕ)
    (hothers : ∀ v, v ≠ w → t.workers v = s.workers v)
    (htask : (t.workers w).task.Consistent app t)
    (hacked : ∀ i ∈ t.stream.acked, i ∈ s.stream.acked ∨
      i < s.stream.entries.length ∧ t.Settled app i)
    (hpending : ∀ x ∈ t.stream.pending, x ∈ s.stream.pending ∨ x.1 < s.stream.entries.length ∧
      (t.Settled app x.1 ∨ x.2 = t.consumer w ∧ x.1 ∈ (t.workers w).task.batch.map (·.1)))
    (hmine : ∀ i k, (i, (w, k)) ∈ s.stream.pending → (i, (w, k)) ∈ t.stream.pending →
      t.Settled app i ∨
        k = (t.workers w).instanceNo ∧ i ∈ (t.workers w).task.batch.map (·.1)) :
    t.Delivers app := by
  refine ⟨fun v => ?_, fun x hx => ?_, fun i hi => ?_, fun i hi => ?_, fun i v k hx => ?_⟩
  · by_cases hv : v = w
    · rw [hv]
      exact htask
    · rw [hothers v hv]
      exact consistent_grows (h.consistent v) hgrows
  · rcases hpending x hx with hold | ⟨hlt, -⟩
    · exact Nat.lt_of_lt_of_le (h.pendingEntry x hold) hgrows.length_le
    · exact Nat.lt_of_lt_of_le hlt hgrows.length_le
  · rcases hacked i hi with hold | ⟨hlt, -⟩
    · exact Nat.lt_of_lt_of_le (h.ackedEntry i hold) hgrows.length_le
    · exact Nat.lt_of_lt_of_le hlt hgrows.length_le
  · rcases hacked i hi with hold | ⟨-, hsettled⟩
    · exact (h.acked i hold).grows (h.ackedEntry i hold) hgrows
    · exact hsettled
  · rcases hpending (i, (v, k)) hx with hold | ⟨-, hsettled | ⟨hconsumer, hbatch⟩⟩
    · by_cases hv : v = w
      · subst hv
        exact hmine i k hold hx
      · rw [hothers v hv]
        have hlt := h.pendingEntry _ hold
        exact (h.pending i v k hold).imp_left (fun hsettled => hsettled.grows hlt hgrows)
    · exact .inl hsettled
    · cases hconsumer
      exact .inr ⟨rfl, hbatch⟩

/-- A step that leaves the workers as they are. -/
theorem Delivers.of_stream (h : s.Delivers app) (hgrows : Grows s t) (hworkers : t.workers = s.workers)
    (hacked : t.stream.acked = s.stream.acked)
    (hpending : ∀ x ∈ t.stream.pending, x ∈ s.stream.pending ∨
      x.1 < s.stream.entries.length ∧ t.Settled app x.1) : t.Delivers app := by
  refine h.of_worker hgrows 0 (fun v _ => by rw [hworkers]) ?_ ?_ ?_ ?_
  · rw [hworkers]
    exact consistent_grows (h.consistent 0) hgrows
  · intro i hi
    rw [hacked] at hi
    exact .inl hi
  · intro x hx
    exact (hpending x hx).imp_right (fun hnew => ⟨hnew.1, .inl hnew.2⟩)
  · intro i k hold _
    rw [hworkers]
    have hlt := h.pendingEntry _ hold
    exact (h.pending i 0 k hold).imp_left (fun hsettled => hsettled.grows hlt hgrows)

theorem task_eq_some {w : ℕ} {task : Task} (h : s.task w = some task) :
    (s.workers w).task = task := by
  unfold Bus.task at h
  by_cases hrunning : (s.workers w).running = true
  · rw [if_pos hrunning] at h
    exact Option.some_inj.mp h
  · rw [if_neg hrunning] at h
    cases h

/-! ## The steps -/

/-- The message is to be acknowledged, since there is no handler to call, or to be locked. -/
theorem begin_cons (app : Application) (x : ℕ × Message) (rest : Batch) :
    (app.begin (x :: rest) = .acking (x :: rest) ∧
      ∀ event, app.eventOf x.2 = some event → app.subscribers event.eventName = []) ∨
    ∃ event, app.begin (x :: rest) = .locking event (x :: rest) ∧ app.eventOf x.2 = some event := by
  obtain ⟨i, m⟩ := x
  cases hevent : app.eventOf m with
  | none => exact .inl ⟨by simp [Application.begin, hevent], nofun⟩
  | some event =>
    by_cases hnone : app.subscribers event.eventName = []
    · refine .inl ⟨by simp [Application.begin, hevent, hnone], ?_⟩
      rintro event' heq
      cases heq
      exact hnone
    · exact .inr ⟨event, by simp [Application.begin, hevent, hnone], rfl⟩

theorem begin_batch (app : Application) (batch : Batch) : (app.begin batch).batch = batch := by
  cases batch with
  | nil => rfl
  | cons x rest =>
    rcases begin_cons app x rest with ⟨hbegin, -⟩ | ⟨event, hbegin, -⟩
    · rw [hbegin]
      rfl
    · rw [hbegin]
      rfl

theorem begin_consistent {batch : Batch}
    (hentries : ∀ x ∈ batch, t.stream.entries[x.1]? = some x.2) :
    (app.begin batch).Consistent app t := by
  cases batch with
  | nil => exact ⟨nofun, nofun, nofun, nofun⟩
  | cons x rest =>
    have hx := hentries x List.mem_cons_self
    rcases begin_cons app x rest with ⟨hbegin, hnone⟩ | ⟨event, hbegin, hevent⟩
    · rw [hbegin]
      refine ⟨hentries, nofun, nofun, fun y ys heq event hevent handler hhandler => ?_⟩
      cases heq
      unfold eventAt at hevent
      rw [hx] at hevent
      rw [hnone event hevent] at hhandler
      cases hhandler
    · rw [hbegin]
      refine ⟨hentries, fun event' batch heq => ?_, nofun, nofun⟩
      cases heq
      exact ⟨x, rest, rfl, hevent⟩

/-- The head of a batch is settled once all handlers of its event were called. -/
theorem settled_head {task : Task} {event : ApplicationEvent} {x : ℕ × Message} {rest : Batch}
    (h : task.Consistent app s) (hbatch : task.batch = x :: rest) (hevent : app.eventOf x.2 = some event)
    (hcalled : s.AllInvoked app event) : s.Settled app x.1 := by
  intro event' hevent'
  unfold eventAt at hevent'
  rw [h.entries x (by rw [hbatch]; exact List.mem_cons_self)] at hevent'
  cases hevent.symm.trans hevent'
  exact hcalled

theorem delivers_add (h : s.Delivers app) (m : Message) (maxLen trimmed : ℕ) :
    Delivers app { s with stream := s.stream.add m maxLen trimmed } := by
  apply h.of_stream
  · exact ⟨List.prefix_append _ _, List.Subset.refl _⟩
  · rfl
  · rfl
  · exact fun x hx => .inl hx

theorem delivers_start {w : ℕ} {newInstance created : Bool} (h : s.Delivers app)
    (hok : ∀ x ∈ s.stream.pending, x.2.1 = w → s.Settled app x.1) :
    (s.startWorker w newInstance created).Delivers app := by
  have hstream : (s.startWorker w newInstance created).stream =
      if created then s.stream.createGroup else s.stream := rfl
  have hworker : ((s.startWorker w newInstance created).workers w).task = .reading := by
    simp [startWorker]
  have hgrows : Grows s (s.startWorker w newInstance created) := by
    refine Grows.refl ?_ rfl
    rw [hstream]
    cases created <;> simp
  have hacked : (s.startWorker w newInstance created).stream.acked = s.stream.acked := by
    rw [hstream]
    cases created <;> simp
  have hpending : (s.startWorker w newInstance created).stream.pending = s.stream.pending := by
    rw [hstream]
    cases created <;> simp
  apply h.of_worker hgrows w
  · intro v hv
    exact Function.update_of_ne hv ..
  · rw [hworker]
    exact ⟨nofun, nofun, nofun, nofun⟩
  · intro i hi
    rw [hacked] at hi
    exact .inl hi
  · intro x hx
    rw [hpending] at hx
    exact .inl hx
  · intro i k hold _
    exact .inl ((hok _ hold rfl).grows (h.pendingEntry _ hold) hgrows)

@[simp] theorem withTask_self (s : Bus) (w : ℕ) (task : Task) :
    (s.withTask w task).workers w = { s.workers w with task := task } := Function.update_self ..

theorem withTask_of_ne (s : Bus) {w v : ℕ} (h : v ≠ w) (task : Task) :
    (s.withTask w task).workers v = s.workers v := Function.update_of_ne h ..

theorem consistent_withTask {w : ℕ} {task : Task} (h : task.Consistent app t) :
    (((t.withTask w task).workers w).task).Consistent app (t.withTask w task) := by
  rw [withTask_self]
  exact consistent_grows h (Grows.refl rfl rfl)

/-- The worker goes on with the batch it is at. -/
theorem delivers_withTask {w : ℕ} {task : Task} (h : s.Delivers app) (hgrows : Grows s t)
    (hworkers : t.workers = s.workers) (hstream : t.stream = s.stream)
    (htask : task.Consistent app t) (hbatch : task.batch = (s.workers w).task.batch) :
    (t.withTask w task).Delivers app := by
  have hgrows' : Grows s (t.withTask w task) := ⟨hgrows.entries, hgrows.invoked⟩
  apply h.of_worker hgrows' w
  · intro v hv
    rw [withTask_of_ne t hv, hworkers]
  · exact consistent_withTask htask
  · intro i hi
    change i ∈ t.stream.acked at hi
    rw [hstream] at hi
    exact .inl hi
  · intro x hx
    change x ∈ t.stream.pending at hx
    rw [hstream] at hx
    exact .inl hx
  · intro i k hold _
    rw [withTask_self, hworkers, hbatch]
    have hlt := h.pendingEntry _ hold
    exact (h.pending i w k hold).imp_left (fun hsettled => hsettled.grows hlt hgrows')

theorem delivers_read {w count : ℕ} (h : s.Delivers app) (htask : (s.workers w).task = .reading) :
    (Bus.withTask { s with stream := (s.stream.read (s.consumer w) count).2 } w
      (app.begin (s.stream.read (s.consumer w) count).1)).Delivers app := by
  have hgrows : Grows s (Bus.withTask { s with stream := (s.stream.read (s.consumer w) count).2 } w
      (app.begin (s.stream.read (s.consumer w) count).1)) :=
    Grows.refl (s.stream.read_entries _ _) rfl
  have hentries : ∀ x ∈ (s.stream.read (s.consumer w) count).1,
      (s.stream.read (s.consumer w) count).2.entries[x.1]? = some x.2 := by
    intro x hx
    rw [EntryStream.read_entries]
    exact s.stream.getElem?_of_mem_read hx
  apply h.of_worker hgrows w
  · exact fun v hv => withTask_of_ne _ hv _
  · exact consistent_withTask (begin_consistent hentries)
  · intro i hi
    change i ∈ (s.stream.read (s.consumer w) count).2.acked at hi
    rw [EntryStream.read_acked] at hi
    exact .inl hi
  · intro x hx
    change x ∈ (s.stream.read (s.consumer w) count).2.pending at hx
    rcases s.stream.mem_pending_read hx with hold | ⟨hlt, hconsumer, m, hm⟩
    · exact .inl hold
    · refine .inr ⟨hlt, .inr ⟨?_, ?_⟩⟩
      · simp [Bus.consumer, hconsumer]
      · rw [withTask_self, begin_batch]
        exact List.mem_map_of_mem hm
  · intro i k hold _
    have hbefore := h.pending i w k hold
    rw [htask] at hbefore
    rcases hbefore with hsettled | ⟨-, hnone⟩
    · exact .inl (hsettled.grows (h.pendingEntry _ hold) hgrows)
    · cases hnone

/-- The worker lets go of the head of its batch, which is settled, and goes on with entries among
which are all that are not settled. -/
theorem delivers_acked {w : ℕ} {x : ℕ × Message} {rest : Batch}
    {stream : EntryStream Message Consumer} {task : Task} (h : s.Delivers app)
    (htask : (s.workers w).task = .acking (x :: rest))
    (hstream : stream = s.stream.ack x.1 ∨ stream = s.stream)
    (hnew : task.Consistent app { s with stream := stream })
    (hrest : ∀ y ∈ rest, y.1 ∈ task.batch.map (·.1) ∨ s.Settled app y.1) :
    (Bus.withTask { s with stream := stream } w task).Delivers app := by
  have hgrows : Grows s (Bus.withTask { s with stream := stream } w task) := by
    refine Grows.refl ?_ rfl
    rcases hstream with rfl | rfl
    · exact s.stream.ack_entries _
    · rfl
  have hx : x ∈ (s.workers w).task.batch := by
    rw [htask]
    exact List.mem_cons_self
  have hlt : x.1 < s.stream.entries.length := consistent_lt (h.consistent w) hx
  have hsettled : s.Settled app x.1 := (h.consistent w).acking x rest htask
  apply h.of_worker hgrows w
  · exact fun v hv => withTask_of_ne _ hv _
  · exact consistent_withTask hnew
  · intro i hi
    change i ∈ stream.acked at hi
    rcases hstream with rfl | rfl
    · rcases s.stream.mem_acked_ack hi with hold | rfl
      · exact .inl hold
      · exact .inr ⟨hlt, hsettled.grows hlt hgrows⟩
    · exact .inl hi
  · intro y hy
    change y ∈ stream.pending at hy
    rcases hstream with rfl | rfl
    · exact .inl (s.stream.mem_pending_ack hy).1
    · exact .inl hy
  · intro i k hold _
    rw [withTask_self]
    have hi := h.pendingEntry _ hold
    rcases h.pending i w k hold with hbefore | ⟨hk, hbatch⟩
    · exact .inl (hbefore.grows hi hgrows)
    · rw [htask] at hbatch
      rcases List.mem_cons.mp hbatch with rfl | hlater
      · exact .inl (hsettled.grows hi hgrows)
      · obtain ⟨y, hy, rfl⟩ := List.mem_map.mp hlater
        rcases hrest y hy with hin | hdone
        · exact .inr ⟨hk, hin⟩
        · exact .inl (hdone.grows hi hgrows)

/-- A stopped worker keeps the batch that it was at. -/
theorem delivers_stop (h : s.Delivers app) (w : ℕ) : (s.stopWorker w).Delivers app := by
  have hgrows : Grows s (s.stopWorker w) := Grows.refl rfl rfl
  have hworker : (s.stopWorker w).workers w = { s.workers w with running := false } :=
    Function.update_self ..
  apply h.of_worker hgrows w
  · exact fun v hv => Function.update_of_ne hv ..
  · rw [hworker]
    exact consistent_grows (h.consistent w) hgrows
  · exact fun i hi => .inl hi
  · exact fun x hx => .inl hx
  · intro i k hold _
    rw [hworker]
    exact (h.pending i w k hold).imp_left (fun hi => hi.grows (h.pendingEntry _ hold) hgrows)

theorem delivers_readFails {w count : ℕ} (h : s.Delivers app)
    (hok : ∀ x ∈ (s.stream.read (s.consumer w) count).1, s.Settled app x.1) :
    Delivers app { s with stream := (s.stream.read (s.consumer w) count).2 } := by
  have hgrows : Grows s { s with stream := (s.stream.read (s.consumer w) count).2 } :=
    Grows.refl (s.stream.read_entries _ _) rfl
  apply h.of_stream hgrows rfl (s.stream.read_acked _ _)
  intro x hx
  rcases s.stream.mem_pending_read hx with hold | ⟨hlt, -, m, hm⟩
  · exact .inl hold
  · exact .inr ⟨hlt, (hok _ hm).grows hlt hgrows⟩

/-- The lock is not taken by this worker, and the entry goes on to be acknowledged. -/
theorem delivers_skip {w : ℕ} {event : ApplicationEvent} {batch : Batch} (h : s.Delivers app)
    (htask : (s.workers w).task = .locking event batch)
    (hcalled : s.AllInvoked app event) (hworkers : t.workers = s.workers) (hstream : t.stream = s.stream)
    (hinvoked : t.invoked = s.invoked) : (t.withTask w (.acking batch)).Delivers app := by
  have hgrows : Grows s t := Grows.refl (congrArg _ hstream) hinvoked
  have hbatch : (s.workers w).task.batch = batch := by
    rw [htask]
    rfl
  refine delivers_withTask h hgrows hworkers hstream (consistent_grows ?_ hgrows) hbatch.symm
  obtain ⟨x, rest, rfl, hevent⟩ := (h.consistent w).locking event batch htask
  have hhead : s.Settled app x.1 := settled_head (h.consistent w) hbatch hevent hcalled
  exact consistent_acking (consistent_entries (h.consistent w) hbatch) hhead

theorem delivers_lock {w : ℕ} {event : ApplicationEvent} {batch : Batch} (h : s.Delivers app)
    (htask : (s.workers w).task = .locking event batch) :
    ((s.setLock event).withTask w
      (.invoking event (app.subscribers event.eventName) batch)).Delivers app := by
  have hgrows : Grows s (s.setLock event) := Grows.refl rfl rfl
  have hbatch : (s.workers w).task.batch = batch := by
    rw [htask]
    rfl
  refine delivers_withTask h hgrows rfl rfl (consistent_grows ?_ hgrows) hbatch.symm
  obtain ⟨x, rest, rfl, hevent⟩ := (h.consistent w).locking event batch htask
  refine ⟨consistent_entries (h.consistent w) hbatch, nofun,
    fun event' handlers batch heq => ?_, nofun⟩
  cases heq
  exact ⟨x, rest, rfl, hevent, fun handler hhandler => .inr hhandler⟩

theorem delivers_invoke {w : ℕ} {event : ApplicationEvent} {handler : Handler}
    {handlers : List Handler} {batch : Batch} (h : s.Delivers app)
    (htask : (s.workers w).task = .invoking event (handler :: handlers) batch) :
    (Bus.withTask { s with invoked := s.invoked ++ [(event, handler)] } w
      (.invoking event handlers batch)).Delivers app := by
  have hgrows : Grows s { s with invoked := s.invoked ++ [(event, handler)] } :=
    ⟨List.prefix_rfl, List.subset_append_left _ _⟩
  have hbatch : (s.workers w).task.batch = batch := by
    rw [htask]
    rfl
  refine delivers_withTask h hgrows rfl rfl ?_ hbatch.symm
  have hentries := consistent_entries (h.consistent w) hbatch
  obtain ⟨x, rest, rfl, hevent, hhandlers⟩ := (h.consistent w).invoking event _ batch htask
  refine ⟨hentries, nofun, fun event' handlers' batch heq => ?_, nofun⟩
  cases heq
  refine ⟨x, rest, rfl, hevent, fun handler' hhandler' => ?_⟩
  rcases hhandlers handler' hhandler' with hdone | hleft
  · exact .inl (List.mem_append_left _ hdone)
  · rcases List.mem_cons.mp hleft with rfl | hlater
    · exact .inl (List.mem_append_right _ (List.mem_singleton_self _))
    · exact .inr hlater

theorem delivers_invoked {w : ℕ} {event : ApplicationEvent} {batch : Batch} (h : s.Delivers app)
    (htask : (s.workers w).task = .invoking event [] batch) :
    (s.withTask w (.acking batch)).Delivers app := by
  have hgrows : Grows s s := Grows.refl rfl rfl
  have hbatch : (s.workers w).task.batch = batch := by
    rw [htask]
    rfl
  refine delivers_withTask h hgrows rfl rfl ?_ hbatch.symm
  obtain ⟨x, rest, rfl, hevent, hhandlers⟩ := (h.consistent w).invoking event _ batch htask
  have hhead : s.Settled app x.1 := by
    apply settled_head (h.consistent w) hbatch hevent
    exact fun handler hhandler => (hhandlers handler hhandler).resolve_right nofun
  exact consistent_acking (consistent_entries (h.consistent w) hbatch) hhead

theorem delivers_ack {w : ℕ} {x : ℕ × Message} {rest : Batch} (h : s.Delivers app)
    (htask : (s.workers w).task = .acking (x :: rest)) :
    (Bus.withTask { s with stream := s.stream.ack x.1 } w (app.begin rest)).Delivers app := by
  apply delivers_acked h htask (.inl rfl)
  · apply begin_consistent
    intro y hy
    change (s.stream.ack x.1).entries[y.1]? = some y.2
    rw [EntryStream.ack_entries]
    apply (h.consistent w).entries y
    rw [htask]
    exact List.mem_cons_of_mem _ hy
  · intro y hy
    rw [begin_batch]
    exact .inl (List.mem_map_of_mem hy)

theorem delivers_ackFails {w : ℕ} {x : ℕ × Message} {rest : Batch} (h : s.Delivers app)
    (htask : (s.workers w).task = .acking (x :: rest)) (executed : Bool)
    (hok : ∀ y ∈ rest, s.Settled app y.1) :
    (Bus.withTask { s with stream := if executed then s.stream.ack x.1 else s.stream } w
      .reading).Delivers app := by
  apply delivers_acked h htask
  · cases executed with
    | false => exact .inr rfl
    | true => exact .inl rfl
  · exact ⟨nofun, nofun, nofun, nofun⟩
  · exact fun y hy => .inr (hok y hy)

inductive StepCase (app : Application) (s : Bus) : Move → Bus → Prop
  | idle (l : Move) : StepCase app s l s
  | tick (seconds : ℕ) : StepCase app s (.tick seconds) { s with now := s.now + seconds }
  | publish (event : ApplicationEvent) (trimmed : ℕ) : StepCase app s (.publish event trimmed)
      { s with stream := s.stream.add ⟨some (app.modelDumpJson event)⟩ maxStreamLen trimmed }
  | addForeign (m : Message) (trimmed : ℕ) :
      StepCase app s (.addForeign m trimmed) { s with stream := s.stream.add m maxStreamLen trimmed }
  | start (w : ℕ) (newInstance created : Bool) :
      StepCase app s (.start w newInstance created) (s.startWorker w newInstance created)
  | stop (w : ℕ) : StepCase app s (.stop w) (s.stopWorker w)
  | read {w : ℕ} (count : ℕ) (htask : s.task w = some .reading) : StepCase app s (.read w count)
      (Bus.withTask { s with stream := (s.stream.read (s.consumer w) count).2 } w
        (app.begin (s.stream.read (s.consumer w) count).1))
  | readFails (w count : ℕ) : StepCase app s (.readFails w (some count))
      { s with stream := (s.stream.read (s.consumer w) count).2 }
  | lock {w : ℕ} {event : ApplicationEvent} {batch : Batch}
      (htask : s.task w = some (.locking event batch)) (hfree : s.lockFree event = true) :
      StepCase app s (.lock w) ((s.setLock event).withTask w
        (.invoking event (app.subscribers event.eventName) batch))
  | lockTaken {w : ℕ} {event : ApplicationEvent} {batch : Batch}
      (htask : s.task w = some (.locking event batch)) (htaken : ¬ s.lockFree event = true) :
      StepCase app s (.lock w) (s.withTask w (.acking batch))
  | lockFails {w : ℕ} (executed : Bool) {event : ApplicationEvent} {batch : Batch} {t : Bus}
      (htask : s.task w = some (.locking event batch)) (hset : t = s.setLock event ∨ t = s) :
      StepCase app s (.lockFails w executed) (t.withTask w (.acking batch))
  | invoke {w : ℕ} {event : ApplicationEvent} {handler : Handler} {handlers : List Handler}
      {batch : Batch} (htask : s.task w = some (.invoking event (handler :: handlers) batch)) :
      StepCase app s (.invoke w) (Bus.withTask
        { s with invoked := s.invoked ++ [(event, handler)] } w (.invoking event handlers batch))
  | invoked {w : ℕ} {event : ApplicationEvent} {batch : Batch}
      (htask : s.task w = some (.invoking event [] batch)) :
      StepCase app s (.invoke w) (s.withTask w (.acking batch))
  | ack {w : ℕ} {x : ℕ × Message} {rest : Batch} (htask : s.task w = some (.acking (x :: rest))) :
      StepCase app s (.ack w)
        (Bus.withTask { s with stream := s.stream.ack x.1 } w (app.begin rest))
  | ackFails {w : ℕ} (executed : Bool) {x : ℕ × Message} {rest : Batch}
      (htask : s.task w = some (.acking (x :: rest))) : StepCase app s (.ackFails w executed)
      (Bus.withTask { s with stream := if executed then s.stream.ack x.1 else s.stream } w .reading)

theorem step_cases (app : Application) (s : Bus) (l : Move) : StepCase app s l (s.step app l) := by
  cases l with
  | tick seconds => exact .tick seconds
  | publish event trimmed => exact .publish event trimmed
  | addForeign m trimmed => exact .addForeign m trimmed
  | stop w => exact .stop w
  | start w newInstance created =>
    simp only [step]
    split
    · exact .idle _
    · exact .start w newInstance created
  | read w count =>
    simp only [step]
    split
    · next htask => exact .read count htask
    · exact .idle _
  | readFails w executed =>
    simp only [step]
    split
    · exact .readFails w _
    · exact .idle _
  | lock w =>
    simp only [step]
    split
    · next htask =>
      split
      · next hfree => exact .lock htask hfree
      · next htaken => exact .lockTaken htask htaken
    · exact .idle _
  | lockFails w executed =>
    simp only [step]
    split
    · next htask =>
      split
      · exact .lockFails executed htask (.inl rfl)
      · exact .lockFails executed htask (.inr rfl)
    · exact .idle _
  | invoke w =>
    simp only [step]
    split
    · next htask => exact .invoke htask
    · next htask => exact .invoked htask
    · exact .idle _
  | ack w =>
    simp only [step]
    split
    · next htask => exact .ack htask
    · exact .idle _
  | ackFails w executed =>
    simp only [step]
    split
    · next htask => exact .ackFails executed htask
    · exact .idle _

/-- A step that loses nothing keeps the invariant. -/
theorem delivers_step {l : Move} (hok : s.KeepsEvents app l) (h : s.Delivers app) :
    (s.step app l).Delivers app := by
  have hcase := step_cases app s l
  generalize s.step app l = t at hcase
  cases hcase with
  | idle => exact h
  | tick seconds => exact h.of_stream (Grows.refl rfl rfl) rfl rfl (fun x hx => .inl hx)
  | publish event trimmed => exact delivers_add h _ _ _
  | addForeign m trimmed => exact delivers_add h _ _ _
  | start w newInstance created => exact delivers_start h hok
  | stop w => exact delivers_stop h w
  | read count htask => exact delivers_read h (task_eq_some htask)
  | readFails w count => exact delivers_readFails h hok
  | lock htask hfree => exact delivers_lock h (task_eq_some htask)
  | @lockTaken w event batch htask htaken =>
    have hlocks : Locks (fun event => s.lockFree event ∨ s.AllInvoked app event) (s.task w) := hok
    rw [htask] at hlocks
    exact delivers_skip h (task_eq_some htask) (hlocks.resolve_left htaken) rfl rfl rfl
  | @lockFails w executed event batch t htask hset =>
    have hlocks : Locks (s.AllInvoked app) (s.task w) := hok
    rw [htask] at hlocks
    rcases hset with rfl | rfl
    · exact delivers_skip h (task_eq_some htask) hlocks rfl rfl rfl
    · exact delivers_skip h (task_eq_some htask) hlocks rfl rfl rfl
  | invoke htask => exact delivers_invoke h (task_eq_some htask)
  | invoked htask => exact delivers_invoked h (task_eq_some htask)
  | ack htask => exact delivers_ack h (task_eq_some htask)
  | @ackFails w executed x rest htask =>
    have hdrops : Drops (s.Settled app) (s.task w) := hok
    rw [htask] at hdrops
    exact delivers_ackFails h (task_eq_some htask) executed hdrops

/-- In the runs without such steps, no event is acknowledged or left behind before all its
handlers were called. -/
theorem atLeastOnce_of_keepsEvents (h : RunsWhere (step app) (KeepsEvents app) empty s) :
    s.AtLeastOnce app :=
  (h.invariant delivers_empty (fun _ _ hok hs => delivers_step hok hs)).atLeastOnce

end delivers

/-! ## Runs -/

def notifications : Application where
  modelDumpJson event := event.eventId
  modelValidateJson raw := some ⟨raw, "user.created", ""⟩
  subscribers _ := ["notify"]

def userCreated (eventId : String) : ApplicationEvent := ⟨eventId, "user.created", ""⟩

/-- Two events are handled and acknowledged, after a first attempt to read that failed. -/
def handledInTurn : List Move :=
  [.start 0 true true, .publish (userCreated "e1") 0, .publish (userCreated "e2") 0,
    .readFails 0 none, .read 0 10, .lock 0, .invoke 0, .invoke 0, .ack 0, .lock 0, .invoke 0,
    .invoke 0, .ackFails 0 true]

/-- The acknowledgement of the first of two events fails; then a third event is read. -/
def restDropped : List Move :=
  [.start 0 true true, .publish (userCreated "e1") 0, .publish (userCreated "e2") 0, .read 0 10,
    .lock 0, .invoke 0, .invoke 0, .ackFails 0 false, .publish (userCreated "e3") 0, .read 0 10]

theorem atLeastOnce_handledInTurn :
    EveryStep (step notifications) (KeepsEvents notifications) empty handledInTurn ∧
      (run (step notifications) empty handledInTurn).AtLeastOnce notifications ∧
      0 ∈ (run (step notifications) empty handledInTurn).stream.acked := by
  have hsteps : EveryStep (step notifications) (KeepsEvents notifications) empty handledInTurn := by
    decide +kernel
  exact ⟨hsteps, atLeastOnce_of_keepsEvents hsteps.runsWhere, by decide +kernel⟩

theorem not_atLeastOnce : ¬ ∀ (app : Application) (ls : List Move),
    (run (step app) empty ls).AtLeastOnce app := by
  intro h
  have hsettled := h notifications restDropped 1 (.inr ⟨0, 1, by decide +kernel, by decide +kernel⟩)
  have hcalled := hsettled (userCreated "e2") (by decide +kernel) "notify" (by decide +kernel)
  exact absurd hcalled (by decide +kernel)

end Bus
end FastapiTemplate.Events
