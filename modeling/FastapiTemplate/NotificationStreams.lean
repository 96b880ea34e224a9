import FastapiTemplate.EventStreams
import FastapiTemplate.Notifications
import FastapiTemplate.PubSub
import FastapiTemplate.TransitionRuns

/-!
# Streams of notifications

`SSEChannel` publishes the JSON text of a notification on a channel of Redis, as `WebSocketChannel`
does, and `stream_sse` writes what it hears on two channels into an event stream. Any number of
streams and publishers run at once. A call that a stream awaits may return, or raise an exception or
be cancelled, before or after Redis has executed it; its connection to Redis is not lost unnoticed.
-/

namespace FastapiTemplate.NotificationStreams

open Notification

/-! ## The generator -/

/-- The call of `stream_sse` that is awaited, or the `yield`. -/
inductive Point
  | subscribing
  | checking
  | receiving
  | yielding
  | unsubscribing
  | closing
  | ended
  deriving DecidableEq, Repr

inductive Outcome
  | returns
  /-- `is_disconnected` returns `True`. -/
  | disconnected
  | raises (executed : Bool)
  deriving DecidableEq, Repr

/-- `sent`: what the generator has yielded. -/
structure Stream where
  userId : Uuid
  point : Point
  sent : List Char

abbrev Redis := Broker ℕ String String

def Stream.channels (st : Stream) : List String := [userChannel st.userId, broadcastChannel]

def notificationFrame (data : String) : String := "event: notification\ndata: " ++ data ++ "\n\n"

def pingFrame : String := ": ping\n\n"

/-- What is yielded for the reply of `get_message`, which passes over the confirmations. -/
def frame : Option (Reply String String) → String
  | some (.message _ data) => notificationFrame data
  | some (.confirm _) => pingFrame
  | none => pingFrame

def Stream.goTo (st : Stream) (point : Point) : Stream := { st with point := point }

def Stream.yields (st : Stream) (text : String) : Stream :=
  { st with point := .yielding, sent := st.sent ++ text.toList }

def Stream.resume (i : ℕ) (st : Stream) (redis : Redis) (outcome : Outcome) : Stream × Redis :=
  match st.point, outcome with
  | .subscribing, .raises executed =>
    -- the `finally` is not reached
    (st.goTo .ended, if executed then redis.subscribe i st.channels else redis)
  | .subscribing, _ => (st.goTo .checking, redis.subscribe i st.channels)
  | .checking, .returns => (st.goTo .receiving, redis)
  | .checking, _ => (st.goTo .unsubscribing, redis)
  | .receiving, .raises executed =>
    (st.goTo .unsubscribing, if executed then (redis.take i).2 else redis)
  | .receiving, _ => (st.yields (frame (redis.take i).1), (redis.take i).2)
  | .yielding, .raises _ => (st.goTo .unsubscribing, redis)
  | .yielding, _ => (st.goTo .checking, redis)
  | .unsubscribing, .raises executed =>
    (st.goTo .ended, if executed then redis.unsubscribe i st.channels else redis)
  | .unsubscribing, _ => (st.goTo .closing, redis.unsubscribe i st.channels)
  | .closing, _ => (st.goTo .ended, redis)
  | .ended, _ => (st, redis)

/-! ## The system -/

structure System where
  redis : Redis
  streams : List Stream

inductive Op
  | connect (userId : Uuid)
  | wake (i : ℕ) (outcome : Outcome)
  | send (userId : Uuid) (notification : NotificationSchema)
  | broadcast (notification : NotificationSchema)

def initial : System := ⟨.empty, []⟩

def step (s : System) : Op → System
  | .connect userId => { s with streams := s.streams ++ [⟨userId, .subscribing, []⟩] }
  | .wake i outcome =>
    match s.streams[i]? with
    | none => s
    | some st =>
      let next := st.resume i s.redis outcome
      ⟨next.2, s.streams.set i next.1⟩
  | .send userId notification =>
    { s with redis := s.redis.publish (userChannel userId) notification.modelDumpJson }
  | .broadcast notification =>
    { s with redis := s.redis.publish broadcastChannel notification.modelDumpJson }

def Op.addressedTo (userId : Uuid) : Op → Option NotificationSchema
  | .connect _ => none
  | .wake .. => none
  | .send other notification => if other = userId then some notification else none
  | .broadcast notification => some notification

def addressed (userId : Uuid) (ops : List Op) : List NotificationSchema :=
  ops.filterMap (Op.addressedTo userId)

/-! ## Frames -/

def eventOf (notification : NotificationSchema) : EventStream.Event :=
  ⟨"notification", notification.modelDumpJson⟩

theorem isBreak_modelDumpJson (n : NotificationSchema) :
    ∀ c ∈ n.modelDumpJson.toList, EventStream.isBreak c = false := by
  intro c hc
  rw [NotificationSchema.modelDumpJson, String.toList_ofList] at hc
  have hblank := PyValue.compactText_blank_le _ c hc
  rw [EventStream.isBreak, Bool.or_eq_false_iff, decide_eq_false_iff_not, decide_eq_false_iff_not]
  constructor
  · rintro rfl
    exact absurd hblank (by decide)
  · rintro rfl
    exact absurd hblank (by decide)

theorem toList_notificationFrame (data : String) : (notificationFrame data).toList =
    EventStream.eventText "notification".toList data.toList := by
  have hfront : "event: notification\ndata: ".toList = ['e', 'v', 'e', 'n', 't', ':', ' '] ++
      "notification".toList ++ ['\n'] ++ ['d', 'a', 't', 'a', ':', ' '] := by decide
  have hback : "\n\n".toList = ['\n'] ++ ['\n'] := by decide
  calc (notificationFrame data).toList
      = "event: notification\ndata: ".toList ++ data.toList ++ "\n\n".toList :=
        String.toList_append.trans (congrArg (· ++ _) String.toList_append)
    _ = _ := congrArg₂ (· ++ ·) (congrArg (· ++ data.toList) hfront) hback
    _ = _ := by
        dsimp only [EventStream.eventText]
        simp only [List.append_assoc]

theorem emits_notificationFrame (n : NotificationSchema) :
    EventStream.Emits (notificationFrame n.modelDumpJson).toList [eventOf n] := by
  have hall : "notification".toList.all (fun c => !EventStream.isBreak c) = true := by decide
  have hname : ∀ c ∈ "notification".toList, EventStream.isBreak c = false := fun c hc =>
    (Bool.not_eq_true' _).mp (List.all_eq_true.mp hall c hc)
  have hevent := EventStream.emits_event hname (isBreak_modelDumpJson n)
  rw [if_neg (by decide), String.ofList_toList, String.ofList_toList] at hevent
  rw [toList_notificationFrame]
  exact hevent

theorem emits_pingFrame : EventStream.Emits pingFrame.toList [] := by
  have htext : pingFrame.toList = EventStream.commentText [' ', 'p', 'i', 'n', 'g'] := by decide
  rw [htext]
  refine EventStream.emits_comment (fun c hc => ?_)
  simp only [List.mem_cons, List.not_mem_nil, or_false] at hc
  rcases hc with rfl | rfl | rfl | rfl | rfl <;> rfl

/-! ## One step -/

def Point.isOpen : Point → Bool
  | .checking => true
  | .receiving => true
  | .yielding => true
  | _ => false

section resume
variable (i : ℕ) (st : Stream) (redis : Redis) (outcome : Outcome)

theorem userId_resume : (st.resume i redis outcome).1.userId = st.userId := by
  unfold Stream.resume
  split <;> rfl

/-- A resumption makes one command of the stream at most. -/
theorem redis_resume : (st.resume i redis outcome).2 = redis ∨
    (st.resume i redis outcome).2 = redis.subscribe i st.channels ∨
    (st.resume i redis outcome).2 = redis.unsubscribe i st.channels ∨
    (st.resume i redis outcome).2 = (redis.take i).2 := by
  unfold Stream.resume
  split <;> try split_ifs
  all_goals simp only [true_or, or_true]

theorem resume_of_ne {t : ℕ} (ht : t ≠ i) :
    (st.resume i redis outcome).2.channels t = redis.channels t ∧
      (st.resume i redis outcome).2.replies t = redis.replies t := by
  rcases redis_resume i st redis outcome with h | h | h | h <;> rw [h]
  · exact ⟨rfl, rfl⟩
  · exact redis.subscribe_of_ne st.channels ht
  · exact redis.unsubscribe_of_ne st.channels ht
  · exact redis.take_of_ne ht

theorem point_resume_ne : (st.resume i redis outcome).1.point ≠ .subscribing := by
  unfold Stream.resume
  split <;> simp_all [Stream.goTo, Stream.yields]

end resume

theorem step_wake {s : System} {i : ℕ} {st : Stream} (h : s.streams[i]? = some st)
    (outcome : Outcome) : step s (.wake i outcome) =
      ⟨(st.resume i s.redis outcome).2, s.streams.set i (st.resume i s.redis outcome).1⟩ := by
  simp only [step, h]

theorem getElem?_wake {s : System} {i : ℕ} {st : Stream} (h : s.streams[i]? = some st)
    (outcome : Outcome) :
    (step s (.wake i outcome)).streams[i]? = some (st.resume i s.redis outcome).1 := by
  rw [step_wake h]
  obtain ⟨hi, -⟩ := List.getElem?_eq_some_iff.mp h
  exact List.getElem?_set_self hi

/-- A step that resumes another stream, or none, leaves the stream alone. -/
theorem step_frame {s : System} {i : ℕ} {op : Op} (hop : ∀ outcome, op ≠ .wake i outcome) :
    (∀ st, s.streams[i]? = some st → (step s op).streams[i]? = some st) ∧
      (step s op).redis.channels i = s.redis.channels i := by
  cases op with
  | connect userId =>
    refine ⟨fun st h => ?_, rfl⟩
    obtain ⟨hi, -⟩ := List.getElem?_eq_some_iff.mp h
    exact (List.getElem?_append_left hi).trans h
  | wake j outcome =>
    have hji : i ≠ j := by
      rintro rfl
      exact hop outcome rfl
    cases hj : s.streams[j]? with
    | none =>
      have hsame : step s (.wake j outcome) = s := by simp only [step, hj]
      rw [hsame]
      exact ⟨fun _ h => h, rfl⟩
    | some other =>
      rw [step_wake hj]
      exact ⟨fun st h => (List.getElem?_set_ne hji.symm).trans h,
        (resume_of_ne j other s.redis outcome hji).1⟩
  | send => exact ⟨fun _ h => h, rfl⟩
  | broadcast => exact ⟨fun _ h => h, rfl⟩

/-! ## A stream that has subscribed -/

/-- The stream has subscribed and has yielded the notifications in `delivered` of those in `inbox`.
While it goes on, the others wait for it. -/
structure Serves (s : System) (i : ℕ) (st : Stream) (inbox delivered : List NotificationSchema) :
    Prop where
  stream : s.streams[i]? = some st
  begun : st.point ≠ .subscribing
  emits : EventStream.Emits st.sent (delivered.map eventOf)
  isPrefix : delivered <+: inbox
  subscribed : st.point.isOpen = true →
    ∀ channel, s.redis.channels i channel = decide (channel ∈ st.channels)
  waits : st.point.isOpen = true →
    delivered.map (·.modelDumpJson) ++ s.redis.waiting i = inbox.map (·.modelDumpJson)

namespace Serves

variable {s : System} {i : ℕ} {st : Stream} {inbox delivered : List NotificationSchema}

theorem kept (h : Serves s i st inbox delivered) {op : Op}
    (hop : ∀ outcome, op ≠ .wake i outcome)
    (hreplies : (step s op).redis.waiting i = s.redis.waiting i) :
    Serves (step s op) i st inbox delivered := by
  have hframe := step_frame hop (s := s)
  refine ⟨hframe.1 st h.stream, h.begun, h.emits, h.isPrefix,
    fun hopen channel => ?_, fun hopen => ?_⟩
  · rw [hframe.2]
    exact h.subscribed hopen channel
  · rw [hreplies]
    exact h.waits hopen

/-- A notification is published on the channel. -/
theorem publish (h : Serves s i st inbox delivered) (channel : String) (n : NotificationSchema) :
    Serves { s with redis := s.redis.publish channel n.modelDumpJson } i st
      (inbox ++ if channel ∈ st.channels then [n] else []) delivered := by
  refine ⟨h.stream, h.begun, h.emits, h.isPrefix.trans (List.prefix_append _ _), h.subscribed, ?_⟩
  intro hopen
  rw [Broker.waiting_publish, h.subscribed hopen, ← List.append_assoc, h.waits hopen,
    List.map_append]
  by_cases hmem : channel ∈ st.channels
  · rw [decide_eq_true hmem, if_pos rfl, if_pos hmem]
    rfl
  · rw [decide_eq_false hmem, if_neg Bool.false_ne_true, if_neg hmem]
    rfl

theorem mem_channels (st : Stream) (userId : Uuid) :
    userChannel userId ∈ st.channels ↔ userId = st.userId := by
  rw [Stream.channels, List.mem_cons, List.mem_singleton, userChannel_injective.eq_iff,
    or_iff_left (userChannel_ne_broadcast userId)]

/-- Whatever else happens, what is addressed to the user waits for the stream. -/
theorem other (h : Serves s i st inbox delivered) {op : Op}
    (hop : ∀ outcome, op ≠ .wake i outcome) :
    Serves (step s op) i st (inbox ++ (op.addressedTo st.userId).toList) delivered := by
  cases op with
  | connect userId =>
    rw [Op.addressedTo, Option.toList_none, List.append_nil]
    exact h.kept hop rfl
  | wake j outcome =>
    have hji : i ≠ j := by
      rintro rfl
      exact hop outcome rfl
    rw [Op.addressedTo, Option.toList_none, List.append_nil]
    refine h.kept hop ?_
    cases hj : s.streams[j]? with
    | none => simp only [step, hj]
    | some st' =>
      rw [step_wake hj, Broker.waiting, (resume_of_ne j st' s.redis outcome hji).2, Broker.waiting]
  | send userId n =>
    have hsent := h.publish (userChannel userId) n
    simp only [mem_channels] at hsent
    rw [Op.addressedTo]
    split_ifs at hsent ⊢ <;> exact hsent
  | broadcast n =>
    have hsent := h.publish broadcastChannel n
    have hmem : broadcastChannel ∈ st.channels := List.mem_cons_of_mem _ (List.mem_singleton_self _)
    rw [if_pos hmem] at hsent
    exact hsent

/-- What a stream takes next is a notification that waits for it, if it is a message. -/
theorem exists_news (h : Serves s i st inbox delivered) (hopen : st.point.isOpen = true) :
    ∃ news : List NotificationSchema,
      news.map (·.modelDumpJson) = ((s.redis.take i).1.bind Broker.messageOf).toList ∧
        delivered ++ news <+: inbox := by
  have hwaits := h.waits hopen
  rw [Broker.waiting_take] at hwaits
  obtain ⟨before, rest, rfl, hbefore, hrest⟩ := List.map_eq_append_iff.mp hwaits.symm
  obtain ⟨news, later, rfl, hnews, -⟩ := List.map_eq_append_iff.mp hrest
  have heq : before = delivered :=
    NotificationSchema.modelDumpJson_injective.list_map hbefore
  exact ⟨news, hnews, heq ▸ ⟨later, List.append_assoc ..⟩⟩

/-- The stream goes on without yielding a message. -/
theorem move (h : Serves s i st inbox delivered) (outcome : Outcome)
    (hsent : (st.resume i s.redis outcome).1.sent = st.sent)
    (hopen : (st.resume i s.redis outcome).1.point.isOpen = true →
      st.point.isOpen = true ∧ (st.resume i s.redis outcome).2 = s.redis) :
    Serves (step s (.wake i outcome)) i (st.resume i s.redis outcome).1 inbox delivered := by
  have hchannels : (st.resume i s.redis outcome).1.channels = st.channels := by
    rw [Stream.channels, userId_resume, Stream.channels]
  refine ⟨getElem?_wake h.stream outcome, point_resume_ne i st s.redis outcome, ?_, h.isPrefix,
    fun hpoint => ?_, fun hpoint => ?_⟩
  · rw [hsent]
    exact h.emits
  · obtain ⟨hbefore, hredis⟩ := hopen hpoint
    rw [step_wake h.stream, hredis, hchannels]
    exact h.subscribed hbefore
  · obtain ⟨hbefore, hredis⟩ := hopen hpoint
    rw [step_wake h.stream, hredis]
    exact h.waits hbefore

/-- `get_message` returns. -/
theorem receive (h : Serves s i st inbox delivered) (hpoint : st.point = .receiving)
    (outcome : Outcome) (houtcome : ∀ executed, outcome ≠ .raises executed) :
    ∃ news : List NotificationSchema,
      news.map (·.modelDumpJson) = ((s.redis.take i).1.bind Broker.messageOf).toList ∧
        (step s (.wake i outcome)).redis = (s.redis.take i).2 ∧
        Serves (step s (.wake i outcome)) i (st.yields (frame (s.redis.take i).1)) inbox
          (delivered ++ news) := by
  have hopen : st.point.isOpen = true := by rw [hpoint]; rfl
  have hresume : st.resume i s.redis outcome =
      (st.yields (frame (s.redis.take i).1), (s.redis.take i).2) := by
    unfold Stream.resume
    rw [hpoint]
    cases outcome with
    | returns => rfl
    | disconnected => rfl
    | raises executed => exact absurd rfl (houtcome executed)
  have hstep := step_wake h.stream outcome
  rw [hresume] at hstep
  obtain ⟨news, hnews, hprefix⟩ := h.exists_news hopen
  refine ⟨news, hnews, by rw [hstep], ?_⟩
  have hstream := getElem?_wake h.stream outcome
  rw [hresume] at hstream
  refine ⟨hstream, nofun, ?_, hprefix, fun _ => ?_, fun _ => ?_⟩
  · rw [List.map_append]
    refine h.emits.append ?_
    -- a message is framed, and for everything else there is a ping
    cases hreply : (s.redis.take i).1 with
    | none =>
      rw [hreply] at hnews
      rw [List.map_eq_nil_iff.mp hnews]
      exact emits_pingFrame
    | some reply =>
      rw [hreply] at hnews
      cases reply with
      | confirm channel =>
        rw [List.map_eq_nil_iff.mp hnews]
        exact emits_pingFrame
      | message channel data =>
        obtain ⟨n, rfl, hn⟩ := List.map_eq_singleton_iff.mp hnews
        rw [frame, ← hn]
        exact emits_notificationFrame n
  · rw [hstep]
    exact h.subscribed hopen
  · rw [hstep, List.map_append, hnews, List.append_assoc, ← Broker.waiting_take]
    exact h.waits hopen

theorem wake (h : Serves s i st inbox delivered) (outcome : Outcome) :
    ∃ delivered', delivered <+: delivered' ∧
      Serves (step s (.wake i outcome)) i (st.resume i s.redis outcome).1 inbox delivered' := by
  by_cases hreceives : st.point = .receiving ∧ ∀ executed, outcome ≠ .raises executed
  · obtain ⟨hpoint, houtcome⟩ := hreceives
    obtain ⟨news, -, -, hserves⟩ := h.receive hpoint outcome houtcome
    have hstream := getElem?_wake h.stream outcome
    rw [hserves.stream] at hstream
    rw [← Option.some.inj hstream]
    exact ⟨_, List.prefix_append _ _, hserves⟩
  · refine ⟨delivered, List.prefix_refl _, h.move outcome ?_ ?_⟩
    · unfold Stream.resume
      split <;> simp_all [Stream.goTo]
    · have hbegun := h.begun
      unfold Stream.resume
      split <;> simp_all [Stream.goTo, Point.isOpen]

/-- Every step of the system keeps what a stream has promised. -/
theorem next (h : Serves s i st inbox delivered) (op : Op) : ∃ st' delivered',
    st'.userId = st.userId ∧ delivered <+: delivered' ∧
      Serves (step s op) i st' (inbox ++ (op.addressedTo st.userId).toList) delivered' := by
  by_cases hop : ∀ outcome, op ≠ .wake i outcome
  · exact ⟨st, delivered, rfl, List.prefix_refl _, h.other hop⟩
  · obtain ⟨outcome, hwake⟩ := not_forall.mp hop
    obtain rfl := not_not.mp hwake
    obtain ⟨delivered', hprefix, hserves⟩ := h.wake outcome
    rw [Op.addressedTo, Option.toList_none, List.append_nil]
    exact ⟨_, delivered', userId_resume i st s.redis outcome, hprefix, hserves⟩

theorem run (h : Serves s i st inbox delivered) (ops : List Op) : ∃ st' delivered',
    st'.userId = st.userId ∧ delivered <+: delivered' ∧
      Serves (FastapiTemplate.run step s ops) i st' (inbox ++ addressed st.userId ops)
        delivered' := by
  induction ops generalizing s st inbox delivered with
  | nil =>
    refine ⟨st, delivered, rfl, List.prefix_refl _, ?_⟩
    rw [addressed, List.filterMap_nil, List.append_nil]
    exact h
  | cons op ops ih =>
    obtain ⟨st', delivered', huser, hprefix, hnext⟩ := h.next op
    obtain ⟨st'', delivered'', huser', hprefix', hrun⟩ := ih hnext
    refine ⟨st'', delivered'', huser'.trans huser, hprefix.trans hprefix', ?_⟩
    have hlog : addressed st.userId (op :: ops) =
        (op.addressedTo st.userId).toList ++ addressed st.userId ops := by
      unfold addressed
      cases hop : op.addressedTo st.userId with
      | none => rw [List.filterMap_cons_none hop]; rfl
      | some n => rw [List.filterMap_cons_some hop]; rfl
    rw [hlog, ← List.append_assoc, ← huser]
    rw [huser] at hrun ⊢
    exact hrun

end Serves

/-! ## Before a stream subscribes -/

/-- Where no stream has subscribed, nothing is subscribed and nothing waits. -/
structure Quiet (s : System) : Prop where
  silent : ∀ i, (∀ st, s.streams[i]? = some st → st.point = .subscribing) →
    (∀ channel, s.redis.channels i channel = false) ∧ s.redis.replies i = []
  unsent : ∀ (i : ℕ) (st : Stream), s.streams[i]? = some st → st.point = .subscribing → st.sent = []

theorem quiet_initial : Quiet initial := ⟨fun _ _ => ⟨fun _ => rfl, rfl⟩, nofun⟩

theorem Quiet.publish {s : System} (h : Quiet s) (channel data : String) :
    Quiet { s with redis := s.redis.publish channel data } := by
  refine ⟨fun i hi => ?_, h.unsent⟩
  obtain ⟨hchannels, hreplies⟩ := h.silent i hi
  refine ⟨hchannels, ?_⟩
  simp only [Broker.publish, hchannels, Bool.false_eq_true, if_false, hreplies]

theorem Quiet.step {s : System} (h : Quiet s) (op : Op) : Quiet (step s op) := by
  cases op with
  | connect userId =>
    constructor
    · intro i hi
      refine h.silent i (fun st hst => hi st ?_)
      obtain ⟨hlt, -⟩ := List.getElem?_eq_some_iff.mp hst
      exact (List.getElem?_append_left hlt).trans hst
    · intro i st hst hpoint
      rcases List.mem_append.mp (List.mem_of_getElem? hst) with hmem | hmem
      · obtain ⟨j, hj⟩ := List.getElem?_of_mem hmem
        exact h.unsent j st hj hpoint
      · rw [List.mem_singleton.mp hmem]
  | wake j outcome =>
    cases hj : s.streams[j]? with
    | none =>
      have hsame : NotificationStreams.step s (.wake j outcome) = s := by
        simp only [NotificationStreams.step, hj]
      rw [hsame]
      exact h
    | some other =>
      have hself := getElem?_wake hj outcome
      have hframe {i : ℕ} (hij : i ≠ j) :
          (NotificationStreams.step s (.wake j outcome)).streams[i]? = s.streams[i]? := by
        rw [step_wake hj]
        exact List.getElem?_set_ne hij.symm
      constructor
      · intro i hi
        by_cases hij : i = j
        · subst hij
          exact absurd (hi _ hself) (point_resume_ne i other s.redis outcome)
        · rw [hframe hij] at hi
          obtain ⟨hchannels, hreplies⟩ := h.silent i hi
          rw [step_wake hj, (resume_of_ne j other s.redis outcome hij).1,
            (resume_of_ne j other s.redis outcome hij).2]
          exact ⟨hchannels, hreplies⟩
      · intro i st hst hpoint
        by_cases hij : i = j
        · subst hij
          rw [hself] at hst
          rw [← Option.some.inj hst] at hpoint
          exact absurd hpoint (point_resume_ne i other s.redis outcome)
        · rw [hframe hij] at hst
          exact h.unsent i st hst hpoint
  | send userId n => exact h.publish _ _
  | broadcast n => exact h.publish _ _

theorem quiet_run (ops : List Op) : Quiet (run step initial ops) := by
  have hrun : RunsWhere step (fun _ _ => True) initial (run step initial ops) :=
    RunsWhere.of_run (fun _ _ _ => trivial) initial
  exact hrun.invariant quiet_initial (fun _ op _ h => h.step op)

/-- `subscribe` returns. -/
theorem Quiet.subscribe {s : System} (h : Quiet s) {i : ℕ} {st : Stream}
    (hstream : s.streams[i]? = some st) (hpoint : st.point = .subscribing) :
    Serves (NotificationStreams.step s (.wake i .returns)) i (st.goTo .checking) [] [] := by
  have hresume : st.resume i s.redis .returns =
      (st.goTo .checking, s.redis.subscribe i st.channels) := by
    unfold Stream.resume
    rw [hpoint]
  have hself := getElem?_wake hstream .returns
  have hstep := step_wake hstream .returns
  rw [hresume] at hself hstep
  obtain ⟨hchannels, hreplies⟩ := h.silent i (fun st' hst' => by
    rw [hstream] at hst'
    rw [← Option.some.inj hst', hpoint])
  refine ⟨hself, nofun, ?_, List.prefix_refl _, fun _ channel => ?_, fun _ => ?_⟩
  · rw [Stream.goTo, h.unsent i st hstream hpoint]
    exact EventStream.Emits.nil
  · rw [hstep, Broker.channels_subscribe, hchannels, Bool.false_or]
    rfl
  · rw [hstep, Broker.waiting_subscribe, Broker.waiting, hreplies]
    rfl

/-! ## What the client reads -/

def readEvent (e : EventStream.Event) : String × Option PyValue := (e.name, PyValue.loads e.data)

def shown (n : NotificationSchema) : String × Option PyValue := ("notification", some n.modelDump)

theorem readEvent_eventOf (n : NotificationSchema) : readEvent (eventOf n) = shown n := by
  rw [readEvent, eventOf, n.loads_modelDumpJson, shown]

theorem Serves.readEvents {s : System} {i : ℕ} {st : Stream}
    {inbox delivered : List NotificationSchema} (h : Serves s i st inbox delivered) :
    (EventStream.events st.sent).map readEvent = delivered.map shown := by
  rw [h.emits.events_eq, List.map_map]
  exact List.map_congr_left (fun n _ => readEvent_eventOf n)

theorem serves_after_subscribe {before : List Op} {i : ℕ} {st : Stream}
    (hstream : (run step initial before).streams[i]? = some st) (hpoint : st.point = .subscribing)
    (after : List Op) : ∃ st' delivered, Serves
      (run step initial (before ++ .wake i .returns :: after)) i st' (addressed st.userId after)
        delivered := by
  have hsubscribed := (quiet_run before).subscribe hstream hpoint
  obtain ⟨st', delivered, -, -, hserves⟩ := hsubscribed.run after
  rw [run_append, run_cons]
  exact ⟨st', delivered, hserves⟩

/-- Once a stream has subscribed, what its client has read at any time is a prefix of what has been
addressed to its user since, each notification once and in order; and while the stream goes on, what
is missing waits for it. -/
theorem stream_delivers {before : List Op} {i : ℕ} {st : Stream}
    (hstream : (run step initial before).streams[i]? = some st) (hpoint : st.point = .subscribing)
    (after : List Op) : ∃ st',
      (run step initial (before ++ .wake i .returns :: after)).streams[i]? = some st' ∧
      (∀ text, text <+: st'.sent → (EventStream.events text).map readEvent <+:
        (addressed st.userId after).map shown) ∧
      (st'.point.isOpen = true → (EventStream.events st'.sent).map readEvent ++
        ((run step initial (before ++ .wake i .returns :: after)).redis.waiting i).map
          (fun data => ("notification", PyValue.loads data)) =
        (addressed st.userId after).map shown) := by
  obtain ⟨st', delivered, hserves⟩ := serves_after_subscribe hstream hpoint after
  refine ⟨st', hserves.stream, fun text htext => ?_, fun hopen => ?_⟩
  · have hsent : (EventStream.events text).map readEvent <+: delivered.map shown := by
      rw [← hserves.readEvents]
      exact (EventStream.events_prefix htext).map readEvent
    exact hsent.trans (hserves.isPrefix.map shown)
  · have hread (ns : List NotificationSchema) : (ns.map (·.modelDumpJson)).map
        (fun data => ("notification", PyValue.loads data)) = ns.map shown := by
      rw [List.map_map]
      refine List.map_congr_left (fun n _ => ?_)
      rw [Function.comp_apply, n.loads_modelDumpJson, shown]
    rw [hserves.readEvents, ← hread, ← hread, ← hserves.waits hopen, List.map_append]

/-! ## Nothing stays behind -/

def Op.wakes (i : ℕ) : Op → Bool
  | .wake j _ => j = i
  | _ => false

/-- How often the stream has to be resumed until it has taken the first reply. -/
def Point.distance : Point → ℕ
  | .receiving => 1
  | .checking => 2
  | .yielding => 3
  | _ => 0

def Point.wakesFor (point : Point) : ℕ → ℕ
  | 0 => 0
  | replies + 1 => point.distance + 3 * replies

theorem wakesFor_le (point : Point) (replies : ℕ) : point.wakesFor replies ≤ 3 * replies := by
  cases replies with
  | zero => rfl
  | succ replies => cases point <;> simp only [Point.wakesFor, Point.distance] <;> omega

theorem wakesFor_receiving : ∀ replies : ℕ,
    Point.yielding.wakesFor (replies - 1) ≤ Point.receiving.wakesFor replies - 1
  | 0 => Nat.zero_le _
  | 1 => Nat.le_refl _
  | replies + 2 => by
    change 3 + 3 * replies ≤ 1 + 3 * (replies + 1) - 1
    omega

/-- The notifications in `old` are yielded, or are among the first replies that wait. -/
structure Owes (s : System) (i : ℕ) (st : Stream) (inbox delivered old : List NotificationSchema)
    (replies : ℕ) : Prop where
  serves : Serves s i st inbox delivered
  isOpen : st.point.isOpen = true
  within : old.map (·.modelDumpJson) <+: delivered.map (·.modelDumpJson) ++
    ((s.redis.replies i).take replies).filterMap Broker.messageOf

namespace Owes

variable {s : System} {i : ℕ} {st : Stream} {inbox delivered old : List NotificationSchema}
  {replies : ℕ}

theorem paid (h : Owes s i st inbox delivered old 0) : old <+: delivered := by
  have hwithin := h.within
  rw [List.take_zero, List.filterMap_nil, List.append_nil] at hwithin
  obtain ⟨rest, hrest⟩ := hwithin
  obtain ⟨front, back, rfl, hfront, -⟩ := List.map_eq_append_iff.mp hrest.symm
  rw [NotificationSchema.modelDumpJson_injective.list_map hfront]
  exact List.prefix_append _ _

theorem of_serves (h : Serves s i st inbox delivered) (hopen : st.point.isOpen = true) :
    Owes s i st inbox delivered inbox (s.redis.replies i).length := by
  refine ⟨h, hopen, ?_⟩
  rw [List.take_length, ← h.waits hopen]
  exact List.prefix_refl _

theorem replies_grow {op : Op} (hop : op.wakes i = false) :
    ∃ more, (step s op).redis.replies i = s.redis.replies i ++ more := by
  have hpublish (channel data : String) :
      ∃ more, (s.redis.publish channel data).replies i = s.redis.replies i ++ more := by
    unfold Broker.publish
    dsimp only
    split_ifs
    · exact ⟨_, rfl⟩
    · exact ⟨[], (List.append_nil _).symm⟩
  cases op with
  | connect userId => exact ⟨[], (List.append_nil _).symm⟩
  | wake j outcome =>
    have hij : i ≠ j := by
      rintro rfl
      exact absurd hop (by simp [Op.wakes])
    refine ⟨[], ?_⟩
    rw [List.append_nil]
    cases hj : s.streams[j]? with
    | none => simp only [step, hj]
    | some other =>
      rw [step_wake hj]
      exact (resume_of_ne j other s.redis outcome hij).2
  | send userId n => exact hpublish _ _
  | broadcast n => exact hpublish _ _

theorem other (h : Owes s i st inbox delivered old replies) {op : Op} (hop : op.wakes i = false) :
    Owes (step s op) i st (inbox ++ (op.addressedTo st.userId).toList) delivered old replies := by
  have hne (outcome : Outcome) : op ≠ .wake i outcome := by
    rintro rfl
    exact absurd hop (by simp [Op.wakes])
  refine ⟨h.serves.other hne, h.isOpen, h.within.trans ?_⟩
  obtain ⟨more, hmore⟩ := replies_grow hop (s := s)
  rw [hmore, List.take_append, List.filterMap_append, ← List.append_assoc]
  exact List.prefix_append _ _

theorem wake (h : Owes s i st inbox delivered old replies) : ∃ st' delivered' replies',
    Owes (step s (.wake i .returns)) i st' inbox delivered' old replies' ∧
      st'.userId = st.userId ∧
      st'.point.wakesFor replies' ≤ st.point.wakesFor replies - 1 := by
  have hstep := step_wake h.serves.stream .returns
  cases hpoint : st.point with
  | receiving =>
    obtain ⟨news, hnews, hredis, hserves⟩ := h.serves.receive hpoint .returns nofun
    refine ⟨_, _, replies - 1, ⟨hserves, rfl, ?_⟩, rfl, ?_⟩
    · have hwithin := h.within
      rw [hredis, List.map_append, hnews, List.append_assoc]
      have hhead : (s.redis.take i).1 = (s.redis.replies i).head? := rfl
      have htail : (s.redis.take i).2.replies i = (s.redis.replies i).tail :=
        Function.update_self ..
      rw [hhead, htail]
      cases hreplies : s.redis.replies i with
      | nil => simpa [hreplies] using hwithin
      | cons reply rest =>
        rw [hreplies] at hwithin
        cases replies with
        | zero =>
          rw [List.take_zero, List.filterMap_nil, List.append_nil] at hwithin
          exact hwithin.trans (List.prefix_append _ _)
        | succ replies => cases reply <;> exact hwithin
    · exact wakesFor_receiving replies
  | checking =>
    have hresume : st.resume i s.redis .returns = (st.goTo .receiving, s.redis) := by
      unfold Stream.resume
      rw [hpoint]
    have hmove := h.serves.move .returns (by rw [hresume]; rfl)
      (fun _ => ⟨h.isOpen, by rw [hresume]⟩)
    rw [hresume] at hmove hstep
    refine ⟨_, delivered, replies, ⟨hmove, rfl, ?_⟩, rfl, ?_⟩
    · rw [hstep]
      exact h.within
    · cases replies <;> simp only [Point.wakesFor, Point.distance, Stream.goTo] <;> omega
  | yielding =>
    have hresume : st.resume i s.redis .returns = (st.goTo .checking, s.redis) := by
      unfold Stream.resume
      rw [hpoint]
    have hmove := h.serves.move .returns (by rw [hresume]; rfl)
      (fun _ => ⟨h.isOpen, by rw [hresume]⟩)
    rw [hresume] at hmove hstep
    refine ⟨_, delivered, replies, ⟨hmove, rfl, ?_⟩, rfl, ?_⟩
    · rw [hstep]
      exact h.within
    · cases replies <;> simp only [Point.wakesFor, Point.distance, Stream.goTo] <;> omega
  | _ => exact absurd h.isOpen (by rw [hpoint]; decide)

theorem run (h : Owes s i st inbox delivered old replies) (ops : List Op)
    (hreturns : ∀ outcome, .wake i outcome ∈ ops → outcome = .returns)
    (henough : st.point.wakesFor replies ≤ ops.countP (Op.wakes i)) :
    ∃ st' inbox' delivered', Serves (FastapiTemplate.run step s ops) i st' inbox' delivered' ∧
      old <+: delivered' := by
  induction ops generalizing s st inbox delivered replies with
  | nil =>
    have hzero : replies = 0 := by
      have hopen := h.isOpen
      rw [List.countP_nil, Nat.le_zero] at henough
      cases replies with
      | zero => rfl
      | succ replies => cases hpoint : st.point <;> simp_all [Point.wakesFor, Point.distance,
          Point.isOpen]
    subst hzero
    exact ⟨st, inbox, delivered, h.serves, h.paid⟩
  | cons op ops ih =>
    have hrest : ∀ outcome, .wake i outcome ∈ ops → outcome = .returns :=
      fun outcome hmem => hreturns outcome (List.mem_cons_of_mem op hmem)
    rw [List.countP_cons] at henough
    cases hop : op.wakes i with
    | false =>
      rw [hop, if_neg Bool.false_ne_true, Nat.add_zero] at henough
      exact ih (h.other hop) hrest henough
    | true =>
      cases op with
      | wake j outcome =>
        obtain rfl : j = i := of_decide_eq_true hop
        obtain rfl := hreturns outcome List.mem_cons_self
        obtain ⟨st', delivered', replies', howes, -, hwakes⟩ := h.wake
        rw [hop, if_pos rfl] at henough
        exact ih howes hrest (by omega)
      | _ => exact absurd hop Bool.false_ne_true

end Owes

/-- What has been addressed to the user of a stream reaches the client, whatever happens next, if
the stream is resumed three times for each reply that waits and stays connected. -/
theorem stream_catches_up {before after more : List Op} {i : ℕ} {st st' : Stream}
    (hstream : (run step initial before).streams[i]? = some st) (hpoint : st.point = .subscribing)
    (hstream' : (run step initial (before ++ .wake i .returns :: after)).streams[i]? = some st')
    (hopen : st'.point.isOpen = true)
    (hreturns : ∀ outcome, .wake i outcome ∈ more → outcome = .returns)
    (henough :
      3 * ((run step initial (before ++ .wake i .returns :: after)).redis.replies i).length ≤
        more.countP (Op.wakes i)) : ∃ st'',
      (run step initial (before ++ .wake i .returns :: after ++ more)).streams[i]? = some st'' ∧
      (addressed st.userId after).map shown <+: (EventStream.events st''.sent).map readEvent := by
  obtain ⟨st₀, delivered, hserves⟩ := serves_after_subscribe hstream hpoint after
  obtain rfl : st₀ = st' := Option.some.inj (hserves.stream.symm.trans hstream')
  obtain ⟨st'', inbox', delivered', hserves', hold⟩ :=
    (Owes.of_serves hserves hopen).run more hreturns ((wakesFor_le _ _).trans henough)
  rw [← run_append] at hserves'
  refine ⟨st'', hserves'.stream, ?_⟩
  rw [hserves'.readEvents]
  exact hold.map shown

/-! ## Two users -/

def firstUser : Uuid := ⟨0, by decide⟩

def secondUser : Uuid := ⟨1, by decide⟩

def firstStream : Stream := ⟨firstUser, .subscribing, []⟩

theorem firstStream_connects :
    (run step initial [.connect firstUser]).streams[0]? = some firstStream :=
  rfl

theorem isJson_noMetadata : (PyValue.dict []).IsJson := ⟨rfl, rfl⟩

def hello : NotificationSchema := { message := "Hello", metadata_isJson := isJson_noMetadata }

/-- The stream of the first user subscribes; the second user and then everybody is notified. -/
theorem stream_delivers_hello : ∃ st',
    (run step initial ([.connect firstUser] ++ .wake 0 .returns ::
      [.send secondUser hello, .broadcast hello])).streams[0]? = some st' ∧
    (∀ text, text <+: st'.sent → (EventStream.events text).map readEvent <+:
      (addressed firstUser [.send secondUser hello, .broadcast hello]).map shown) ∧
    (st'.point.isOpen = true → (EventStream.events st'.sent).map readEvent ++
      ((run step initial ([.connect firstUser] ++ .wake 0 .returns ::
        [.send secondUser hello, .broadcast hello])).redis.waiting 0).map
          (fun data => ("notification", PyValue.loads data)) =
      (addressed firstUser [.send secondUser hello, .broadcast hello]).map shown) :=
  stream_delivers firstStream_connects rfl [.send secondUser hello, .broadcast hello]

theorem stream_catches_up_hello : ∃ st'',
    (run step initial ([.connect firstUser] ++ .wake 0 .returns :: [.send firstUser hello] ++
      List.replicate 9 (.wake 0 .returns))).streams[0]? = some st'' ∧
    (addressed firstUser [.send firstUser hello]).map shown <+:
      (EventStream.events st''.sent).map readEvent := by
  have hsent : (run step initial ([.connect firstUser] ++ .wake 0 .returns ::
      [.send firstUser hello])).streams[0]? = some (firstStream.goTo .checking) := rfl
  refine stream_catches_up firstStream_connects rfl hsent rfl (fun outcome h => ?_) ?_
  · cases List.eq_of_mem_replicate h
    rfl
  · decide +kernel

end FastapiTemplate.NotificationStreams
