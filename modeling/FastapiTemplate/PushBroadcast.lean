import FastapiTemplate.JsonColumns
import FastapiTemplate.RetriedAttempts

/-!
# Push notifications to all devices

`FCMChannel.broadcast` hands all active tokens to one task, and the task puts them into one
multicast message. Firebase takes at most 500 tokens in a message. The task is retried when it
raises an exception, whatever it has sent by then.
-/

namespace FastapiTemplate.PushBroadcast

/-! ## Devices -/

structure UserDevice where
  fcmToken : String
  isActive : Bool
  updatedAt : ℕ
  deriving DecidableEq, Repr

structure UserDevices where
  rows : List UserDevice
  unique : (rows.map (·.fcmToken)).Nodup

namespace DeviceDAO

def getAllActiveTokens (t : UserDevices) : List String :=
  (t.rows.filter (·.isActive)).map (·.fcmToken)

def deactivateRow (tokens : List String) (now : ℕ) (row : UserDevice) : UserDevice :=
  if row.fcmToken ∈ tokens then { row with isActive := false, updatedAt := now } else row

theorem fcmToken_deactivateRow (tokens : List String) (now : ℕ) (row : UserDevice) :
    (deactivateRow tokens now row).fcmToken = row.fcmToken := by
  unfold deactivateRow
  split_ifs <;> rfl

def deactivateTokens (tokens : List String) (now : ℕ) (t : UserDevices) : UserDevices :=
  if tokens = [] then t
  else
    { rows := t.rows.map (deactivateRow tokens now)
      unique := by
        have hsame : (fun row => (deactivateRow tokens now row).fcmToken) = (·.fcmToken) :=
          funext (fcmToken_deactivateRow tokens now)
        rw [List.map_map, Function.comp_def, hsame]
        exact t.unique }

end DeviceDAO

/-! ## Firebase -/

/-- The constructor takes at most 500 tokens. -/
structure MulticastMessage where
  tokens : List String
  title : String
  body : String
  data : List (String × String)
  atMost : tokens.length ≤ 500

def MulticastMessage.make? (tokens : List String) (title body : String)
    (data : List (String × String)) : Option MulticastMessage :=
  if h : tokens.length ≤ 500 then some ⟨tokens, title, body, data, h⟩ else none

/-- The code of the exception, if there is one. -/
structure SendResponse where
  messageId : Option String
  exception : Option String
  deriving DecidableEq, Repr

namespace SendResponse

def success (r : SendResponse) : Bool := r.messageId.isSome && r.exception.isNone

def isDead (r : SendResponse) : Bool :=
  !r.success && r.exception.any (· ∈ ["NOT_FOUND", "UNREGISTERED", "INVALID_ARGUMENT"])

end SendResponse

inductive FirebaseApp
  | raises
  | missing
  | ready
  deriving DecidableEq, Repr

/-- What one attempt of the task finds. `send_each_for_multicast` returns a response for each token
in their order, or raises an exception. -/
structure Surroundings where
  app : FirebaseApp
  send : MulticastMessage → Option (List SendResponse)
  send_length : ∀ message responses, send message = some responses →
    responses.length = message.tokens.length
  devices : UserDevices
  now : ℕ
  /-- The statement that deactivates tokens goes through. -/
  executes : Bool

/-! ## The task -/

structure PushArgs where
  tokens : List String
  title : Option String
  body : String
  data : Option (List (String × PyValue))

structure Effect where
  submitted : List MulticastMessage
  reported : List (String × SendResponse)
  before : UserDevices
  after : UserDevices
  raised : Bool

/-- `tokens[idx]` for every dead response; `none` if an index is out of range. -/
def deadTokens (tokens : List String) : ℕ → List SendResponse → Option (List String)
  | _, [] => some []
  | idx, r :: responses =>
    if r.isDead then
      tokens[idx]?.bind fun token => (deadTokens tokens (idx + 1) responses).map (token :: ·)
    else deadTokens tokens (idx + 1) responses

variable (str : PyValue → String)

def PushArgs.message? (args : PushArgs) : Option MulticastMessage :=
  MulticastMessage.make? args.tokens (PyValue.textOr args.title "New Notification") args.body
    ((args.data.getD []).map (fun kv => (kv.1, str kv.2)))

def sendFcmPushWorkerTask (args : PushArgs) (s : Surroundings) : Effect :=
  let nothing (raised : Bool) : Effect := ⟨[], [], s.devices, s.devices, raised⟩
  if args.tokens = [] then nothing false
  else
    match s.app with
    | .raises => nothing true
    | .missing => nothing false
    | .ready =>
      match args.message? str with
      | none => nothing true
      | some message =>
        match s.send message with
        | none => ⟨[message], [], s.devices, s.devices, true⟩
        | some responses =>
          let reported := args.tokens.zip responses
          match deadTokens args.tokens 0 responses with
          | none => ⟨[message], reported, s.devices, s.devices, true⟩
          | some [] => ⟨[message], reported, s.devices, s.devices, false⟩
          | some dead =>
            if s.executes then
              ⟨[message], reported, s.devices,
                DeviceDAO.deactivateTokens dead s.now s.devices, false⟩
            else ⟨[message], reported, s.devices, s.devices, true⟩

/-- `max_retries` of `AsyncBaseTask`, which retries after any exception. -/
def maxRetries : ℕ := 3

/-! ## The broadcast -/

structure NotificationSchema where
  message : String
  subject : Option String
  metadata : List (String × PyValue)

def broadcast (t : UserDevices) (notification : NotificationSchema) : Option PushArgs :=
  let tokens := DeviceDAO.getAllActiveTokens t
  if tokens = [] then none
  else some ⟨tokens, notification.subject, notification.message, some notification.metadata⟩

def attempts (args : PushArgs) (all : List Surroundings) : List Effect :=
  RetriedAttempts.made (sendFcmPushWorkerTask str args) (·.raised) all

/-- What the attempts do that follow a broadcast. `publishes` says whether the broker takes the
task. -/
def run (t : UserDevices) (notification : NotificationSchema) (publishes : Bool)
    (surroundings : ℕ → Surroundings) : List Effect :=
  match broadcast t notification with
  | none => []
  | some args =>
    if publishes then attempts str args ((List.range (maxRetries + 1)).map surroundings) else []

/-! ## Coverage -/

def deadIn (reported : List (String × SendResponse)) : List String :=
  (reported.filter (·.2.isDead)).map (·.1)

namespace Effect

/-- The tokens that are reported dead are not active any more, and nothing else changes in what is
active. -/
def PrunesExactly (e : Effect) : Prop :=
  e.after.rows.map (fun row => (row.fcmToken, row.isActive)) =
    e.before.rows.map (fun row =>
      (row.fcmToken, row.isActive && decide (row.fcmToken ∉ deadIn e.reported)))

end Effect

def submissions (effects : List Effect) : List MulticastMessage := effects.flatMap (·.submitted)

/-- Each active token is submitted once, in messages of at most 500 tokens, and exactly the tokens
reported dead are deactivated. -/
def Covers (t : UserDevices) (effects : List Effect) : Prop :=
  ((submissions effects).flatMap (·.tokens)).Perm (DeviceDAO.getAllActiveTokens t) ∧
    (∀ message ∈ submissions effects, message.tokens.length ≤ 500) ∧
    ∀ e ∈ effects, e.PrunesExactly

/-! ## Dead tokens -/

/-- The index of a response is that of its token. -/
theorem deadTokens_eq (tokens : List String) (responses : List SendResponse) (idx : ℕ)
    (h : idx + responses.length = tokens.length) :
    deadTokens tokens idx responses = some (deadIn ((tokens.drop idx).zip responses)) := by
  induction responses generalizing idx with
  | nil => rw [deadTokens, List.zip_nil_right]; rfl
  | cons r responses ih =>
    rw [List.length_cons] at h
    have hidx : idx < tokens.length := by omega
    have hrest := ih (idx + 1) (by omega)
    rw [deadTokens, List.drop_eq_getElem_cons hidx, List.zip_cons_cons, deadIn, List.filter_cons]
    split_ifs with hdead
    · rw [List.getElem?_eq_getElem hidx, Option.bind_some, hrest]
      rfl
    · exact hrest

theorem map_deactivateTokens (dead : List String) (now : ℕ) (t : UserDevices) :
    (DeviceDAO.deactivateTokens dead now t).rows.map (fun row => (row.fcmToken, row.isActive)) =
      t.rows.map (fun row => (row.fcmToken, row.isActive && decide (row.fcmToken ∉ dead))) := by
  unfold DeviceDAO.deactivateTokens
  split_ifs with hnil
  · subst hnil
    simp only [List.not_mem_nil, not_false_eq_true, decide_true, Bool.and_true]
  · rw [List.map_map]
    refine List.map_congr_left (fun row _ => ?_)
    rw [Function.comp_apply, DeviceDAO.fcmToken_deactivateRow, DeviceDAO.deactivateRow]
    split_ifs with hmem <;> simp [hmem]

/-! ## One attempt -/

namespace Surroundings

variable (s : Surroundings) (message : MulticastMessage)

def reported : List (String × SendResponse) := message.tokens.zip ((s.send message).getD [])

def dead : List String := deadIn (s.reported message)

def Prunes : Prop :=
  s.executes = true ∨ ∀ row ∈ s.devices.rows, row.isActive = true → row.fcmToken ∉ s.dead message

def Fails : Prop := s.send message = none ∨ (s.dead message ≠ [] ∧ s.executes = false)

instance : Decidable (s.Fails message) :=
  inferInstanceAs (Decidable (_ = none ∨ (_ ≠ [] ∧ _ = false)))

theorem deadTokens_of_send {responses : List SendResponse}
    (h : s.send message = some responses) :
    deadTokens message.tokens 0 responses = some (s.dead message) := by
  have hlen : 0 + responses.length = message.tokens.length := by
    rw [Nat.zero_add, s.send_length message responses h]
  rw [deadTokens_eq message.tokens responses 0 hlen, List.drop_zero, dead, reported, h,
    Option.getD_some]

end Surroundings

section attempts
variable {str} {args : PushArgs} {message : MulticastMessage}
  (hmessage : args.message? str = some message)
include hmessage

theorem tokens_of_message : message.tokens = args.tokens := by
  unfold PushArgs.message? MulticastMessage.make? at hmessage
  split_ifs at hmessage
  cases hmessage
  rfl

variable (htokens : args.tokens ≠ []) {s : Surroundings}
include htokens

theorem task_of_ready (hready : s.app = .ready) :
    sendFcmPushWorkerTask str args s =
      ⟨[message], s.reported message, s.devices,
        if s.executes then DeviceDAO.deactivateTokens (s.dead message) s.now s.devices
        else s.devices, decide (s.Fails message)⟩ := by
  have heq := tokens_of_message hmessage
  unfold sendFcmPushWorkerTask
  rw [if_neg htokens, hready, hmessage]
  dsimp only
  cases hsend : s.send message with
  | none =>
    have hfails : s.Fails message := .inl hsend
    have hreported : s.reported message = [] := by
      rw [Surroundings.reported, hsend, Option.getD_none, List.zip_nil_right]
    have hdead : s.dead message = [] := by rw [Surroundings.dead, hreported]; rfl
    rw [hreported, hdead, decide_eq_true hfails, DeviceDAO.deactivateTokens, if_pos rfl, ite_self]
  | some responses =>
    have hreported : s.reported message = args.tokens.zip responses := by
      rw [Surroundings.reported, hsend, Option.getD_some, heq]
    have hdead := s.deadTokens_of_send message hsend
    rw [heq] at hdead
    rw [hreported]
    dsimp only
    rw [hdead]
    cases hlist : s.dead message with
    | nil =>
      have hfails : ¬ s.Fails message := by simp [Surroundings.Fails, hsend, hlist]
      rw [decide_eq_false hfails, DeviceDAO.deactivateTokens, if_pos rfl, ite_self]
    | cons token dead =>
      cases hexec : s.executes
      · have hfails : s.Fails message := .inr ⟨hlist ▸ List.cons_ne_nil token dead, hexec⟩
        rw [decide_eq_true hfails]
        rfl
      · have hfails : ¬ s.Fails message := by simp [Surroundings.Fails, hsend, hexec]
        rw [decide_eq_false hfails]
        rfl

omit hmessage in
theorem task_of_not_ready (hready : s.app ≠ .ready) :
    sendFcmPushWorkerTask str args s =
      ⟨[], [], s.devices, s.devices, decide (s.app = .raises)⟩ := by
  unfold sendFcmPushWorkerTask
  rw [if_neg htokens]
  cases happ : s.app with
  | raises => rfl
  | missing => rfl
  | ready => exact absurd happ hready

theorem prunesExactly_of_ready (hready : s.app = .ready) :
    (sendFcmPushWorkerTask str args s).PrunesExactly ↔ s.Prunes message := by
  rw [task_of_ready hmessage htokens hready, Effect.PrunesExactly, Surroundings.Prunes]
  dsimp only
  cases s.executes
  · rw [if_neg Bool.false_ne_true, List.map_inj_left]
    simp only [Bool.false_eq_true, false_or, Prod.mk.injEq, true_and, Bool.eq_self_and,
      decide_eq_true_iff, Surroundings.dead]
  · rw [if_pos rfl, map_deactivateTokens]
    exact iff_of_true rfl (.inl rfl)

omit hmessage in
theorem prunesExactly_of_not_ready (hready : s.app ≠ .ready) :
    (sendFcmPushWorkerTask str args s).PrunesExactly := by
  rw [task_of_not_ready htokens hready, Effect.PrunesExactly]
  simp [deadIn]

end attempts

/-! ## All attempts -/

def Quiet : List Surroundings → Prop
  | [] => True
  | s :: rest => s.app ≠ .ready ∧ (s.app = .raises → Quiet rest)

/-- One of the attempts that are made finds Firebase ready, and leaves no dead token active. -/
def Once (message : MulticastMessage) : List Surroundings → Prop
  | [] => False
  | s :: rest => (s.app = .raises ∧ Once message rest) ∨
      (s.app = .ready ∧ s.Prunes message ∧ (s.Fails message → Quiet rest))

section attempts
variable {args : PushArgs} {s : Surroundings} {rest : List Surroundings}

theorem attempts_of_raised (h : (sendFcmPushWorkerTask str args s).raised = true) :
    attempts str args (s :: rest) = sendFcmPushWorkerTask str args s :: attempts str args rest :=
  RetriedAttempts.made_cons_of_failed _ _ h rest

theorem attempts_of_not_raised (h : (sendFcmPushWorkerTask str args s).raised = false) :
    attempts str args (s :: rest) = [sendFcmPushWorkerTask str args s] :=
  RetriedAttempts.made_cons_of_not_failed _ _ h rest

theorem submissions_cons (e : Effect) (effects : List Effect) :
    submissions (e :: effects) = e.submitted ++ submissions effects := List.flatMap_cons

variable {str} {message : MulticastMessage} (hmessage : args.message? str = some message)
  (htokens : args.tokens ≠ [])
include hmessage htokens

theorem submitted_of_ready (hready : s.app = .ready) :
    (sendFcmPushWorkerTask str args s).submitted = [message] := by
  rw [task_of_ready hmessage htokens hready]

theorem raised_of_ready (hready : s.app = .ready) :
    (sendFcmPushWorkerTask str args s).raised = decide (s.Fails message) := by
  rw [task_of_ready hmessage htokens hready]

omit hmessage in
theorem submitted_of_not_ready (hready : s.app ≠ .ready) :
    (sendFcmPushWorkerTask str args s).submitted = [] := by
  rw [task_of_not_ready htokens hready]

omit hmessage in
theorem raised_of_not_ready (hready : s.app ≠ .ready) :
    (sendFcmPushWorkerTask str args s).raised = decide (s.app = .raises) := by
  rw [task_of_not_ready htokens hready]

theorem eq_of_mem_submissions {all : List Surroundings} {m : MulticastMessage}
    (h : m ∈ submissions (attempts str args all)) : m = message := by
  obtain ⟨e, he, hm⟩ := List.mem_flatMap.mp h
  obtain ⟨s, -, rfl⟩ := RetriedAttempts.exists_of_mem_made _ _ he
  by_cases hready : s.app = .ready
  · rw [submitted_of_ready hmessage htokens hready] at hm
    exact List.mem_singleton.mp hm
  · rw [submitted_of_not_ready htokens hready] at hm
    cases hm

theorem submissions_eq_nil_iff (all : List Surroundings) :
    submissions (attempts str args all) = [] ↔ Quiet all := by
  induction all with
  | nil => exact iff_of_true rfl trivial
  | cons s rest ih =>
    rw [Quiet]
    by_cases hready : s.app = .ready
    · refine iff_of_false ?_ (fun h => h.1 hready)
      have hsubmitted := submitted_of_ready hmessage htokens hready
      cases hraised : (sendFcmPushWorkerTask str args s).raised
      · rw [attempts_of_not_raised str hraised, submissions_cons, hsubmitted]
        exact List.cons_ne_nil _ _
      · rw [attempts_of_raised str hraised, submissions_cons, hsubmitted]
        exact List.cons_ne_nil _ _
    · have hsubmitted : (sendFcmPushWorkerTask str args s).submitted = [] :=
        submitted_of_not_ready htokens hready
      have hraised : (sendFcmPushWorkerTask str args s).raised = decide (s.app = .raises) :=
        raised_of_not_ready htokens hready
      by_cases hraises : s.app = .raises
      · rw [decide_eq_true hraises] at hraised
        rw [attempts_of_raised str hraised, submissions_cons, hsubmitted, List.nil_append, ih]
        exact ⟨fun h => ⟨hready, fun _ => h⟩, fun h => h.2 hraises⟩
      · rw [decide_eq_false hraises] at hraised
        rw [attempts_of_not_raised str hraised, submissions_cons, hsubmitted]
        exact iff_of_true rfl ⟨hready, fun h => absurd h hraises⟩

theorem prunesExactly_of_quiet {all : List Surroundings}
    (h : submissions (attempts str args all) = []) :
    ∀ e ∈ attempts str args all, e.PrunesExactly := by
  intro e he
  have hsubmitted : e.submitted = [] := List.flatMap_eq_nil_iff.mp h e he
  obtain ⟨s, -, rfl⟩ := RetriedAttempts.exists_of_mem_made _ _ he
  by_cases hready : s.app = .ready
  · rw [submitted_of_ready hmessage htokens hready] at hsubmitted
    cases hsubmitted
  · exact prunesExactly_of_not_ready htokens hready

theorem once_iff (all : List Surroundings) :
    ((submissions (attempts str args all)).length = 1 ∧
      ∀ e ∈ attempts str args all, e.PrunesExactly) ↔ Once message all := by
  induction all with
  | nil => exact iff_of_false (fun h => absurd h.1 Nat.zero_ne_one) not_false
  | cons s rest ih =>
    rw [Once]
    by_cases hready : s.app = .ready
    · have hsubmitted := submitted_of_ready hmessage htokens hready
      have hraised := raised_of_ready hmessage htokens hready
      have hprunes := prunesExactly_of_ready hmessage htokens hready
      have hraises : s.app ≠ .raises := by rw [hready]; exact nofun
      by_cases hfails : s.Fails message
      · rw [decide_eq_true hfails] at hraised
        rw [attempts_of_raised str hraised, submissions_cons, hsubmitted, List.length_append,
          List.length_singleton, List.forall_mem_cons, hprunes, Nat.add_eq_left,
          List.length_eq_zero_iff]
        have hquiet := submissions_eq_nil_iff hmessage htokens rest
        constructor
        · rintro ⟨hnil, hs, -⟩
          exact .inr ⟨hready, hs, fun _ => hquiet.mp hnil⟩
        · rintro (⟨h, -⟩ | ⟨-, hs, hrest⟩)
          · exact absurd h hraises
          · have hnil := hquiet.mpr (hrest hfails)
            exact ⟨hnil, hs, prunesExactly_of_quiet hmessage htokens hnil⟩
      · rw [decide_eq_false hfails] at hraised
        rw [attempts_of_not_raised str hraised, submissions_cons, hsubmitted,
          List.forall_mem_singleton, hprunes]
        constructor
        · rintro ⟨-, hs⟩
          exact .inr ⟨hready, hs, fun h => absurd h hfails⟩
        · rintro (⟨h, -⟩ | ⟨-, hs, -⟩)
          · exact absurd h hraises
          · exact ⟨rfl, hs⟩
    · have hsubmitted : (sendFcmPushWorkerTask str args s).submitted = [] :=
        submitted_of_not_ready htokens hready
      have hraised : (sendFcmPushWorkerTask str args s).raised = decide (s.app = .raises) :=
        raised_of_not_ready htokens hready
      have hprunes : (sendFcmPushWorkerTask str args s).PrunesExactly :=
        prunesExactly_of_not_ready htokens hready
      by_cases hraises : s.app = .raises
      · rw [decide_eq_true hraises] at hraised
        rw [attempts_of_raised str hraised, submissions_cons, hsubmitted, List.nil_append,
          List.forall_mem_cons]
        constructor
        · rintro ⟨hone, -, hall⟩
          exact .inl ⟨hraises, ih.mp ⟨hone, hall⟩⟩
        · rintro (⟨-, h⟩ | ⟨h, -⟩)
          · exact ⟨(ih.mpr h).1, hprunes, (ih.mpr h).2⟩
          · exact absurd h hready
      · rw [decide_eq_false hraises] at hraised
        rw [attempts_of_not_raised str hraised, submissions_cons, hsubmitted]
        refine iff_of_false (fun h => absurd h.1 Nat.zero_ne_one) ?_
        rintro (⟨h, -⟩ | ⟨h, -⟩)
        · exact hraises h
        · exact hready h

omit hmessage htokens in
/-- Nothing is submitted where the constructor of the message raises an exception. -/
theorem submissions_of_no_message (htokens : args.tokens ≠ []) (hnone : args.message? str = none)
    (all : List Surroundings) : submissions (attempts str args all) = [] := by
  refine List.flatMap_eq_nil_iff.mpr (fun e he => ?_)
  obtain ⟨s, -, rfl⟩ := RetriedAttempts.exists_of_mem_made _ _ he
  unfold sendFcmPushWorkerTask
  rw [if_neg htokens, hnone]
  cases s.app <;> rfl

theorem covers_attempts_iff (t : UserDevices)
    (hactive : args.tokens = DeviceDAO.getAllActiveTokens t) (all : List Surroundings) :
    Covers t (attempts str args all) ↔ Once message all := by
  rw [← once_iff hmessage htokens, Covers]
  have heq (m : MulticastMessage) (hm : m ∈ submissions (attempts str args all)) : m = message :=
    eq_of_mem_submissions hmessage htokens hm
  have hall := tokens_of_message hmessage
  constructor
  · rintro ⟨hperm, -, hprunes⟩
    refine ⟨?_, hprunes⟩
    have hlen := hperm.length_eq
    rw [List.eq_replicate_of_mem heq, List.flatMap_replicate, List.length_flatten,
      List.map_replicate, List.sum_replicate_nat, ← hactive, hall] at hlen
    have hpos : 0 < args.tokens.length := List.length_pos_iff.mpr htokens
    exact Nat.eq_of_mul_eq_mul_right hpos (by simpa using hlen)
  · rintro ⟨hone, hprunes⟩
    obtain ⟨m, hm⟩ := List.length_eq_one_iff.mp hone
    refine ⟨?_, fun m _ => m.atMost, hprunes⟩
    rw [hm, List.flatMap_singleton, heq m (hm ▸ List.mem_singleton_self m), hall, hactive]

end attempts

/-! ## The broadcast -/

def wholeMessage (t : UserDevices) (notification : NotificationSchema)
    (h : (DeviceDAO.getAllActiveTokens t).length ≤ 500) : MulticastMessage where
  tokens := DeviceDAO.getAllActiveTokens t
  title := PyValue.textOr notification.subject "New Notification"
  body := notification.message
  data := notification.metadata.map (fun kv => (kv.1, str kv.2))
  atMost := h

section broadcast
variable (t : UserDevices) (notification : NotificationSchema) (publishes : Bool)
  (surroundings : ℕ → Surroundings)

theorem covers_nil_iff : Covers t [] ↔ DeviceDAO.getAllActiveTokens t = [] := by
  constructor
  · rintro ⟨hperm, -⟩
    exact List.nil_perm.mp hperm
  · intro h
    refine ⟨?_, nofun, nofun⟩
    rw [h]
    exact List.Perm.refl []

variable {t}

theorem message?_of_le (h : (DeviceDAO.getAllActiveTokens t).length ≤ 500) :
    PushArgs.message? str ⟨DeviceDAO.getAllActiveTokens t, notification.subject,
        notification.message, some notification.metadata⟩ =
      some (wholeMessage str t notification h) := by
  rw [PushArgs.message?, MulticastMessage.make?, dif_pos h]
  rfl

theorem submissions_of_many (h : 500 < (DeviceDAO.getAllActiveTokens t).length) :
    submissions (run str t notification publishes surroundings) = [] := by
  have hnil : DeviceDAO.getAllActiveTokens t ≠ [] := List.ne_nil_of_length_pos (by omega)
  rw [run, broadcast, if_neg hnil]
  dsimp only
  split_ifs
  · refine submissions_of_no_message hnil ?_ _
    rw [PushArgs.message?, MulticastMessage.make?, dif_neg (Nat.not_le.mpr h)]
  · rfl

theorem not_covers_of_many (h : 500 < (DeviceDAO.getAllActiveTokens t).length) :
    ¬ Covers t (run str t notification publishes surroundings) := by
  rintro ⟨hperm, -⟩
  rw [submissions_of_many str notification publishes surroundings h] at hperm
  rw [List.nil_perm.mp hperm] at h
  cases h

variable (t)

/-- The broadcast covers every device if and only if there is none, or the task is published for at
most 500 devices and one attempt gets through. -/
theorem covers_iff : Covers t (run str t notification publishes surroundings) ↔
    DeviceDAO.getAllActiveTokens t = [] ∨
      (publishes = true ∧ ∃ h : (DeviceDAO.getAllActiveTokens t).length ≤ 500,
        Once (wholeMessage str t notification h)
          ((List.range (maxRetries + 1)).map surroundings)) := by
  by_cases hnil : DeviceDAO.getAllActiveTokens t = []
  · refine iff_of_true ?_ (.inl hnil)
    rw [run, broadcast, if_pos hnil]
    exact (covers_nil_iff t).mpr hnil
  by_cases hlen : (DeviceDAO.getAllActiveTokens t).length ≤ 500
  · have hmessage := message?_of_le str notification hlen
    rw [run, broadcast, if_neg hnil]
    cases publishes with
    | false =>
      refine iff_of_false (fun h => hnil ((covers_nil_iff t).mp h)) ?_
      rintro (h | ⟨h, -⟩)
      · exact hnil h
      · cases h
    | true =>
      dsimp only
      rw [if_pos rfl, covers_attempts_iff hmessage hnil t rfl]
      exact ⟨fun h => .inr ⟨rfl, hlen, h⟩, fun h => (h.resolve_left hnil).2.2⟩
  · refine iff_of_false
      (not_covers_of_many str notification publishes surroundings (Nat.not_le.mp hlen)) ?_
    rintro (h | ⟨-, h, -⟩)
    · exact hnil h
    · exact hlen h

end broadcast

/-! ## A fleet of 501 devices -/

/-- This many active devices, whose tokens have different lengths. -/
def fleet (n : ℕ) : UserDevices where
  rows := (List.range n).map fun i => ⟨String.ofList (List.replicate (i + 1) 'a'), true, 0⟩
  unique := by
    rw [List.map_map]
    refine List.nodup_range.map (fun i j hij => ?_)
    have hlen := congrArg (fun token => token.toList.length) hij
    simpa using hlen

theorem length_active_fleet (n : ℕ) : (DeviceDAO.getAllActiveTokens (fleet n)).length = n := by
  rw [DeviceDAO.getAllActiveTokens, List.length_map, List.filter_eq_self.mpr]
  · rw [fleet, List.length_map, List.length_range]
  · intro row hrow
    obtain ⟨i, -, rfl⟩ := List.mem_map.mp hrow
    rfl

def healthy (t : UserDevices) : Surroundings where
  app := .ready
  send message := some (message.tokens.map fun _ => ⟨some "sent", none⟩)
  send_length message responses h := by
    cases h
    exact List.length_map _
  devices := t
  now := 0
  executes := true

theorem not_covers_fleet : ¬ Covers (fleet 501)
    (run (fun _ => "") (fleet 501) ⟨"Maintenance tonight", none, []⟩ true
      (fun _ => healthy (fleet 501))) := by
  apply not_covers_of_many
  rw [length_active_fleet]
  decide

end FastapiTemplate.PushBroadcast
