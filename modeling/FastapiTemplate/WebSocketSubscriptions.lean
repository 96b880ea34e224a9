import FastapiTemplate.WebSocketManager

/-!
# Subscriptions to the channels of the users

When nothing is left to do, the process is subscribed to the channel of a user exactly if the user
has a connection. Every turn of a method that gives a user a connection goes on to subscribe, and
every turn that takes the last one away goes on to unsubscribe; what the others do in between is the
condition.
-/

namespace FastapiTemplate.WebSockets

/-- No user has an empty list, and users and a listener are there only with `pubsub`. -/
structure ManagerState.Good (s : ManagerState) : Prop where
  nonempty : ∀ userId, s.active userId ≠ some []
  pubsub : ∀ userId, s.active userId ≠ none → s.pubsub = true
  listening : s.listening = true → s.pubsub = true

/-- After the call the task goes on to subscribe the user, or to look whether it must. -/
def Covers (task : SocketTask) (c : SocketCall) (userId : ℕ) : Prop :=
  c = .subscribe (.user userId) ∨ c = .subscribe .broadcast ∧ task.connects = some userId

/-- What a turn does to the connections, and what it goes on with. -/
structure TurnEnds (task : SocketTask) (b : Option SocketCall) (s₀ s : ManagerState)
    (c : Option SocketCall) : Prop where
  good : s.Good
  pubsub : s₀.pubsub = true → s.pubsub = true
  ready : ∀ channel, c = some (.subscribe channel) → s.pubsub = true
  subscribed : s.subscribed = s₀.subscribed
  joined : ∀ userId, s.active userId ≠ none → s₀.active userId ≠ none ∨ ∃ d ∈ c, Covers task d userId
  left : ∀ userId, s.active userId = none →
    s₀.active userId = none ∨ c = some (.unsubscribe (.user userId))
  looked : b = some (.subscribe .broadcast) → ∀ userId ∈ task.connects,
    (s₀.active userId).map List.length = some 1 → c = some (.subscribe (.user userId))

/-- A connect raises if its socket is closed, or if its user is gone after it has waited for the
listener. -/
def Raises (task : SocketTask) (b : Option SocketCall) (s₀ : ManagerState) (e : SocketError) : Prop :=
  (∃ websocket userId, task = .connect websocket userId ∧ e = .closed websocket) ∨
    ∃ userId, e = .keyError userId ∧ b = some (.subscribe .broadcast) ∧ task.connects = some userId ∧
      s₀.active userId = none

def turnSpec (task : SocketTask) : TurnSpec SocketCall SocketCall.Answer SocketError ManagerState where
  awaits := SocketCall.awaited
  handler := ManagerState.handler
  good b s := s.Good ∧ ∀ channel, b = some (.subscribe channel) → s.pubsub = true
  ends b s₀ s c := TurnEnds task b s₀ s c
  fails b s₀ s e := TurnEnds task b s₀ s none ∧ Raises task b s₀ e

abbrev Cooperates (task : SocketTask) (b : Option SocketCall) (s₀ s : ManagerState)
    (p : SocketProgram Unit) : Prop :=
  (turnSpec task).Cooperates (fun b s₀ s _ => TurnEnds task b s₀ s none) b s₀ s p

abbrev Suspended (task : SocketTask) (p : SocketProgram Unit) : Prop :=
  (turnSpec task).Suspended (fun b s₀ s _ => TurnEnds task b s₀ s none) p

section turns
variable {task : SocketTask} {b : Option SocketCall} {s₀ s : ManagerState} {userId : ℕ}

/-- A turn that leaves the connections as they are. -/
theorem TurnEnds.rfl (hs : s.Good) (hb : b ≠ some (.subscribe .broadcast)) : TurnEnds task b s s none where
  good := hs
  pubsub h := h
  ready _ h := by cases h
  subscribed := Eq.refl _
  joined _ h := .inl h
  left _ h := .inl h
  looked h := absurd h hb

theorem good_subscribed (hs : s.Good) (subscribed : Channel → Bool) :
    ManagerState.Good { s with subscribed := subscribed } :=
  ⟨hs.nonempty, hs.pubsub, hs.listening⟩

theorem cooperates_subscribeFirst
    (hone : ∀ sockets, s.active userId = some sockets → sockets.length = 1 →
      s.pubsub = true ∧ TurnEnds task b s₀ s (some (.subscribe (.user userId))))
    (hmore : ∀ sockets, s.active userId = some sockets → sockets.length ≠ 1 → TurnEnds task b s₀ s none)
    (hgone : s.active userId = none → (turnSpec task).fails b s₀ s (.keyError userId)) :
    Cooperates task b s₀ s (subscribeFirst userId) := by
  cases hactive : s.active userId with
  | none =>
    refine TurnSpec.cooperates_answered (r := .error (.keyError userId)) (t := s) rfl ?_ ?_
    · simp [turnSpec, ManagerState.handler, hactive]
    · exact hgone hactive
  | some sockets =>
    refine TurnSpec.cooperates_answered (r := .ok sockets) (t := s) rfl ?_ ?_
    · simp [turnSpec, ManagerState.handler, hactive]
    · change Cooperates task b s₀ s (if sockets.length = 1 then
        ask .hasPubsub >>= fun pubsub => if pubsub = true then ask (.subscribe (.user userId)) else pure ()
          else pure ())
      split_ifs with hlength
      · obtain ⟨hpubsub, hends⟩ := hone sockets hactive hlength
        refine TurnSpec.cooperates_answered (r := true) (t := s) rfl ?_ ?_
        · simp [turnSpec, ManagerState.handler, hpubsub]
        · refine (TurnSpec.cooperates_await rfl).mpr ⟨hends, fun t ht => ?_⟩
          exact TurnEnds.rfl (good_subscribed ht.1 _) (by simp)
      · exact hmore sockets hactive hlength

/-- The listener is there, or it is created after the subscription to the broadcasts. -/
theorem cooperates_ensureListener {f : Unit → SocketProgram Unit}
    (hthere : s.listening = true → Cooperates task b s₀ s (f ()))
    (hsubscribes : s.listening = false →
      TurnEnds task b s₀ { s with pubsub := true } (some (.subscribe .broadcast)))
    (hlater : ∀ t : ManagerState, t.Good → t.pubsub = true → Cooperates task (some (.subscribe .broadcast))
      { t with subscribed := Function.update t.subscribed .broadcast true }
      { t with
        subscribed := Function.update t.subscribed .broadcast true
        listening := true } (f ())) :
    Cooperates task b s₀ s (ensureListener >>= f) := by
  cases hlistening : s.listening with
  | true =>
    refine TurnSpec.cooperates_answered (r := false) (t := s) rfl ?_ ?_
    · simp [turnSpec, ManagerState.handler, hlistening]
    · exact hthere hlistening
  | false =>
    have hwait : ∀ t : ManagerState, t = { s with pubsub := true } → Cooperates task b s₀ t
        (ask (.subscribe .broadcast) >>= fun _ => ask .createListener >>= f) := by
      rintro t rfl
      refine (TurnSpec.cooperates_await rfl).mpr ⟨hsubscribes hlistening, fun t ht => ?_⟩
      exact (TurnSpec.cooperates_sync rfl).mpr (hlater t ht.1 (ht.2 .broadcast rfl))
    refine TurnSpec.cooperates_answered (r := true) (t := s) rfl ?_ ?_
    · simp [turnSpec, ManagerState.handler, hlistening]
    · cases hpubsub : s.pubsub with
      | true =>
        refine TurnSpec.cooperates_answered (r := true) (t := s) rfl ?_ ?_
        · simp [turnSpec, ManagerState.handler, hpubsub]
        · refine TurnSpec.cooperates_answered (r := true) (t := s) rfl ?_ (hwait s ?_)
          · simp [turnSpec, ManagerState.handler, hpubsub]
          · rw [← hpubsub]
      | false =>
        refine TurnSpec.cooperates_answered (r := false) (t := s) rfl ?_ ?_
        · simp [turnSpec, ManagerState.handler, hpubsub]
        · refine (TurnSpec.cooperates_sync rfl).mpr ?_
          exact TurnSpec.cooperates_answered (r := true) (t := { s with pubsub := true }) rfl rfl
            (hwait _ rfl)

end turns

/-! ## The methods -/

section methods
variable {task : SocketTask} {b : Option SocketCall} {s₀ s : ManagerState} {userId : ℕ}

def ManagerState.joined (s : ManagerState) (userId websocket : ℕ) : ManagerState :=
  { s with active := Function.update s.active userId (some ((s.active userId).getD [] ++ [websocket])) }

@[simp] theorem active_joined (s : ManagerState) (userId websocket : ℕ) :
    (s.joined userId websocket).active userId = some ((s.active userId).getD [] ++ [websocket]) :=
  Function.update_self ..

theorem active_joined_of_ne (s : ManagerState) {userId other : ℕ} (h : other ≠ userId) (websocket : ℕ) :
    (s.joined userId websocket).active other = s.active other := Function.update_of_ne h ..

theorem good_joined (hs : s.Good) (userId websocket : ℕ) (hpubsub : s.pubsub = true) :
    (s.joined userId websocket).Good where
  nonempty other hother := by
    by_cases hsame : other = userId
    · subst hsame
      simp at hother
    · rw [active_joined_of_ne s hsame] at hother
      exact hs.nonempty other hother
  pubsub _ _ := hpubsub
  listening := hs.listening

/-- The turn of a connect after the subscription to the broadcasts. -/
theorem cooperates_looks {t : ManagerState} (ht : t.Good) (hpubsub : t.pubsub = true)
    (hconnects : task.connects = some userId) : Cooperates task (some (.subscribe .broadcast))
      { t with subscribed := Function.update t.subscribed .broadcast true }
      { t with
        subscribed := Function.update t.subscribed .broadcast true
        listening := true } (subscribeFirst userId) := by
  have hends (c : Option SocketCall)
      (hlooked : ∀ sockets, t.active userId = some sockets → sockets.length = 1 →
        c = some (.subscribe (.user userId))) : TurnEnds task (some (.subscribe .broadcast))
      { t with subscribed := Function.update t.subscribed .broadcast true }
      { t with
        subscribed := Function.update t.subscribed .broadcast true
        listening := true } c := by
    refine ⟨⟨ht.nonempty, ht.pubsub, fun _ => hpubsub⟩, fun h => h, fun _ _ => hpubsub, rfl,
      fun _ h => .inl h, fun _ h => .inl h, fun _ other hother hlength => ?_⟩
    rw [hconnects] at hother
    cases hother
    obtain ⟨sockets, hsockets, hone⟩ := Option.map_eq_some_iff.mp hlength
    exact hlooked sockets hsockets hone
  apply cooperates_subscribeFirst
  · exact fun sockets _ _ => ⟨hpubsub, hends _ (fun _ _ _ => rfl)⟩
  · intro sockets hsockets hlength
    apply hends
    intro other hother hone
    rw [show t.active userId = some sockets from hsockets] at hother
    cases hother
    exact absurd hone hlength
  · intro hnone
    refine ⟨hends none (fun sockets hsockets _ => ?_), .inr ⟨userId, rfl, rfl, hconnects, hnone⟩⟩
    rw [show t.active userId = none from hnone] at hsockets
    cases hsockets

/-- The first turn of a connect, after which the user is subscribed or the task goes on to do so. -/
theorem cooperates_joined (hs : s.Good) (websocket : ℕ) (hconnects : task.connects = some userId)
    (hb : b ≠ some (.subscribe .broadcast)) :
    Cooperates task b s (s.joined userId websocket) (ensureListener >>= fun _ => subscribeFirst userId) := by
  have hends (t : ManagerState) (ht : t.Good) (hpubsub : t.pubsub = true)
      (hsubscribed : t.subscribed = s.subscribed)
      (hactive : t.active = (s.joined userId websocket).active) (c : Option SocketCall)
      (hcovers : s.active userId ≠ none ∨ ∃ d ∈ c, Covers task d userId) : TurnEnds task b s t c := by
    refine ⟨ht, fun _ => hpubsub, fun _ _ => hpubsub, hsubscribed, fun other hother => ?_,
      fun other hother => ?_, fun h => absurd h hb⟩
    · by_cases hsame : other = userId
      · exact hsame ▸ hcovers
      · rw [hactive, active_joined_of_ne s hsame] at hother
        exact .inl hother
    · rw [hactive] at hother
      by_cases hsame : other = userId
      · subst hsame
        simp at hother
      · rw [active_joined_of_ne s hsame] at hother
        exact .inl hother
  apply cooperates_ensureListener
  · intro hlistening
    have hpubsub := hs.listening hlistening
    have hgood := good_joined hs userId websocket hpubsub
    apply cooperates_subscribeFirst
    · intro sockets _ _
      exact ⟨hpubsub, hends _ hgood hpubsub rfl rfl _ (.inr ⟨_, rfl, .inl rfl⟩)⟩
    · intro sockets hsockets hlength
      apply hends _ hgood hpubsub rfl rfl _ (.inl _)
      intro hnone
      rw [active_joined, hnone] at hsockets
      cases hsockets
      exact hlength rfl
    · intro hnone
      simp at hnone
  · intro _
    have hgood := good_joined (s := { s with pubsub := true }) ⟨hs.nonempty, fun _ _ => rfl, fun _ => rfl⟩
      userId websocket rfl
    exact hends _ hgood rfl rfl rfl _ (.inr ⟨_, rfl, .inr ⟨rfl, hconnects⟩⟩)
  · exact fun t ht hpubsub => cooperates_looks ht hpubsub hconnects

theorem cooperates_addConnection {websocket : ℕ} {f : Unit → SocketProgram Unit}
    (hf : Cooperates task b s₀ (s.joined userId websocket) (f ())) :
    Cooperates task b s₀ s (addConnection websocket userId >>= f) := by
  cases hactive : s.active userId with
  | none =>
    refine TurnSpec.cooperates_answered (r := false) (t := s) rfl ?_ ?_
    · simp [turnSpec, ManagerState.handler, hactive]
    · refine (TurnSpec.cooperates_sync rfl).mpr ?_
      refine TurnSpec.cooperates_answered (r := .ok ()) (t := s.joined userId websocket) rfl ?_ hf
      simp [turnSpec, ManagerState.handler, ManagerState.joined, hactive]
  | some sockets =>
    refine TurnSpec.cooperates_answered (r := true) (t := s) rfl ?_ ?_
    · simp [turnSpec, ManagerState.handler, hactive]
    · refine TurnSpec.cooperates_answered (r := .ok ()) (t := s.joined userId websocket) rfl ?_ hf
      simp [turnSpec, ManagerState.handler, ManagerState.joined, hactive]

/-- The answer of `accept` or `send_text`. -/
theorem answer_of_socket (s : ManagerState) (websocket : ℕ) :
    (if s.closed websocket then Except.error (SocketError.closed websocket) else .ok ()) =
      (.error (.closed websocket) : Except SocketError Unit) ∨
    (if s.closed websocket then Except.error (SocketError.closed websocket) else .ok ()) =
      (.ok () : Except SocketError Unit) := by
  split_ifs
  · exact .inl rfl
  · exact .inr rfl

theorem suspended_connect (websocket userId : ℕ) :
    Suspended (.connect websocket userId) (connect websocket userId) := by
  refine (TurnSpec.suspended_await rfl).mpr (fun t ht => ?_)
  change Cooperates _ _ t t (Program.ofExcept
    (if t.closed websocket then Except.error (SocketError.closed websocket) else .ok ()) >>= fun _ =>
      addConnection websocket userId >>= fun _ => ensureListener >>= fun _ => subscribeFirst userId)
  rcases answer_of_socket t websocket with hclosed | haccepted
  · rw [hclosed]
    exact ⟨TurnEnds.rfl ht.1 (by simp), .inl ⟨websocket, userId, rfl, rfl⟩⟩
  · rw [haccepted]
    exact cooperates_addConnection (cooperates_joined ht.1 websocket rfl (by simp))

def ManagerState.withSockets (s : ManagerState) (userId : ℕ) (sockets : Option (List ℕ)) : ManagerState :=
  { s with active := Function.update s.active userId sockets }

@[simp] theorem active_withSockets (s : ManagerState) (userId : ℕ) (sockets : Option (List ℕ)) :
    (s.withSockets userId sockets).active userId = sockets := Function.update_self ..

theorem active_withSockets_of_ne (s : ManagerState) {userId other : ℕ} (h : other ≠ userId)
    (sockets : Option (List ℕ)) : (s.withSockets userId sockets).active other = s.active other :=
  Function.update_of_ne h ..

/-- A turn that takes sockets away from a user who had some. -/
theorem turnEnds_withSockets (hs : s.Good) (hb : b ≠ some (.subscribe .broadcast))
    (huser : s.active userId ≠ none) {sockets : Option (List ℕ)} (hne : sockets ≠ some [])
    {c : Option SocketCall} (hready : ∀ channel, c ≠ some (.subscribe channel))
    (hleft : sockets = none → c = some (.unsubscribe (.user userId))) :
    TurnEnds task b s (s.withSockets userId sockets) c where
  good := by
    refine ⟨fun other => ?_, fun other hother => ?_, hs.listening⟩
    · by_cases hsame : other = userId
      · subst hsame
        rw [active_withSockets]
        exact hne
      · rw [active_withSockets_of_ne s hsame]
        exact hs.nonempty other
    · exact hs.pubsub userId huser
  pubsub h := h
  ready channel h := absurd h (hready channel)
  subscribed := Eq.refl _
  joined other hother := by
    left
    by_cases hsame : other = userId
    · exact hsame ▸ huser
    · rwa [active_withSockets_of_ne s hsame] at hother
  left other hother := by
    by_cases hsame : other = userId
    · subst hsame
      rw [active_withSockets] at hother
      exact .inr (hleft hother)
    · rw [active_withSockets_of_ne s hsame] at hother
      exact .inl hother
  looked h := absurd h hb

theorem cooperates_deleteIfEmpty {b : Option SocketCall} (hb : b ≠ some (.subscribe .broadcast))
    (hs : s.Good) (huser : s.active userId ≠ none) (sockets : List ℕ) {f : Unit → SocketProgram Unit}
    (hf : ∀ b s₀ s, TurnEnds task b s₀ s none → Cooperates task b s₀ s (f ())) :
    Cooperates task b s (s.withSockets userId (some sockets)) (deleteIfEmpty userId >>= f) := by
  refine TurnSpec.cooperates_answered (r := .ok sockets) (t := s.withSockets userId (some sockets)) rfl
    ?_ ?_
  · simp [turnSpec, ManagerState.handler]
  · change Cooperates _ _ _ _ ((if sockets = [] then ask (.delete userId) >>= fun _ =>
      ask .hasPubsub >>= fun pubsub => if pubsub = true then ask (.unsubscribe (.user userId)) else pure ()
        else pure ()) >>= f)
    split_ifs with hempty
    · refine TurnSpec.cooperates_answered (r := ()) (t := s.withSockets userId none) rfl ?_ ?_
      · simp [turnSpec, ManagerState.handler, ManagerState.withSockets]
      · refine TurnSpec.cooperates_answered (r := true) (t := s.withSockets userId none) rfl ?_ ?_
        · simp [turnSpec, ManagerState.handler, ManagerState.withSockets, hs.pubsub userId huser]
        · refine (TurnSpec.cooperates_await rfl).mpr ⟨?_, fun t ht => ?_⟩
          · exact turnEnds_withSockets hs hb huser (by simp) (by simp) (fun _ => rfl)
          · exact hf _ _ _ (TurnEnds.rfl (good_subscribed ht.1 _) (by simp))
    · apply hf
      exact turnEnds_withSockets hs hb huser (by simpa using hempty) (by simp) (by simp)

/-- A disconnection from the beginning of a turn, and what follows it. -/
theorem cooperates_disconnect (websocket userId : ℕ) {b : Option SocketCall}
    (hb : b ≠ some (.subscribe .broadcast)) (hs : s.Good) {f : Unit → SocketProgram Unit}
    (hf : ∀ b s₀ s, TurnEnds task b s₀ s none → Cooperates task b s₀ s (f ())) :
    Cooperates task b s s (disconnect websocket userId >>= f) := by
  cases hactive : s.active userId with
  | none =>
    refine TurnSpec.cooperates_answered (r := false) (t := s) rfl ?_ ?_
    · simp [turnSpec, ManagerState.handler, hactive]
    · exact hf _ _ _ (TurnEnds.rfl hs hb)
  | some sockets =>
    have huser : s.active userId ≠ none := by simp [hactive]
    refine TurnSpec.cooperates_answered (r := true) (t := s) rfl ?_ ?_
    · simp [turnSpec, ManagerState.handler, hactive]
    · refine TurnSpec.cooperates_answered (r := .ok sockets) (t := s) rfl ?_ ?_
      · simp [turnSpec, ManagerState.handler, hactive]
      · change Cooperates _ _ _ _ ((if websocket ∈ sockets then ask (.remove userId websocket) >>=
          (fun _ => deleteIfEmpty userId) else deleteIfEmpty userId) >>= f)
        split_ifs
        · refine TurnSpec.cooperates_answered (r := ())
            (t := s.withSockets userId (some (sockets.erase websocket))) rfl ?_ ?_
          · simp [turnSpec, ManagerState.handler, ManagerState.withSockets, hactive]
          · exact cooperates_deleteIfEmpty hb hs huser _ hf
        · have hsame : s.withSockets userId (some sockets) = s := by
            rw [ManagerState.withSockets, ← hactive, Function.update_eq_self]
          have hdelete := cooperates_deleteIfEmpty hb hs huser sockets hf
          rwa [hsame] at hdelete

theorem suspended_disconnect (websocket userId : ℕ) :
    Suspended (.disconnect websocket userId) (disconnect websocket userId) := by
  refine (TurnSpec.suspended_sync rfl).mpr (fun t ht => ?_)
  have hdisconnect : Cooperates (.disconnect websocket userId) none t t
      (disconnect websocket userId >>= pure) :=
    cooperates_disconnect websocket userId (by simp) ht.1 (fun _ _ _ h => h)
  rwa [Program.bind_pure] at hdisconnect

/-- Going on with a call that is no subscription. -/
theorem TurnEnds.awaits (h : TurnEnds task b s₀ s none) {c : SocketCall}
    (hc : ∀ channel, c ≠ .subscribe channel) : TurnEnds task b s₀ s (some c) where
  good := h.good
  pubsub := h.pubsub
  ready channel heq := absurd (Option.some.inj heq) (hc channel)
  subscribed := h.subscribed
  joined userId huser := by
    rcases h.joined userId huser with hold | ⟨d, hd, -⟩
    · exact .inl hold
    · cases hd
  left userId hnone := by
    rcases h.left userId hnone with hold | hd
    · exact .inl hold
    · cases hd
  looked hb userId huser hone := by cases h.looked hb userId huser hone

/-- The loop over the sockets, by induction on those that are left. -/
theorem cooperates_sendEach (message : String) (userId : ℕ) (sockets : List ℕ)
    (h : TurnEnds task b s₀ s none) : Cooperates task b s₀ s (sendEach message userId sockets) := by
  induction sockets generalizing b s₀ s with
  | nil => exact h
  | cons connection rest ih =>
    refine (TurnSpec.cooperates_await rfl).mpr ⟨h.awaits (by simp), fun t ht => ?_⟩
    rcases answer_of_socket t connection with hclosed | hsent
    · have hanswer : (turnSpec task).handler (.sendText connection message) t =
          (.error (.closed connection), t) := Prod.ext hclosed rfl
      rw [hanswer]
      exact cooperates_disconnect connection userId (by simp) ht.1 (fun _ _ _ hends => ih hends)
    · have hanswer : (turnSpec task).handler (.sendText connection message) t = (.ok (), t) :=
        Prod.ext hsent rfl
      rw [hanswer]
      exact ih (TurnEnds.rfl ht.1 (by simp))

theorem suspended_localSend (message : String) (userId : ℕ) :
    Suspended (.localSend message userId) (localSend message userId) := by
  refine (TurnSpec.suspended_sync rfl).mpr (fun t ht => ?_)
  have hrefl : TurnEnds (.localSend message userId) none t t none := TurnEnds.rfl ht.1 (by simp)
  cases hactive : t.active userId with
  | none =>
    refine TurnSpec.cooperates_answered (r := false) (t := t) rfl ?_ ?_
    · simp [turnSpec, ManagerState.handler, hactive]
    · exact hrefl
  | some sockets =>
    refine TurnSpec.cooperates_answered (r := true) (t := t) rfl ?_ ?_
    · simp [turnSpec, ManagerState.handler, hactive]
    · refine TurnSpec.cooperates_answered (r := .ok sockets) (t := t) rfl ?_ ?_
      · simp [turnSpec, ManagerState.handler, hactive]
      · exact cooperates_sendEach message userId sockets hrefl

theorem suspended_program (task : SocketTask) : Suspended task task.program := by
  cases task with
  | connect websocket userId => exact suspended_connect websocket userId
  | disconnect websocket userId => exact suspended_disconnect websocket userId
  | localSend message userId => exact suspended_localSend message userId

end methods

/-! ## Runs -/

namespace SocketPool

def start (closed : ℕ → Bool) : SocketPool where
  state := ⟨fun _ => none, false, false, fun _ => false, closed⟩
  threads := []

def Quiescent (p : SocketPool) : Prop := ∀ th ∈ p.threads, th.nextCall = none

/-- With nothing left to do, subscriptions and connections agree, and the only error that a connect
has raised is that its own socket is closed. -/
def Agrees (p : SocketPool) : Prop :=
  p.Quiescent →
    (∀ userId, p.state.subscribed (.user userId) = true ↔
      ∃ sockets, p.state.active userId = some sockets ∧ sockets ≠ []) ∧
    (∀ userId, p.state.active userId ≠ some []) ∧
    ∀ th ∈ p.threads, ∀ websocket userId, th.tag = .connect websocket userId →
      ∀ e, th.rest = .raise e → e = .closed websocket

def Covering (userId : ℕ) (th : SocketThread) : Prop := ∃ c ∈ th.nextCall, Covers th.tag c userId

instance (task : SocketTask) (c : SocketCall) (userId : ℕ) : Decidable (Covers task c userId) :=
  inferInstanceAs (Decidable (_ ∨ _ ∧ _))

instance (userId : ℕ) (th : SocketThread) : Decidable (Covering userId th) :=
  inferInstanceAs (Decidable (∃ c ∈ th.nextCall, _))

/-- What the other threads and the state must be like when a call takes effect. -/
def CallInTime (s : ManagerState) (others : List SocketThread) (task : SocketTask) : SocketCall → Prop
  | .subscribe .broadcast => ∀ userId ∈ task.connects, s.active userId ≠ none ∧
      ((s.active userId).map List.length = some 1 ∨ s.subscribed (.user userId) = true ∨
        ∃ y ∈ others, Covering userId y)
  | .subscribe (.user userId) => s.active userId ≠ none ∨
      ∃ y ∈ others, y.nextCall = some (.unsubscribe (.user userId))
  | .unsubscribe (.user userId) => s.active userId = none ∨ ∃ y ∈ others, Covering userId y
  | _ => True

instance (s : ManagerState) (others : List SocketThread) (task : SocketTask) (c : SocketCall) :
    Decidable (CallInTime s others task c) := by
  unfold CallInTime
  split <;> infer_instance

/-- When a connect that has waited for the listener looks, its user still has a connection, and it is
the only one, or the user is subscribed, or another thread goes on to subscribe it; when the channel
of a user is subscribed, the user has a connection, or another thread goes on to unsubscribe; and
when it is unsubscribed, the user has none, or another thread goes on to subscribe. -/
def InTime (p : SocketPool) (m : SocketMove) : Prop :=
  match m with
  | .advance i => ∀ th ∈ p.threads[i]?, ∀ c ∈ th.nextCall,
      CallInTime p.state (p.threads.eraseIdx i) th.tag c
  | _ => True

instance (p : SocketPool) (m : SocketMove) : Decidable (p.InTime m) :=
  match m with
  | .advance i => inferInstanceAs (Decidable (∀ th ∈ p.threads[i]?, ∀ c ∈ th.nextCall, _))
  | .spawn _ => .isTrue trivial
  | .environment _ => .isTrue trivial

/-- Users with connections are subscribed or about to be, and the others are not or about not to be. -/
structure Steady (p : SocketPool) : Prop where
  good : p.state.Good
  joined : ∀ userId, p.state.active userId ≠ none →
    p.state.subscribed (.user userId) = true ∨ ∃ th ∈ p.threads, Covering userId th
  left : ∀ userId, p.state.active userId = none →
    p.state.subscribed (.user userId) = false ∨
      ∃ th ∈ p.threads, th.nextCall = some (.unsubscribe (.user userId))
  ready : ∀ th ∈ p.threads, ∀ channel, th.nextCall = some (.subscribe channel) → p.state.pubsub = true
  suspended : ∀ th ∈ p.threads, Suspended th.tag th.rest
  raises : ∀ th ∈ p.threads, ∀ e, th.rest = .raise e →
    ∃ websocket userId, th.tag = .connect websocket userId ∧ e = .closed websocket

/-! ## One move -/

theorem subscribed_handler {c : SocketCall} {channel : Channel} (hsubscribe : c ≠ .subscribe channel)
    (hunsubscribe : c ≠ .unsubscribe channel) (s : ManagerState) :
    (ManagerState.handler c s).2.subscribed channel = s.subscribed channel := by
  cases c with
  | subscribe other =>
    exact Function.update_of_ne (fun h => hsubscribe (congrArg _ h.symm)) true s.subscribed
  | unsubscribe other =>
    exact Function.update_of_ne (fun h => hunsubscribe (congrArg _ h.symm)) false s.subscribed
  | append userId websocket =>
    rw [ManagerState.handler]
    split <;> rfl
  | _ => rfl

theorem active_handler_of_awaited {c : SocketCall} (hc : c.awaited = true) (s : ManagerState) :
    (ManagerState.handler c s).2.active = s.active ∧ (ManagerState.handler c s).2.pubsub = s.pubsub := by
  cases c with
  | accept | subscribe | unsubscribe | sendText => exact ⟨rfl, rfl⟩
  | _ => cases hc

/-- What is left of a thread and the state after a turn that began with the call, and the state in
which the rest of the turn began. -/
structure Turned (c : SocketCall) (s : ManagerState) (task : SocketTask) (b : Option SocketCall)
    (s₁ s' : ManagerState) (th' : SocketThread) : Prop where
  tag : th'.tag = task
  active : s₁.active = s.active
  pubsub : s₁.pubsub = s.pubsub
  subscribed : s₁.subscribed = (ManagerState.handler c s).2.subscribed
  begins : ∀ channel, b = some (.subscribe channel) ↔ c = .subscribe channel
  ends : TurnEnds task b s₁ s' th'.nextCall
  suspended : Suspended task th'.rest
  raises : ∀ e, th'.rest = .raise e → Raises task b s₁ e

/-- How the turn has ended, and what the thread goes on with. -/
theorem ends_of_ended {task : SocketTask} {b : Option SocketCall} {s₁ s' : ManagerState}
    {th' : SocketThread}
    (h : (turnSpec task).Ended (fun b s₀ s _ => TurnEnds task b s₀ s none) b s₁ s' th'.rest) :
    TurnEnds task b s₁ s' th'.nextCall ∧ ∀ e, th'.rest = .raise e → Raises task b s₁ e := by
  unfold Thread.nextCall
  cases hrest : th'.rest with
  | pure a =>
    rw [hrest] at h
    exact ⟨h, fun e he => by cases he⟩
  | raise e =>
    rw [hrest] at h
    refine ⟨h.1, fun e' he => ?_⟩
    cases he
    exact h.2
  | call c next =>
    rw [hrest] at h
    exact ⟨h, fun e he => by cases he⟩

theorem turned {s : ManagerState} (hs : s.Good) {th : SocketThread} {c : SocketCall}
    {next : c.Answer → SocketProgram Unit} (hrest : th.rest = .call c next)
    (hready : ∀ channel, c = .subscribe channel → s.pubsub = true) (hth : Suspended th.tag th.rest) :
    ∃ b s₁, Turned c s th.tag b s₁ (system.turn th s).2 (system.turn th s).1 := by
  have hturn : system.turn th s = ({ th with rest := ((Program.call c next).turn
      SocketCall.awaited ManagerState.handler s).1 }, ((Program.call c next).turn
      SocketCall.awaited ManagerState.handler s).2) := by
    rw [← hrest]
    rfl
  rw [hrest] at hth
  cases hc : c.awaited with
  | true =>
    obtain ⟨hended, hsuspended⟩ := hth.turn_await (s := s)
      ⟨hs, fun channel h => hready channel (Option.some.inj h)⟩ hc
    obtain ⟨hactive, hpubsub⟩ := active_handler_of_awaited hc s
    obtain ⟨hends, hraises⟩ := @ends_of_ended _ _ _ _ (system.turn th s).1
      (by rw [hturn]; exact hended)
    refine ⟨some c, _, rfl, hactive, hpubsub, rfl, fun channel => by simp, ?_, ?_, hraises⟩
    · rw [hturn] at hends ⊢
      exact hends
    · rw [hturn]
      exact hsuspended
  | false =>
    obtain ⟨hended, hsuspended⟩ := hth.turn_sync (s := s) ⟨hs, fun _ h => by cases h⟩ hc
    obtain ⟨hends, hraises⟩ := @ends_of_ended _ _ _ _ (system.turn th s).1
      (by rw [hturn]; exact hended)
    have hne (channel : Channel) : c ≠ .subscribe channel ∧ c ≠ .unsubscribe channel := by
      constructor <;> rintro rfl <;> cases hc
    refine ⟨none, s, rfl, rfl, rfl, ?_, fun channel => by simp [(hne channel).1], ?_, ?_, hraises⟩
    · funext channel
      exact (subscribed_handler (hne channel).1 (hne channel).2 s).symm
    · rw [hturn] at hends ⊢
      exact hends
    · rw [hturn]
      exact hsuspended

section advance
variable {p : SocketPool} {i : ℕ} {th th' : SocketThread} {c : SocketCall}
  {next : c.Answer → SocketProgram Unit} {b : Option SocketCall} {s₁ s' : ManagerState} {userId : ℕ}

theorem mem_set_of_mem_eraseIdx {y : SocketThread} (h : y ∈ p.threads.eraseIdx i) :
    y ∈ p.threads.set i th' := by
  obtain ⟨j, hj, hy⟩ := List.mem_eraseIdx_iff_getElem?.mp h
  exact List.mem_of_getElem? ((List.getElem?_set_ne hj.symm).trans hy)

theorem eq_or_mem_eraseIdx (hth : p.threads[i]? = some th) {y : SocketThread} (h : y ∈ p.threads) :
    y = th ∨ y ∈ p.threads.eraseIdx i := by
  obtain ⟨j, hj⟩ := List.getElem?_of_mem h
  by_cases hij : j = i
  · subst hij
    rw [hth] at hj
    exact .inl (Option.some.inj hj).symm
  · exact .inr (List.mem_eraseIdx_iff_getElem?.mpr ⟨j, hij, hj⟩)

/-- The channels of users with connections. -/
theorem joined_advance (h : p.Steady) (hth : p.threads[i]? = some th) (hrest : th.rest = .call c next)
    (ht : Turned c p.state th.tag b s₁ s' th')
    (htime : CallInTime p.state (p.threads.eraseIdx i) th.tag c) (huser : s'.active userId ≠ none) :
    s'.subscribed (.user userId) = true ∨ ∃ y ∈ p.threads.set i th', Covering userId y := by
  have hlt : i < p.threads.length := (List.getElem?_eq_some_iff.mp hth).1
  have hnew {d : SocketCall} (hd : d ∈ th'.nextCall) (hcovers : Covers th.tag d userId) :
      ∃ y ∈ p.threads.set i th', Covering userId y :=
    ⟨th', List.mem_set hlt th', d, hd, ht.tag ▸ hcovers⟩
  have hothers (hy : ∃ y ∈ p.threads.eraseIdx i, Covering userId y) :
      ∃ y ∈ p.threads.set i th', Covering userId y := by
    obtain ⟨y, hy, hcovering⟩ := hy
    exact ⟨y, mem_set_of_mem_eraseIdx hy, hcovering⟩
  have hsubscribed : s'.subscribed = (ManagerState.handler c p.state).2.subscribed :=
    ht.ends.subscribed.trans ht.subscribed
  rcases ht.ends.joined userId huser with hold | ⟨d, hd, hcovers⟩
  swap
  · exact .inr (hnew hd hcovers)
  rw [ht.active] at hold
  -- the user was subscribed, or a thread was going to see to it
  have hkeeps (hold' : p.state.subscribed (.user userId) = true) :
      s'.subscribed (.user userId) = true ∨ ∃ y ∈ p.threads.set i th', Covering userId y := by
    rw [hsubscribed]
    by_cases hsub : c = .subscribe (.user userId)
    · subst hsub
      exact .inl (Function.update_self ..)
    by_cases hunsub : c = .unsubscribe (.user userId)
    · subst hunsub
      rcases htime with hnone | hy
      · exact absurd hnone hold
      · exact .inr (hothers hy)
    · rw [subscribed_handler hsub hunsub]
      exact .inl hold'
  rcases h.joined userId hold with hold' | ⟨y, hy, d, hd, hcovers⟩
  · exact hkeeps hold'
  rcases eq_or_mem_eraseIdx hth hy with rfl | hy
  swap
  · exact .inr (hothers ⟨y, hy, d, hd, hcovers⟩)
  rw [Thread.nextCall_of_rest hrest] at hd
  cases hd
  rcases hcovers with rfl | ⟨rfl, hconnects⟩
  · rw [hsubscribed]
    exact .inl (Function.update_self ..)
  · obtain ⟨-, hone | hold' | hy⟩ := htime userId hconnects
    · have hlooked := ht.ends.looked ((ht.begins .broadcast).mpr rfl) userId hconnects (ht.active ▸ hone)
      exact .inr (hnew hlooked (.inl rfl))
    · exact hkeeps hold'
    · exact .inr (hothers hy)

/-- The channels of users without connections. -/
theorem left_advance (h : p.Steady) (hth : p.threads[i]? = some th) (hrest : th.rest = .call c next)
    (ht : Turned c p.state th.tag b s₁ s' th')
    (htime : CallInTime p.state (p.threads.eraseIdx i) th.tag c) (huser : s'.active userId = none) :
    s'.subscribed (.user userId) = false ∨
      ∃ y ∈ p.threads.set i th', y.nextCall = some (.unsubscribe (.user userId)) := by
  have hlt : i < p.threads.length := (List.getElem?_eq_some_iff.mp hth).1
  have hothers {y : SocketThread} (hy : y ∈ p.threads.eraseIdx i)
      (hcall : y.nextCall = some (.unsubscribe (.user userId))) :
      ∃ y ∈ p.threads.set i th', y.nextCall = some (.unsubscribe (.user userId)) :=
    ⟨y, mem_set_of_mem_eraseIdx hy, hcall⟩
  have hsubscribed : s'.subscribed = (ManagerState.handler c p.state).2.subscribed :=
    ht.ends.subscribed.trans ht.subscribed
  rcases ht.ends.left userId huser with hold | hcall
  swap
  · exact .inr ⟨th', List.mem_set hlt th', hcall⟩
  rw [ht.active] at hold
  rcases h.left userId hold with hold' | ⟨y, hy, hcall⟩
  · rw [hsubscribed]
    by_cases hsub : c = .subscribe (.user userId)
    · subst hsub
      rcases htime with hsome | ⟨y, hy, hcall⟩
      · exact absurd hold hsome
      · exact .inr (hothers hy hcall)
    by_cases hunsub : c = .unsubscribe (.user userId)
    · subst hunsub
      exact .inl (Function.update_self ..)
    · rw [subscribed_handler hsub hunsub]
      exact .inl hold'
  rcases eq_or_mem_eraseIdx hth hy with rfl | hy
  · rw [Thread.nextCall_of_rest hrest] at hcall
    cases hcall
    rw [hsubscribed]
    exact .inl (Function.update_self ..)
  · exact .inr (hothers hy hcall)

/-- The errors of the thread that moved. -/
theorem raises_advance (ht : Turned c p.state th.tag b s₁ s' th')
    (htime : CallInTime p.state (p.threads.eraseIdx i) th.tag c) (e : SocketError)
    (he : th'.rest = .raise e) :
    ∃ websocket userId, th'.tag = .connect websocket userId ∧ e = .closed websocket := by
  rcases ht.raises e he with ⟨websocket, userId, htag, rfl⟩ | ⟨userId, -, hb, hconnects, hnone⟩
  · exact ⟨websocket, userId, ht.tag.trans htag, rfl⟩
  · -- the user is there when a connect looks in time
    rw [ht.begins] at hb
    subst hb
    rw [ht.active] at hnone
    exact absurd hnone (htime userId hconnects).1

theorem steady_advance (h : p.Steady) (hth : p.threads[i]? = some th) (hrest : th.rest = .call c next)
    (htime : CallInTime p.state (p.threads.eraseIdx i) th.tag c) :
    Steady ⟨(system.turn th p.state).2, p.threads.set i (system.turn th p.state).1⟩ := by
  have hmem : th ∈ p.threads := List.mem_of_getElem? hth
  have hready (channel : Channel) (hc : c = .subscribe channel) : p.state.pubsub = true :=
    h.ready th hmem channel (hc ▸ Thread.nextCall_of_rest hrest)
  obtain ⟨b, s₁, ht⟩ := turned h.good hrest hready (h.suspended th hmem)
  have hold {y : SocketThread} (hy : y ∈ p.threads.set i (system.turn th p.state).1) :
      y = (system.turn th p.state).1 ∨ y ∈ p.threads := by
    rcases mem_set_thread hy with hnew | ⟨j, -, hj⟩
    · exact .inl hnew
    · exact .inr (List.mem_of_getElem? hj)
  constructor
  case good => exact ht.ends.good
  case joined => exact fun userId huser => joined_advance h hth hrest ht htime huser
  case left => exact fun userId huser => left_advance h hth hrest ht htime huser
  case ready =>
    intro y hy channel hcall
    rcases hold hy with rfl | hy
    · exact ht.ends.ready channel hcall
    · exact ht.ends.pubsub (ht.pubsub.trans (h.ready y hy channel hcall))
  case suspended =>
    intro y hy
    rcases hold hy with rfl | hy
    · rw [ht.tag]
      exact ht.suspended
    · exact h.suspended y hy
  case raises =>
    intro y hy e he
    rcases hold hy with rfl | hy
    · exact raises_advance ht htime e he
    · exact h.raises y hy e he

end advance

/-- A new thread waits for a call that subscribes nothing. -/
theorem nextCall_fresh (task : SocketTask) :
    (∀ channel, (system.fresh task).nextCall ≠ some (.subscribe channel)) ∧
      ∀ e, (system.fresh task).rest ≠ .raise e := by
  cases task <;> exact ⟨nofun, nofun⟩

theorem steady_spawn {p : SocketPool} (h : p.Steady) (task : SocketTask) :
    Steady { p with threads := p.threads ++ [system.fresh task] } := by
  have hold {y : SocketThread} (hy : y ∈ p.threads ++ [system.fresh task]) :
      y ∈ p.threads ∨ y = system.fresh task := by simpa using hy
  obtain ⟨hnext, hraise⟩ := nextCall_fresh task
  constructor
  case good => exact h.good
  case joined =>
    intro userId huser
    rcases h.joined userId huser with hsubscribed | ⟨y, hy, hcovering⟩
    · exact .inl hsubscribed
    · exact .inr ⟨y, List.mem_append_left _ hy, hcovering⟩
  case left =>
    intro userId huser
    rcases h.left userId huser with hsubscribed | ⟨y, hy, hcall⟩
    · exact .inl hsubscribed
    · exact .inr ⟨y, List.mem_append_left _ hy, hcall⟩
  case ready =>
    intro y hy channel hcall
    rcases hold hy with hy | rfl
    · exact h.ready y hy channel hcall
    · exact absurd hcall (hnext channel)
  case suspended =>
    intro y hy
    rcases hold hy with hy | rfl
    · exact h.suspended y hy
    · exact suspended_program task
  case raises =>
    intro y hy e he
    rcases hold hy with hy | rfl
    · exact h.raises y hy e he
    · exact absurd he (hraise e)

theorem steady_environment {p : SocketPool} (h : p.Steady) (e : SocketEvent) :
    Steady { p with state := environment e p.state } := by
  cases e with
  | close websocket =>
    exact ⟨⟨h.good.nonempty, h.good.pubsub, h.good.listening⟩, h.joined, h.left, h.ready, h.suspended,
      h.raises⟩
  | listenerStops =>
    exact ⟨⟨h.good.nonempty, h.good.pubsub, fun hl => by cases hl⟩, h.joined, h.left, h.ready,
      h.suspended, h.raises⟩

theorem steady_step {p : SocketPool} {m : SocketMove} (h : p.Steady) (htime : p.InTime m) :
    Steady (system.step p m) := by
  have hcase := system.step_cases p m
  generalize system.step p m = q at hcase
  cases hcase with
  | spawn task => exact steady_spawn h task
  | environment e => exact steady_environment h e
  | idle i => exact h
  | @turn i th c next hth hrest =>
    exact steady_advance h hth hrest (htime th hth c (Thread.nextCall_of_rest hrest))

theorem steady_start (closed : ℕ → Bool) : (start closed).Steady where
  good := ⟨nofun, fun _ h => absurd rfl h, nofun⟩
  joined _ h := absurd rfl h
  left _ _ := .inl rfl
  ready _ h := by cases h
  suspended _ h := by cases h
  raises _ h := by cases h

theorem Steady.agrees {p : SocketPool} (h : p.Steady) : p.Agrees := by
  intro hquiescent
  have hidle {th : SocketThread} (hth : th ∈ p.threads) {c : SocketCall} (hc : th.nextCall = some c) :
      False := by
    rw [hquiescent th hth] at hc
    cases hc
  refine ⟨fun userId => ⟨fun hsubscribed => ?_, ?_⟩, h.good.nonempty, ?_⟩
  · cases hactive : p.state.active userId with
    | none =>
      rcases h.left userId hactive with hnot | ⟨th, hth, hc⟩
      · rw [hsubscribed] at hnot
        cases hnot
      · exact (hidle hth hc).elim
    | some sockets => exact ⟨sockets, rfl, fun he => h.good.nonempty userId (he ▸ hactive)⟩
  · rintro ⟨sockets, hactive, -⟩
    rcases h.joined userId (by simp [hactive]) with hsubscribed | ⟨th, hth, c, hc, -⟩
    · exact hsubscribed
    · exact (hidle hth hc).elim
  · intro th hth websocket userId htag e he
    obtain ⟨websocket', userId', htag', rfl⟩ := h.raises th hth e he
    rw [htag] at htag'
    cases htag'
    rfl

/-! ## Every run -/

/-- In time, subscriptions and connections agree at the end of every run. -/
theorem subscriptions_agree {closed : ℕ → Bool} {p : SocketPool}
    (hruns : RunsWhere system.step InTime (start closed) p) : p.Agrees :=
  (hruns.invariant (I := Steady) (steady_start closed) (fun _ _ htime h => steady_step h htime)).agrees

def connectedAndLeft : List SocketMove :=
  [.spawn (.connect 0 0), .advance 0, .advance 0, .advance 0, .spawn (.connect 1 0), .advance 1,
    .spawn (.disconnect 0 0), .advance 2, .spawn (.disconnect 1 0), .advance 3, .advance 3]

theorem subscriptions_agree_connectedAndLeft :
    Agrees (run system.step (start (fun _ => false)) connectedAndLeft) := by
  have htime : EveryStep system.step InTime (start (fun _ => false)) connectedAndLeft := by
    decide +kernel
  exact subscriptions_agree htime.runsWhere

/-- Two first connects of a user wait for the broadcasts; then each finds two connections. -/
def connectedTogether : List SocketMove :=
  [.spawn (.connect 0 0), .spawn (.connect 1 0), .advance 0, .advance 1, .advance 0, .advance 1]

theorem together_not_subscribed : ¬ ∀ (closed : ℕ → Bool) (moves : List SocketMove),
    Agrees (run system.step (start closed) moves) := by
  intro h
  have hquiescent : ∀ th ∈ (run system.step (start (fun _ => false)) connectedTogether).threads,
      th.nextCall = none := by
    decide +kernel
  have hactive : (run system.step (start (fun _ => false)) connectedTogether).state.active 0 =
      some [0, 1] := by
    decide +kernel
  have hsubscribed : (run system.step (start (fun _ => false)) connectedTogether).state.subscribed
      (.user 0) = false := by
    decide +kernel
  have huser := ((h (fun _ => false) connectedTogether hquiescent).1 0).mpr ⟨_, hactive, by simp⟩
  rw [hsubscribed] at huser
  cases huser

end SocketPool

end FastapiTemplate.WebSockets
