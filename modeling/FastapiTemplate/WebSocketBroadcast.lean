import FastapiTemplate.WebSocketManager

/-!
# A broadcast to the local connections

`_local_broadcast` goes through copies: first of the keys of `active_connections`, then of the
sockets of each user, while a failed send takes its socket out of the lists themselves. Nothing else
runs in between. Every socket is tried once, and the sockets that failed are gone at the end.
-/

namespace FastapiTemplate.WebSockets

/-- `active_connections`: the users in the order in which they came, with their sockets. -/
structure Connections where
  entries : List (ℕ × List ℕ)
  nodup : (entries.map Prod.fst).Nodup

namespace Connections

def keys (table : Connections) : List ℕ := table.entries.map Prod.fst

def sockets (table : Connections) (userId : ℕ) : Option (List ℕ) := table.entries.lookup userId

end Connections

def localBroadcast (message : String) : List ℕ → SocketProgram Unit
  | [] => pure ()
  | userId :: rest => do
    localSend message userId
    localBroadcast message rest

namespace ManagerState

def holding (s : ManagerState) (table : Connections) : ManagerState :=
  { s with active := table.sockets }

def left (s : ManagerState) (userId : ℕ) (sockets : List ℕ) : ManagerState :=
  { s with
    active := Function.update s.active userId (if sockets = [] then none else some sockets)
    subscribed := if sockets = [] ∧ s.pubsub = true
      then Function.update s.subscribed (.user userId) false else s.subscribed }

@[simp] theorem left_closed (s : ManagerState) (userId : ℕ) (sockets : List ℕ) :
    (s.left userId sockets).closed = s.closed := rfl

@[simp] theorem left_pubsub (s : ManagerState) (userId : ℕ) (sockets : List ℕ) :
    (s.left userId sockets).pubsub = s.pubsub := rfl

def reached (s : ManagerState) (sockets : List ℕ) : List ℕ := sockets.filter (!s.closed ·)

def losesAll (s : ManagerState) (userId : ℕ) : Bool :=
  (s.active userId).any (fun sockets => sockets ≠ [] && sockets.all s.closed)

def remaining (s : ManagerState) (userId : ℕ) : Option (List ℕ) :=
  if s.losesAll userId then none else (s.active userId).map s.reached

end ManagerState

def sendTarget : (c : SocketCall) × c.Answer → Option (ℕ × String)
  | ⟨.sendText websocket message, _⟩ => some (websocket, message)
  | _ => none

def sendsOf (trace : List ((c : SocketCall) × c.Answer)) : List (ℕ × String) :=
  trace.filterMap sendTarget

abbrev SocketProgram.run {α : Type} (p : SocketProgram α) (s : ManagerState) :
    Except SocketError α × ManagerState :=
  p.execute ManagerState.handler s

def SocketProgram.sends {α : Type} (p : SocketProgram α) (s : ManagerState) : List (ℕ × String) :=
  sendsOf (p.traceOf ManagerState.handler s)

structure Broadcasts (p : SocketProgram Unit) (s : ManagerState) (sends : List (ℕ × String))
    (t : ManagerState) : Prop where
  run : p.run s = (.ok (), t)
  sends : p.sends s = sends

theorem Broadcasts.bind {p : SocketProgram Unit} {f : Unit → SocketProgram Unit}
    {s t u : ManagerState} {sends sends' : List (ℕ × String)} (hp : Broadcasts p s sends t)
    (hf : Broadcasts (f ()) t sends' u) : Broadcasts (p >>= f) s (sends ++ sends') u where
  run := (Program.execute_bind_ok _).mpr ⟨(), t, hp.run, hf.run⟩
  sends := by
    have hrun : Program.execute ManagerState.handler p s = (.ok (), t) := hp.run
    have hfirst : sendsOf (Program.traceOf ManagerState.handler p s) = sends := hp.sends
    have hsecond : sendsOf (Program.traceOf ManagerState.handler (f ()) t) = sends' := hf.sends
    rw [SocketProgram.sends, Program.traceOf_bind, hrun, sendsOf, List.filterMap_append]
    exact congrArg₂ (· ++ ·) hfirst hsecond

theorem Broadcasts.pure (s : ManagerState) : Broadcasts (Pure.pure ()) s [] s := ⟨rfl, rfl⟩

theorem Broadcasts.call {c : SocketCall} {f : c.Answer → SocketProgram Unit} {s t u : ManagerState}
    {r : c.Answer} {sends : List (ℕ × String)} (hanswer : ManagerState.handler c s = (r, t))
    (hf : Broadcasts (f r) t sends u) :
    Broadcasts (ask c >>= f) s ((sendTarget ⟨c, r⟩).toList ++ sends) u where
  run := by
    have hrun : (ask c >>= f).run s = Program.execute ManagerState.handler
        (f (ManagerState.handler c s).1) (ManagerState.handler c s).2 := rfl
    rw [hrun, hanswer]
    exact hf.run
  sends := by
    have hsends : (ask c >>= f).sends s = sendsOf (⟨c, (ManagerState.handler c s).1⟩ ::
        Program.traceOf ManagerState.handler (f (ManagerState.handler c s).1)
          (ManagerState.handler c s).2) := rfl
    rw [hsends, hanswer, sendsOf, List.filterMap_cons]
    have hrest : List.filterMap sendTarget (Program.traceOf ManagerState.handler (f r) t) = sends :=
      hf.sends
    cases sendTarget ⟨c, r⟩ <;> simp [hrest]

/-! ## The sockets of one user -/

section sockets
variable {s : ManagerState} {userId : ℕ}

theorem handler_sockets {sockets : List ℕ} (hactive : s.active userId = some sockets) :
    ManagerState.handler (.sockets userId) s = (.ok sockets, s) := by
  simp [ManagerState.handler, hactive]

theorem handler_hasUser {sockets : List ℕ} (hactive : s.active userId = some sockets) :
    ManagerState.handler (.hasUser userId) s = (true, s) := by
  simp [ManagerState.handler, hactive]

theorem broadcasts_deleteIfEmpty {sockets : List ℕ} (hactive : s.active userId = some sockets) :
    Broadcasts (deleteIfEmpty userId) s [] (s.left userId sockets) := by
  refine Broadcasts.call (handler_sockets hactive) ?_
  by_cases hempty : sockets = []
  · subst hempty
    refine Broadcasts.call (c := .delete userId) rfl (Broadcasts.call (c := .hasPubsub) rfl ?_)
    cases hpubsub : s.pubsub with
    | true =>
      refine Broadcasts.call (c := .unsubscribe (.user userId)) (f := Pure.pure) ?_ (Broadcasts.pure _)
      simp [ManagerState.handler, ManagerState.left, hpubsub]
    | false =>
      have hleft : s.left userId [] = (ManagerState.handler (.delete userId) s).2 := by
        simp [ManagerState.handler, ManagerState.left, hpubsub]
      rw [hleft, if_neg Bool.false_ne_true, ← hpubsub]
      exact Broadcasts.pure _
  · have hleft : s.left userId sockets = s := by
      simp [ManagerState.left, hempty, ← hactive]
    have hskip : (if sockets = [] then ask (.delete userId) >>= fun _ =>
        ask .hasPubsub >>= fun pubsub => if pubsub = true then ask (.unsubscribe (.user userId))
          else Pure.pure () else Pure.pure ()) = (Pure.pure () : SocketProgram Unit) := if_neg hempty
    rw [hleft]
    change Broadcasts (if sockets = [] then _ else _) s [] s
    rw [hskip]
    exact Broadcasts.pure s

/-- A failed socket is taken out, and its user with the last one. -/
theorem broadcasts_disconnect {kept rest : List ℕ} {websocket : ℕ} (hkept : websocket ∉ kept)
    (hactive : s.active userId = some (kept ++ websocket :: rest)) :
    Broadcasts (disconnect websocket userId) s [] (s.left userId (kept ++ rest)) := by
  have hin : websocket ∈ kept ++ websocket :: rest := by simp
  have herase : (kept ++ websocket :: rest).erase websocket = kept ++ rest := by
    rw [List.erase_append_right _ hkept, List.erase_cons_head]
  refine Broadcasts.call (handler_hasUser hactive) (Broadcasts.call (handler_sockets hactive) ?_)
  change Broadcasts (if websocket ∈ kept ++ websocket :: rest then
    ask (.remove userId websocket) >>= fun _ => deleteIfEmpty userId else deleteIfEmpty userId) s _ _
  rw [if_pos hin]
  let t : ManagerState :=
    { s with active := Function.update s.active userId (some (kept ++ rest)) }
  have hremoved : ManagerState.handler (.remove userId websocket) s = ((), t) := by
    simp [ManagerState.handler, hactive, herase, t]
  have hrest : t.active userId = some (kept ++ rest) := Function.update_self ..
  have hleft : t.left userId (kept ++ rest) = s.left userId (kept ++ rest) := by
    simp [ManagerState.left, t]
  refine Broadcasts.call hremoved ?_
  rw [← hleft]
  exact broadcasts_deleteIfEmpty hrest

theorem left_left {sockets : List ℕ} (hne : sockets ≠ []) (others : List ℕ) :
    (s.left userId sockets).left userId others = s.left userId others := by
  simp [ManagerState.left, hne]

/-- The state after the sends to these sockets, when those before them were reached. -/
def ManagerState.tried (s : ManagerState) (userId : ℕ) (before sockets : List ℕ) : ManagerState :=
  if s.reached sockets = sockets then s else s.left userId (before ++ s.reached sockets)

theorem reached_cons_closed {connection : ℕ} (hclosed : s.closed connection = true)
    (rest : List ℕ) : s.reached (connection :: rest) = s.reached rest := by
  simp [ManagerState.reached, hclosed]

theorem reached_cons_open {connection : ℕ} (hopen : s.closed connection = false)
    (rest : List ℕ) : s.reached (connection :: rest) = connection :: s.reached rest := by
  simp [ManagerState.reached, hopen]

theorem tried_cons_closed {connection : ℕ} (hclosed : s.closed connection = true)
    (before rest : List ℕ) : s.tried userId before (connection :: rest) =
      s.left userId (before ++ s.reached rest) := by
  have hshorter : s.reached rest ≠ connection :: rest := by
    intro hsame
    have hle : (s.reached rest).length ≤ rest.length := List.length_filter_le ..
    rw [hsame, List.length_cons] at hle
    omega
  rw [ManagerState.tried, reached_cons_closed hclosed, if_neg hshorter]

theorem tried_cons_open {connection : ℕ} (hopen : s.closed connection = false)
    (before rest : List ℕ) : s.tried userId before (connection :: rest) =
      s.tried userId (before ++ [connection]) rest := by
  simp [ManagerState.tried, reached_cons_open hopen]

/-- After a failure before the last socket, the other sends go on as if the socket had not been
there. -/
theorem tried_left {before rest : List ℕ} (hne : before ++ rest ≠ []) :
    (s.left userId (before ++ rest)).tried userId before rest =
      s.left userId (before ++ s.reached rest) := by
  have hreached : (s.left userId (before ++ rest)).reached rest = s.reached rest := rfl
  unfold ManagerState.tried
  rw [hreached, left_left hne]
  split
  case isTrue hall => rw [hall]
  case isFalse => rfl

/-- The loop of `_local_send`, by induction on the sockets that are left. -/
theorem broadcasts_sendEach (message : String) {before sockets : List ℕ}
    (hbefore : ∀ websocket ∈ before, s.closed websocket = false)
    (hactive : s.active userId = some (before ++ sockets)) :
    Broadcasts (sendEach message userId sockets) s (sockets.map (·, message))
      (s.tried userId before sockets) := by
  induction sockets generalizing before s with
  | nil => exact Broadcasts.pure s
  | cons connection rest ih =>
    cases hclosed : s.closed connection with
    | true =>
      have hanswer : ManagerState.handler (.sendText connection message) s =
          (.error (.closed connection), s) := by simp [ManagerState.handler, hclosed]
      have hnotin : connection ∉ before := fun hin => by simp [hbefore connection hin] at hclosed
      rw [tried_cons_closed hclosed]
      refine Broadcasts.call hanswer ((broadcasts_disconnect hnotin hactive).bind ?_)
      by_cases hlast : before ++ rest = []
      · obtain ⟨rfl, rfl⟩ := List.append_eq_nil_iff.mp hlast
        exact Broadcasts.pure _
      · rw [← tried_left hlast]
        refine ih hbefore ?_
        simp [ManagerState.left, hlast]
    | false =>
      have hanswer : ManagerState.handler (.sendText connection message) s = (.ok (), s) := by
        simp [ManagerState.handler, hclosed]
      rw [tried_cons_open hclosed]
      refine Broadcasts.call hanswer (ih ?_ (by rw [hactive, List.append_assoc]; rfl))
      intro websocket hin
      rcases List.mem_append.mp hin with hin | hin
      · exact hbefore websocket hin
      · rw [List.mem_singleton.mp hin]
        exact hclosed

theorem broadcasts_localSend (message : String) {sockets : List ℕ}
    (hactive : s.active userId = some sockets) :
    Broadcasts (localSend message userId) s (sockets.map (·, message))
      (s.tried userId [] sockets) := by
  refine Broadcasts.call (handler_hasUser hactive) (Broadcasts.call (handler_sockets hactive) ?_)
  exact broadcasts_sendEach message (by simp) hactive

theorem reached_eq_nil {sockets : List ℕ} :
    s.reached sockets = [] ↔ sockets.all s.closed = true := by
  simp [ManagerState.reached]

theorem tried_active {sockets : List ℕ} (hactive : s.active userId = some sockets) :
    (s.tried userId [] sockets).active = Function.update s.active userId (s.remaining userId) := by
  unfold ManagerState.tried
  split
  case isTrue hall =>
    have hsome : s.losesAll userId = false := by
      by_contra hlost
      have hboth : sockets ≠ [] ∧ sockets.all s.closed = true := by
        simpa [ManagerState.losesAll, hactive] using hlost
      exact hboth.1 (hall ▸ reached_eq_nil.mpr hboth.2)
    rw [ManagerState.remaining, hsome, hactive, Option.map_some, hall, ← hactive]
    simp
  case isFalse hsome =>
    have hne : sockets ≠ [] := fun hempty => hsome (by rw [hempty]; rfl)
    simp [ManagerState.left, ManagerState.remaining, ManagerState.losesAll, hactive, hne,
      reached_eq_nil]

theorem tried_subscribed {sockets : List ℕ} (hactive : s.active userId = some sockets) :
    (s.tried userId [] sockets).subscribed = if s.losesAll userId = true ∧ s.pubsub = true
      then Function.update s.subscribed (.user userId) false else s.subscribed := by
  unfold ManagerState.tried
  split
  case isTrue hall =>
    have hsome : ¬ (s.losesAll userId = true ∧ s.pubsub = true) := by
      rintro ⟨hlost, -⟩
      have hboth : sockets ≠ [] ∧ sockets.all s.closed = true := by
        simpa [ManagerState.losesAll, hactive] using hlost
      exact hboth.1 (hall ▸ reached_eq_nil.mpr hboth.2)
    rw [if_neg hsome]
  case isFalse hsome =>
    have hne : sockets ≠ [] := fun hempty => hsome (by rw [hempty]; rfl)
    simp [ManagerState.left, ManagerState.losesAll, hactive, hne, reached_eq_nil]

end sockets

/-! ## All users -/

section users
variable {s t : ManagerState}

theorem tried_closed (s : ManagerState) (userId : ℕ) (before sockets : List ℕ) :
    (s.tried userId before sockets).closed = s.closed := by
  unfold ManagerState.tried
  split <;> rfl

theorem tried_pubsub (s : ManagerState) (userId : ℕ) (before sockets : List ℕ) :
    (s.tried userId before sockets).pubsub = s.pubsub := by
  unfold ManagerState.tried
  split <;> rfl

theorem losesAll_congr {userId : ℕ} (hclosed : t.closed = s.closed)
    (hactive : t.active userId = s.active userId) : t.losesAll userId = s.losesAll userId := by
  simp [ManagerState.losesAll, hclosed, hactive]

theorem remaining_congr {userId : ℕ} (hclosed : t.closed = s.closed)
    (hactive : t.active userId = s.active userId) : t.remaining userId = s.remaining userId := by
  have hreached : t.reached = s.reached := by
    funext sockets
    simp [ManagerState.reached, hclosed]
  rw [ManagerState.remaining, ManagerState.remaining, losesAll_congr hclosed hactive, hactive,
    hreached]

structure Cleaned (users : List ℕ) (s t : ManagerState) : Prop where
  active : ∀ userId, t.active userId =
    if userId ∈ users then s.remaining userId else s.active userId
  subscribed : ∀ userId, t.subscribed (.user userId) =
    if userId ∈ users ∧ s.losesAll userId = true ∧ s.pubsub = true then false
      else s.subscribed (.user userId)
  broadcast : t.subscribed .broadcast = s.subscribed .broadcast

/-- The first user is none of the others, so that these find their own entries as they were. -/
theorem Cleaned.cons {user : ℕ} {users sockets : List ℕ} (hactive : s.active user = some sockets)
    (hother : user ∉ users) (h : Cleaned users (s.tried user [] sockets) t) :
    Cleaned (user :: users) s t where
  active userId := by
    rw [h.active, tried_active hactive]
    by_cases hsame : userId = user
    · subst hsame
      rw [if_neg hother, if_pos List.mem_cons_self, Function.update_self]
    · have hkept : (s.tried user [] sockets).active userId = s.active userId := by
        rw [tried_active hactive, Function.update_of_ne hsame]
      rw [remaining_congr (tried_closed ..) hkept, Function.update_of_ne hsame]
      simp [hsame]
  subscribed userId := by
    rw [h.subscribed, tried_pubsub, tried_subscribed hactive]
    by_cases hsame : userId = user
    · subst hsame
      by_cases hlost : s.losesAll userId = true ∧ s.pubsub = true <;> simp [hother, hlost]
    · have hkept : (s.tried user [] sockets).active userId = s.active userId := by
        rw [tried_active hactive, Function.update_of_ne hsame]
      rw [losesAll_congr (tried_closed ..) hkept]
      by_cases hlost : s.losesAll user = true ∧ s.pubsub = true <;>
        simp [hsame, hlost]
  broadcast := by
    rw [h.broadcast, tried_subscribed hactive]
    split <;> simp

/-- By induction on the users that are left. -/
theorem broadcasts_localBroadcast (message : String) {entries : List (ℕ × List ℕ)}
    (hnodup : (entries.map Prod.fst).Nodup) (hactive : ∀ e ∈ entries, s.active e.1 = some e.2) :
    ∃ t, Broadcasts (localBroadcast message (entries.map Prod.fst)) s
        (entries.flatMap (fun e => e.2.map (·, message))) t ∧
      Cleaned (entries.map Prod.fst) s t := by
  induction entries generalizing s with
  | nil => exact ⟨s, Broadcasts.pure s, ⟨by simp, by simp, rfl⟩⟩
  | cons e rest ih =>
    obtain ⟨hother, hrest⟩ := List.nodup_cons.mp hnodup
    have hfirst : s.active e.1 = some e.2 := hactive e List.mem_cons_self
    have hkept : ∀ e' ∈ rest, (s.tried e.1 [] e.2).active e'.1 = some e'.2 := by
      intro e' he'
      have hne : e'.1 ≠ e.1 := fun hsame => hother (hsame ▸ List.mem_map_of_mem he')
      rw [tried_active hfirst, Function.update_of_ne hne]
      exact hactive e' (List.mem_cons_of_mem e he')
    obtain ⟨t, hruns, hcleaned⟩ := ih hrest hkept
    exact ⟨t, (broadcasts_localSend message hfirst).bind hruns, hcleaned.cons hfirst hother⟩

end users

theorem Connections.sockets_eq (table : Connections) :
    ∀ e ∈ table.entries, table.sockets e.1 = some e.2 := by
  obtain ⟨entries, hnodup⟩ := table
  change ∀ e ∈ entries, entries.lookup e.1 = some e.2
  induction entries with
  | nil => exact fun e he => by cases he
  | cons first rest ih =>
    obtain ⟨hother, hrest⟩ := List.nodup_cons.mp hnodup
    intro e he
    rcases List.mem_cons.mp he with rfl | he
    · exact List.lookup_cons_self
    · have hne : e.1 ≠ first.1 := fun hsame => hother (hsame ▸ List.mem_map_of_mem he)
      rw [List.lookup_cons, beq_eq_false_iff_ne.mpr hne]
      exact ih hrest e he

theorem Connections.sockets_none {table : Connections} {userId : ℕ} (h : userId ∉ table.keys) :
    table.sockets userId = none := by
  rw [Connections.sockets, List.lookup_eq_none_iff]
  intro e he
  exact bne_iff_ne.mpr (fun hsame => h (hsame ▸ List.mem_map_of_mem he))

/-- Every connection is tried once. Afterwards the sockets that failed are gone, and with them the
users who have lost all their sockets, who are unsubscribed; every other entry and subscription is
as it was. -/
theorem localBroadcast_cleansUp (message : String) (table : Connections) (s : ManagerState) :
    ∃ t, Broadcasts (localBroadcast message table.keys) (s.holding table)
        (table.entries.flatMap (fun e => e.2.map (·, message))) t ∧
      (∀ userId, t.active userId = if (s.holding table).losesAll userId then none
        else (table.sockets userId).map (fun sockets => sockets.filter (!s.closed ·))) ∧
      (∀ userId, t.subscribed (.user userId) =
        if (s.holding table).losesAll userId ∧ s.pubsub then false
          else s.subscribed (.user userId)) ∧
      t.subscribed .broadcast = s.subscribed .broadcast := by
  obtain ⟨t, hruns, hcleaned⟩ := broadcasts_localBroadcast message table.nodup
    (s := s.holding table) table.sockets_eq
  refine ⟨t, hruns, fun userId => ?_, fun userId => ?_, hcleaned.broadcast⟩
  · rw [hcleaned.active]
    by_cases huser : userId ∈ table.entries.map Prod.fst
    · rw [if_pos huser]
      rfl
    · have hnone : table.sockets userId = none := Connections.sockets_none huser
      have hactive : (s.holding table).active userId = none := hnone
      rw [if_neg huser, hactive, hnone]
      simp
  · rw [hcleaned.subscribed]
    by_cases huser : userId ∈ table.entries.map Prod.fst
    · simp only [huser, true_and]
      rfl
    · have hactive : (s.holding table).active userId = none := Connections.sockets_none huser
      have hkeeps : (s.holding table).losesAll userId = false := by
        simp [ManagerState.losesAll, hactive]
      simp only [huser, false_and, if_false, hkeeps]
      rfl

end FastapiTemplate.WebSockets
