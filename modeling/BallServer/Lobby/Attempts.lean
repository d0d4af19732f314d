import BallServer.Lobby.Session

/-!
# Attempts to reconnect

{lit}`ReconnectRoutine` leaves the connection as it is, loses it, or makes a new one and
asks for the messages after the last one counted.

Main results:

- Theorem {lit}`onConnectionChanged_acts` and theorem {lit}`resume_acts`: nothing else
  happens.
-/

namespace BallServer.Lobby

namespace Client

/-- The session of the client goes on or ends; nothing is taken off the queue. -/
structure Follows (c c' : Client) : Prop where
  queue : c'.msgQueue = c.msgQueue
  loggedIn : c'.isLoggedIn = true → c.isLoggedIn = true ∧ c'.lastAck = c.lastAck
  routine : c'.reconnectRoutine ≠ none → c'.isLoggedIn = true

/-- What {lit}`ReconnectRoutine` may do: leave the connection as it is, lose it, or ask on
a new one. -/
inductive Acts (c : Client) : Client × Option Nat → Prop where
  | keep {c' : Client} (h : c.Follows c') (hepoch : c'.connectionEpoch = c.connectionEpoch)
      (hreading : c'.reading = c.reading) (hconn : c'.isConnected = c.isConnected)
      (hbuf : c'.accumBuf = c.accumBuf) : Acts c (c', none)
  | lose {c' : Client} (h : c.Follows c') (hconn : c'.isConnected = false)
      (hepoch : c'.connectionEpoch = c.connectionEpoch ∨
        c'.connectionEpoch = c.connectionEpoch + 1 ∧ c.isLoggedIn = true) : Acts c (c', none)
  | ask {c' : Client} (h : c.Follows c') (hlogin : c.isLoggedIn = true)
      (hepoch : c'.connectionEpoch = c.connectionEpoch + 1) (hreading : c'.reading = true)
      (hbuf : c'.accumBuf = []) : Acts c (c', some c.lastAck)

/-- The routine runs for a client that is logged in only. -/
def Routed (c : Client) : Prop :=
  c.reconnectRoutine ≠ none → c.isLoggedIn = true

/-- The state before the step allows an attempt to reconnect. -/
def Asks (c : Client) : Event → Prop
  | .change _ _ =>
      c.connQueue.head? = some false ∧ c.shouldPreserveStateOnDisconnect = true ∧
        c.reconnectRoutine = none
  | .resume _ _ deadline => deadline = true ∧ ∃ n, c.reconnectRoutine = some (.retry n)
  | _ => False

theorem nextAttempt_follows {c : Client} (n : Nat) (hc : c.isLoggedIn = true) :
    c.Follows (c.nextAttempt n) := by
  unfold nextAttempt
  split
  · exact ⟨rfl, fun h => (by cases h), fun h => absurd rfl h⟩
  · exact ⟨rfl, fun h => ⟨h, rfl⟩, fun _ => hc⟩

theorem nextAttempt_epoch (c : Client) (n : Nat) :
    (c.nextAttempt n).connectionEpoch = c.connectionEpoch := by
  unfold nextAttempt
  split <;> rfl

theorem nextAttempt_lost {c : Client} (n : Nat) (hc : c.isConnected = false) :
    (c.nextAttempt n).isConnected = false := by
  unfold nextAttempt
  split
  · rfl
  · exact hc

theorem tryReconnect_acts {c : Client} (hc : c.isLoggedIn = true) (n : Nat)
    (connectOk sendOk : Bool) : c.Acts (c.tryReconnect n connectOk sendOk) := by
  have hdown : (if c.isConnected then c.disconnect true else c).isConnected = false := by
    split
    · rfl
    · rename_i hconn
      exact Bool.eq_false_iff.mpr hconn
  have hepoch : (if c.isConnected then c.disconnect true else c).connectionEpoch =
      c.connectionEpoch := by
    split <;> rfl
  have hfollows : c.Follows (if c.isConnected then c.disconnect true else c) := by
    split <;> exact ⟨rfl, fun h => ⟨h, rfl⟩, fun _ => hc⟩
  have hlogin : (if c.isConnected then c.disconnect true else c).isLoggedIn = true := by
    split <;> exact hc
  have hack : (if c.isConnected then c.disconnect true else c).lastAck = c.lastAck := by
    split <;> rfl
  unfold tryReconnect connect
  generalize (if c.isConnected then c.disconnect true else c) = d at *
  obtain ⟨hqueue, -, -⟩ := hfollows
  cases connectOk with
  | false =>
      simp only [Bool.false_eq_true, if_false, hdown]
      exact .lose ⟨hqueue, fun _ => ⟨hc, hack⟩, fun _ => hlogin⟩ rfl (.inl hepoch)
  | true =>
      cases sendOk with
      | true =>
          simp only [if_true, hack]
          exact .ask ⟨hqueue, fun _ => ⟨hc, rfl⟩, fun _ => hlogin⟩ hc
            (congrArg (· + 1) hepoch) rfl rfl
      | false =>
          simp only [if_true, Bool.false_eq_true, if_false]
          generalize he : ({ ({ d with
            isConnected := true
            accumBuf := []
            running := true
            connectionEpoch := d.connectionEpoch + 1
            reading := true
            connQueue := d.connQueue ++ [true]
            awaitingReconnectResponse := true
            reconnectSucceeded := false } : Client).disconnect false with
              awaitingReconnectResponse := false } : Client) = e
          have hlogin' : e.isLoggedIn = true := by rw [← he]; exact hlogin
          have hf := nextAttempt_follows (n + 1) hlogin'
          refine .lose ⟨hf.queue.trans ?_, fun h => ⟨hc, (hf.loggedIn h).2.trans ?_⟩, hf.routine⟩
            (nextAttempt_lost _ ?_) (.inr ⟨(nextAttempt_epoch _ _).trans ?_, hc⟩)
          · rw [← he]; exact hqueue
          · rw [← he]; exact hack
          · rw [← he]; rfl
          · rw [← he]; exact congrArg (· + 1) hepoch

theorem onConnectionChanged_acts {c : Client} (hc : c.Routed) (connected connectOk sendOk : Bool) :
    c.Acts (c.onConnectionChanged connected connectOk sendOk) := by
  have hsame : c.Acts (c, none) :=
    .keep ⟨rfl, fun h => ⟨h, rfl⟩, hc⟩ rfl rfl rfl rfl
  unfold onConnectionChanged
  split
  · exact hsame
  · rename_i hlost
    split
    · refine tryReconnect_acts ?_ 1 connectOk sendOk
      simp only [shouldPreserveStateOnDisconnect, canAttemptReconnect, not_or, Bool.not_eq_false,
        Bool.and_eq_true] at hlost
      exact hlost.2.1.1
    · exact hsame

theorem nextAttempt_acts {c : Client} (hc : c.isLoggedIn = true) (n : Nat) :
    c.Acts (c.nextAttempt n, none) := by
  have hf := nextAttempt_follows n hc
  by_cases hstop : 6 < n ∨ c.canAttemptReconnect = false
  · refine .lose hf ?_ (.inl (nextAttempt_epoch c n))
    rw [nextAttempt, if_pos hstop]
    rfl
  · refine .keep hf (nextAttempt_epoch c n) ?_ ?_ ?_ <;> rw [nextAttempt, if_neg hstop]

/-- An attempt has failed. -/
theorem failed_acts {c : Client} (hc : c.isLoggedIn = true) (n : Nat) :
    c.Acts ((if c.isConnected then
      ({ c with awaitingReconnectResponse := false } : Client).disconnect false
      else { c with awaitingReconnectResponse := false }).nextAttempt n, none) := by
  generalize he : (if c.isConnected then
      ({ c with awaitingReconnectResponse := false } : Client).disconnect false
      else { c with awaitingReconnectResponse := false }) = d
  have hd : d.isLoggedIn = true ∧ d.isConnected = false ∧ d.msgQueue = c.msgQueue ∧
      d.lastAck = c.lastAck ∧ d.connectionEpoch = c.connectionEpoch := by
    rw [← he]
    split
    · exact ⟨hc, rfl, rfl, rfl, rfl⟩
    · rename_i hconn
      exact ⟨hc, Bool.eq_false_iff.mpr hconn, rfl, rfl, rfl⟩
  obtain ⟨hlogin, hdown, hqueue, hack, hepoch⟩ := hd
  have hf := nextAttempt_follows n hlogin
  exact .lose ⟨hf.queue.trans hqueue, fun h => ⟨hc, (hf.loggedIn h).2.trans hack⟩, hf.routine⟩
    (nextAttempt_lost n hdown) (.inl ((nextAttempt_epoch d n).trans hepoch))

theorem resume_acts {c : Client} (hc : c.Routed) (connectOk sendOk deadline : Bool) :
    c.Acts (c.resume connectOk sendOk deadline) := by
  have hsame : c.Acts (c, none) :=
    .keep ⟨rfl, fun h => ⟨h, rfl⟩, hc⟩ rfl rfl rfl rfl
  unfold resume
  cases hr : c.reconnectRoutine with
  | none => exact hsame
  | some r =>
      have hlogin : c.isLoggedIn = true := hc (by simp [hr])
      cases r with
      | retry n =>
          cases deadline with
          | true => exact tryReconnect_acts hlogin n connectOk sendOk
          | false => exact hsame
      | connecting n =>
          cases deadline with
          | true => exact nextAttempt_acts hlogin _
          | false => exact hsame
      | await n =>
          dsimp only
          split
          · exact hsame
          · split
            · exact .keep ⟨rfl, fun h => ⟨h, rfl⟩, fun h => absurd rfl h⟩ rfl rfl rfl rfl
            · simpa only [hr] using failed_acts hlogin (n + 1)

/-- A request is sent only where the state before allows it. -/
theorem onConnectionChanged_asks {c : Client} {connected connectOk sendOk : Bool} {k : Nat}
    (h : (c.onConnectionChanged connected connectOk sendOk).2 = some k) :
    connected = false ∧ c.shouldPreserveStateOnDisconnect = true ∧ c.reconnectRoutine = none := by
  unfold onConnectionChanged at h
  split at h
  · cases h
  · rename_i hlost
    split at h
    · rename_i hroutine
      simpa [hroutine] using hlost
    · cases h

theorem resume_asks {c : Client} {connectOk sendOk deadline : Bool} {k : Nat}
    (h : (c.resume connectOk sendOk deadline).2 = some k) :
    deadline = true ∧ ∃ n, c.reconnectRoutine = some (.retry n) := by
  unfold resume at h
  split at h
  · cases h
  · rename_i n hr
    split at h
    · exact ⟨‹_›, n, hr⟩
    · cases h
  · split at h <;> cases h
  · dsimp only at h
    split at h
    · cases h
    · split at h <;> cases h

end Client

end BallServer.Lobby
