import OemAaMod.Lib.Run
import OemAaMod.Hud.Transport

/-!
# Sessions of a HUD transport

`*_tx_start` and `*_tx_stop` create and join the sender thread. What lives how
long decides what a session can see of the one before: the snapshot and `g_seq`
are process globals, `last_processed`, `prev` and `sync_bit` are locals of the
thread, and nothing resets the snapshot at a start.

* `SessionState`, `sessionStep` — any number of start/stop cycles with producer
  calls and sender turns in any order;
* `Isolated` — everything sent in a session is what the session's own producer
  calls make of a blank HUD;
* `stale_frame_after_restart` — on either transport a session that ended without
  a STOP status shows up in the next one;
* `isolated_of_fresh_starts` — sessions are isolated as long as each is started
  over a snapshot that shows a blank HUD.
-/

namespace OemAaMod

/-! ## The system -/

/-- Where the sender thread is, with its locals. -/
inductive SenderThread
  | absent
  | setup
  | running (s : Sender)
  | exited
deriving DecidableEq

/-- What was sent: in a turn of the loop, with the producer calls the session
had accepted by then, or on the way out. -/
inductive Emission
  | sent (calls : List TxCall) (msgs : List HudMsg)
  | cleared (msgs : List HudMsg)

structure SessionState where
  tx       : Tx := {}
  stop     : Bool := false
  threadUp : Bool := false
  thread   : SenderThread := .absent
  /-- The producer calls accepted in this session. -/
  calls    : List TxCall := []
  log      : List Emission := []

/-- How `sender_setup` ends. -/
inductive SetupResult
  | live
  | failed (connected : Bool)
deriving DecidableEq

inductive SessionAction
  | start (spawned : Bool)
  | setup (r : SetupResult) (hudAbsent : Bool)
  | call (c : TxCall)
  | iterate (hudAbsent : Bool)
  | requestStop
  | exit (hudAbsent : Bool)
  | join
deriving DecidableEq

def SessionState.spawn (s : SessionState) : SessionState :=
  { s with
    tx := { s.tx with active := false }
    stop := false
    threadUp := true
    thread := .setup
    calls := [] }

def sessionStep (b : Backend) (s : SessionState) : SessionAction → Option SessionState
  -- a start while the thread is up does nothing
  | .start spawned =>
    if s.threadUp then some s
    else if spawned then some s.spawn
    else some { s with tx := { s.tx with active := false }, stop := false }
  | .setup r hudAbsent =>
    if s.thread = .setup then
      match r with
      | .live => some { s with tx := { s.tx with active := true }, thread := .running {} }
      | .failed connected => some { s with
          thread := .exited
          log := s.log ++ [.cleared (if connected then teardownMsgs b hudAbsent else [])] }
    else none
  | .call c => some { s with
      tx := s.tx.call c
      calls := if s.tx.active then s.calls ++ [c] else s.calls }
  | .iterate hudAbsent =>
    match s.thread, s.stop with
    | .running sender, false =>
      let r := sender.iterate b hudAbsent s.tx
      some { s with thread := .running r.1, log := s.log ++ [.sent s.calls r.2] }
    | _, _ => none
  | .requestStop => if s.threadUp then some { s with stop := true } else none
  | .exit hudAbsent =>
    match s.thread, s.stop with
    | .running _, true => some { s with
        tx := { s.tx with active := false }
        thread := .exited
        log := s.log ++ [.cleared (teardownMsgs b hudAbsent)] }
    | _, _ => none
  | .join =>
    if s.threadUp ∧ s.stop ∧ s.thread = .exited then
      some { s with
        tx := { s.tx with active := false }
        threadUp := false
        thread := .absent }
    else none

/-! ## Isolation -/

/-- What calls make of a blank HUD. -/
def replayCalls (calls : List TxCall) : View := calls.foldl TxCall.apply .blank

def Emission.Isolated : Emission → Prop
  | sent calls msgs => ∀ m ∈ msgs, m.Shows (replayCalls calls)
  | cleared msgs => ∀ m ∈ msgs, m.Shows .blank

instance : (e : Emission) → Decidable e.Isolated
  | .sent calls msgs => inferInstanceAs (Decidable (∀ m ∈ msgs, m.Shows (replayCalls calls)))
  | .cleared msgs => inferInstanceAs (Decidable (∀ m ∈ msgs, m.Shows .blank))

/-- Nothing that was sent carries anything of an earlier session. -/
def Isolated (s : SessionState) : Prop := ∀ e ∈ s.log, e.Isolated

instance (s : SessionState) : Decidable (Isolated s) :=
  inferInstanceAs (Decidable (∀ e ∈ s.log, e.Isolated))

/-- A session with one turn and no STOP status, then another session. -/
def cablePull : List SessionAction :=
  [.start true, .setup .live false, .call (.nextTurn (some [65, 0]) 3), .iterate false,
    .requestStop, .exit false, .join, .start true, .setup .live false, .iterate false]

/-- The second session of `cablePull` opens with the turn of the first. -/
theorem stale_frame_after_restart :
    (¬∀ s, Run.Reach (sessionStep .svcnavi) (fun _ _ => True) {} s → Isolated s) ∧
    (¬∀ s, Run.Reach (sessionStep .vbs) (fun _ _ => True) {} s → Isolated s) := by
  constructor
  · intro h
    obtain ⟨s, hreach, hstale⟩ : ∃ s, Run.Reach (sessionStep .svcnavi) (fun _ _ => True) {} s ∧
        ¬Isolated s := Run.Reach.exists_of_replay cablePull (by decide +kernel)
    exact hstale (h s hreach)
  · intro h
    obtain ⟨s, hreach, hstale⟩ : ∃ s, Run.Reach (sessionStep .vbs) (fun _ _ => True) {} s ∧
        ¬Isolated s := Run.Reach.exists_of_replay cablePull (by decide +kernel)
    exact hstale (h s hreach)

/-! ## Fresh starts -/

/-- A start that spawns a sender over a snapshot with guidance still in it. -/
def StaleStart (s : SessionState) (a : SessionAction) : Prop :=
  a = .start true ∧ s.threadUp = false ∧ s.tx.snapshot.view ≠ .blank

instance (s : SessionState) (a : SessionAction) : Decidable (StaleStart s a) :=
  inferInstanceAs (Decidable (_ ∧ _ ∧ _))

/-- The snapshot shows this session's calls; without a thread nobody writes. -/
structure SessionInv (s : SessionState) : Prop where
  isolated : Isolated s
  shows    : s.threadUp = true → s.tx.snapshot.view = replayCalls s.calls
  active   : s.threadUp = false → s.tx.active = false
  thread   : s.thread ≠ .absent → s.threadUp = true

theorem sessionInv_init : SessionInv {} :=
  ⟨fun e he => absurd he (by simp), fun h => absurd h (by simp), fun _ => rfl,
    fun h => absurd rfl h⟩

theorem isolated_append {s : SessionState} (h : Isolated s) {e : Emission} (he : e.Isolated) :
    ∀ e' ∈ s.log ++ [e], e'.Isolated := by
  intro e' hmem
  rcases List.mem_append.mp hmem with hold | hnew
  · exact h e' hold
  · rw [List.mem_singleton] at hnew
    exact hnew ▸ he

theorem replayCalls_concat (calls : List TxCall) (c : TxCall) :
    replayCalls (calls ++ [c]) = c.apply (replayCalls calls) := by
  rw [replayCalls, List.foldl_append]
  rfl

/-- **Step lemma.** A step that is not a stale start keeps sessions apart. -/
theorem sessionInv_step {b : Backend} {s s' : SessionState} {a : SessionAction}
    (hinv : SessionInv s) (hguard : ¬StaleStart s a) (hstep : sessionStep b s a = some s') :
    SessionInv s' := by
  obtain ⟨hisolated, hshows, hactive, hthread⟩ := hinv
  cases a with
  | start spawned =>
    simp only [sessionStep] at hstep
    by_cases hup : s.threadUp = true
    · rw [if_pos hup, Option.some_inj] at hstep
      subst hstep
      -- the thread of a session before is still there, and goes on
      exact ⟨hisolated, hshows, hactive, hthread⟩
    · rw [if_neg hup] at hstep
      have hdown : s.threadUp = false := by simpa using hup
      cases spawned with
      | true =>
        rw [if_pos rfl, Option.some_inj] at hstep
        subst hstep
        -- the guard: the snapshot it starts on is blank
        have hblank : s.tx.snapshot.view = .blank := by
          by_contra hne
          exact hguard ⟨rfl, hdown, hne⟩
        exact ⟨hisolated, fun _ => hblank, fun h => absurd h (by simp [SessionState.spawn]),
          fun _ => rfl⟩
      | false =>
        rw [if_neg (by simp), Option.some_inj] at hstep
        subst hstep
        -- no thread, so the pipeline is not live either
        exact ⟨hisolated, hshows, fun _ => rfl, hthread⟩
  | setup r hudAbsent =>
    simp only [sessionStep, Option.ite_none_right_eq_some] at hstep
    obtain ⟨hpc, hs⟩ := hstep
    have hup : s.threadUp = true := hthread (by simp [hpc])
    cases r with
    | live =>
      rw [Option.some_inj] at hs
      subst hs
      exact ⟨hisolated, hshows, fun h => absurd hup (by simpa using h), fun _ => hup⟩
    | failed connected =>
      rw [Option.some_inj] at hs
      subst hs
      -- a failed setup tears down what it had connected
      have hclear : (Emission.cleared
          (if connected then teardownMsgs b hudAbsent else [])).Isolated := by
        cases connected with
        | true => exact teardownMsgs_shows b hudAbsent
        | false => exact fun m hm => absurd hm (by simp)
      exact ⟨isolated_append hisolated hclear, hshows, hactive, fun _ => hup⟩
  | call c =>
    simp only [sessionStep, Option.some_inj] at hstep
    subst hstep
    refine ⟨hisolated, fun hup => ?_, fun hdown => ?_, hthread⟩
    · -- a live pipeline replays the calls of its own session; another one drops them
      cases hlive : s.tx.active with
      | true =>
        simp only [if_true]
        rw [Tx.call_view s.tx c hlive, hshows hup, replayCalls_concat]
      | false =>
        simp only [Bool.false_eq_true, if_false]
        rw [Tx.call_inactive s.tx c hlive, hshows hup]
    · show (s.tx.call c).active = false
      rw [Tx.call_active, hactive hdown]
  | iterate hudAbsent =>
    simp only [sessionStep] at hstep
    split at hstep
    · rename_i sender hrun hgo
      rw [Option.some_inj] at hstep
      subst hstep
      have hup : s.threadUp = true := hthread (by simp [hrun])
      -- what is read is the replay of the calls so far
      have hsent : (Emission.sent s.calls (sender.iterate b hudAbsent s.tx).2).Isolated := by
        intro m hm
        rw [← hshows hup]
        exact iterate_shows b hudAbsent s.tx sender m hm
      exact ⟨isolated_append hisolated hsent, hshows, hactive, fun _ => hup⟩
    · exact absurd hstep (by simp)
  | requestStop =>
    simp only [sessionStep, Option.ite_none_right_eq_some, Option.some_inj] at hstep
    obtain ⟨-, rfl⟩ := hstep
    exact ⟨hisolated, hshows, hactive, hthread⟩
  | exit hudAbsent =>
    simp only [sessionStep] at hstep
    split at hstep
    · rename_i sender hrun hstop
      rw [Option.some_inj] at hstep
      subst hstep
      have hup : s.threadUp = true := hthread (by simp [hrun])
      exact ⟨isolated_append hisolated (teardownMsgs_shows b hudAbsent), hshows, fun _ => rfl,
        fun _ => hup⟩
    · exact absurd hstep (by simp)
  | join =>
    simp only [sessionStep, Option.ite_none_right_eq_some, Option.some_inj] at hstep
    obtain ⟨-, rfl⟩ := hstep
    exact ⟨hisolated, fun h => absurd h (by simp), fun _ => rfl, fun h => absurd rfl h⟩

/-- **Sessions are isolated over fresh starts**, on either transport and however
each session ended. -/
theorem isolated_of_fresh_starts (b : Backend) (s : SessionState)
    (h : Run.Reach (sessionStep b) (fun s a => ¬StaleStart s a) {} s) : Isolated s :=
  (Run.Reach.invariant sessionInv_init (fun _ _ _ hi hg hs => sessionInv_step hi hg hs) h).isolated

/-- The same two sessions with a STOP status at the end of the first. -/
theorem isolated_of_fresh_starts_clean_stop :
    ∃ s, Isolated s ∧ s.log.length = 3 ∧ s.thread = .running { lastProcessed := 4 } := by
  obtain ⟨s, hreach, hend⟩ : ∃ s, Run.Reach (sessionStep .svcnavi)
      (fun s a => ¬StaleStart s a) {} s ∧
        (s.log.length = 3 ∧ s.thread = .running { lastProcessed := 4 }) :=
    Run.Reach.exists_of_replay [.start true, .setup .live false,
      .call (.nextTurn (some [65, 0]) 3), .iterate false, .call (.status 2), .requestStop,
      .exit false, .join, .start true, .setup .live false, .iterate false] (by decide +kernel)
  exact ⟨s, isolated_of_fresh_starts .svcnavi s hreach, hend⟩

end OemAaMod
