import OemAaMod.Lib.Run
import Mathlib.Tactic

/-!
# Waking the HUD senders

The condition-variable protocol of `vbs_tx.cpp` and `svcnavi_tx.cpp` (both run
the same loop): a sender thread that waits for `g_seq` to move past what it
processed or for `g_stop`, a producer on the SDK callback thread, and the
lifecycle thread that starts and stops the sender.

Only the sender ever takes `g_cv_mu`. Evaluating the wait predicate and blocking
are therefore two steps, and the producer's `seqlock_end` and the stop call,
which take no lock, may fall between them.

* `WakeState`, `wakeStep` — the three threads, step by step, over any number of
  sessions;
* `Stranded` — the sender is blocked, has reason not to be, and no notify is to
  come;
* `stranded_by_notify_in_window` — such a state is reachable;
* `not_stranded_of_no_lost_notify` — it is reached exactly by a last pending
  notify that falls between the check and the block.
-/

namespace OemAaMod

/-! ## The system -/

/-- Where the sender thread is. -/
inductive SenderPc
  | absent      -- no thread
  | setup       -- `sender_setup()`
  | top         -- `while (!g_stop)`
  | reading     -- the seqlock read, `send_one`, `last_processed = s2`
  | waiting     -- in `g_cv.wait`, about to evaluate the predicate
  | checked     -- predicate false, still holding `g_cv_mu`
  | blocked     -- mutex released, blocked until a notify
  | exiting     -- past the loop
  | exited
deriving DecidableEq, Repr

/-- Where the producer is in a `*_tx_status/next_turn/distance/lanes` call. -/
inductive ProducerPc
  | idle
  | entered     -- found `g_active`, before `seqlock_begin`
  | writing     -- `g_seq` odd
  | advanced    -- `seqlock_end` past its `fetch_add`, before `notify_one`
  | waking      -- a START status: only the `notify_one` to come
deriving DecidableEq, Repr

/-- Where the lifecycle thread is in `*_tx_start` / `*_tx_stop`. -/
inductive LifecyclePc
  | down
  | up
  | stored      -- `g_stop` stored, before `notify_all`
  | joining     -- in `pthread_join`
deriving DecidableEq, Repr

structure WakeState where
  sender        : SenderPc := .absent
  producer      : ProducerPc := .idle
  lifecycle     : LifecyclePc := .down
  seq           : UInt32 := 0
  lastProcessed : UInt32 := 0
  active        : Bool := false
  stop          : Bool := false
deriving DecidableEq

inductive WakeAction
  | start (spawned : Bool)
  | senderSetup (ok : Bool)
  | senderTop
  | senderRead
  | senderCheck
  | senderBlock
  | senderExit
  | producerEnter (start : Bool)
  | producerBegin
  | producerAdvance
  | producerNotify
  | stopStore
  | stopNotify
  | stopJoin
deriving DecidableEq

/-- The wait predicate: `g_stop || g_seq != last_processed`. -/
def WakeState.waitPred (s : WakeState) : Bool := s.stop || s.seq != s.lastProcessed

/-- `notify_one` and `notify_all` reach the one thread that can be blocked. -/
def WakeState.notify (s : WakeState) : WakeState :=
  { s with sender := if s.sender = .blocked then .waiting else s.sender }

def wakeStep (s : WakeState) : WakeAction → Option WakeState
  | .start spawned =>
    if s.lifecycle = .down then
      let s := { s with stop := false, active := false }
      if spawned then some { s with sender := .setup, lastProcessed := 0, lifecycle := .up }
      else some s
    else none
  -- `g_stop` may be stored after the last look `sender_setup` takes at it
  | .senderSetup ok =>
    if s.sender = .setup then
      if ok then some { s with active := true, sender := .top }
      else some { s with sender := .exited }
    else none
  | .senderTop =>
    if s.sender = .top then
      some { s with sender := if s.stop then .exiting else .reading }
    else none
  -- an odd `g_seq` makes the reader yield and retry
  | .senderRead =>
    if s.sender = .reading ∧ s.seq % 2 = 0 then
      some { s with lastProcessed := s.seq, sender := .waiting }
    else none
  | .senderCheck =>
    if s.sender = .waiting then
      some { s with sender := if s.waitPred then .top else .checked }
    else none
  | .senderBlock => if s.sender = .checked then some { s with sender := .blocked } else none
  | .senderExit =>
    if s.sender = .exiting then some { s with active := false, sender := .exited } else none
  -- an inactive pipeline drops the call before it touches anything
  | .producerEnter start =>
    if s.producer = .idle ∧ s.active then
      some { s with producer := if start then .waking else .entered }
    else none
  | .producerBegin =>
    if s.producer = .entered then some { s with seq := s.seq + 1, producer := .writing } else none
  | .producerAdvance =>
    if s.producer = .writing then some { s with seq := s.seq + 1, producer := .advanced } else none
  | .producerNotify =>
    if s.producer = .advanced ∨ s.producer = .waking then
      some { s with producer := .idle }.notify
    else none
  | .stopStore =>
    if s.lifecycle = .up then some { s with stop := true, lifecycle := .stored } else none
  | .stopNotify =>
    if s.lifecycle = .stored then some { s with lifecycle := .joining }.notify else none
  | .stopJoin =>
    if s.lifecycle = .joining ∧ s.sender = .exited then
      some { s with sender := .absent, lifecycle := .down, active := false }
    else none

/-- A started producer or stop call has its notify still to come. -/
def WakeState.notifyPending (s : WakeState) : Prop :=
  s.producer ≠ .idle ∨ s.lifecycle = .stored

instance (s : WakeState) : Decidable s.notifyPending := inferInstanceAs (Decidable (_ ∨ _))

/-- The lost wake-up: blocked with work or a stop to see, and nobody to say so. -/
def Stranded (s : WakeState) : Prop :=
  s.sender = .blocked ∧ s.waitPred = true ∧ ¬s.notifyPending

/-- A notify that is the last one pending, issued between the sender's look at
the predicate and its block, when that look is out of date. -/
def LostNotify (s : WakeState) (a : WakeAction) : Prop :=
  s.sender = .checked ∧ s.waitPred = true ∧
    (a = .producerNotify ∧ s.lifecycle ≠ .stored ∨ a = .stopNotify ∧ s.producer = .idle)

instance (s : WakeState) (a : WakeAction) : Decidable (LostNotify s a) :=
  inferInstanceAs (Decidable (_ ∧ _))

/-! ## The window -/

/-- A producer's whole `seqlock_end` falls between the check and the block. -/
theorem stranded_by_notify_in_window :
    ¬∀ s, Run.Reach wakeStep (fun _ _ => True) {} s → ¬Stranded s := by
  intro h
  have hrun : Run.Reach wakeStep (fun _ _ => True) {}
      { sender := .blocked, lifecycle := .up, seq := 2, active := true } :=
    Run.Reach.of_replay [.start true, .senderSetup true, .senderTop, .senderRead, .senderCheck,
      .producerEnter false, .producerBegin, .producerAdvance, .producerNotify, .senderBlock]
      (by decide)
  refine h _ hrun ?_
  unfold Stranded
  decide

/-! ## Outside the window -/

/-- A sender past its look at the predicate can rely on a notify to come, and
without a started session there is no sender. -/
structure WakeInv (s : WakeState) : Prop where
  promise : s.sender = .checked ∨ s.sender = .blocked → s.waitPred = true → s.notifyPending
  down    : s.lifecycle = .down → s.sender = .absent

theorem wakeInv_init : WakeInv {} :=
  ⟨by rintro (h | h) <;> exact absurd h (by decide), fun _ => rfl⟩

/-- A sender outside the window and not blocked is promised nothing. -/
theorem wakeInv_of_sender {s : WakeState} (hchecked : s.sender ≠ .checked)
    (hblocked : s.sender ≠ .blocked) (hdown : s.lifecycle = .down → s.sender = .absent) :
    WakeInv s := by
  refine ⟨?_, hdown⟩
  rintro (h | h)
  · exact absurd h hchecked
  · exact absurd h hblocked

/-- With a notify to come any promise can be kept. -/
theorem wakeInv_of_pending {s : WakeState} (hpending : s.notifyPending)
    (hdown : s.lifecycle = .down → s.sender = .absent) : WakeInv s :=
  ⟨fun _ _ => hpending, hdown⟩

theorem waitPred_notify (s : WakeState) : s.notify.waitPred = s.waitPred := rfl

/-- A notify leaves nobody blocked and does not reach a sender in the window. -/
theorem notify_sender (s : WakeState) :
    s.notify.sender = .checked ∨ s.notify.sender = .blocked → s.sender = .checked := by
  unfold WakeState.notify
  by_cases h : s.sender = .blocked
  · simp [h]
  · simp [h]

/-- The notify `a`, unless it is lost, leaves a promise kept: `t` is the state
after it but for the waking. -/
theorem wakeInv_notify {s t : WakeState} {a : WakeAction} (hguard : ¬LostNotify s a)
    (hlast : ¬t.notifyPending →
      a = .producerNotify ∧ s.lifecycle ≠ .stored ∨ a = .stopNotify ∧ s.producer = .idle)
    (hsender : t.sender = s.sender) (hpred : t.waitPred = s.waitPred)
    (hdown : t.lifecycle = .down → t.sender = .absent) : WakeInv t.notify := by
  constructor
  · intro hwindow hp
    have hchecked := notify_sender t hwindow
    rw [waitPred_notify, hpred] at hp
    rw [hsender] at hchecked
    -- otherwise this was the last notify, and it fell into the window
    by_contra hnone
    exact hguard ⟨hchecked, hp, hlast hnone⟩
  · intro h
    have habsent := hdown h
    show (if t.sender = .blocked then _ else t.sender) = .absent
    rw [if_neg (by simp [habsent]), habsent]

/-- **Step lemma.** A step that loses no notify keeps the promise. -/
theorem wakeInv_step {s s' : WakeState} {a : WakeAction} (hinv : WakeInv s)
    (hguard : ¬LostNotify s a) (hstep : wakeStep s a = some s') : WakeInv s' := by
  obtain ⟨hpromise, hdown⟩ := hinv
  -- while there is a sender, a session is started
  have hup : s.sender ≠ .absent → s.lifecycle ≠ .down := fun hs hd => hs (hdown hd)
  cases a with
  | start spawned =>
    simp only [wakeStep, Option.ite_none_right_eq_some] at hstep
    obtain ⟨hpc, hs⟩ := hstep
    cases spawned with
    | true =>
      rw [if_pos rfl, Option.some_inj] at hs
      subst hs
      -- the new thread is at its setup, so nothing is owed to it
      exact wakeInv_of_sender (by simp) (by simp) (by simp)
    | false =>
      rw [if_neg (by simp), Option.some_inj] at hs
      subst hs
      exact wakeInv_of_sender (by simp [hdown hpc]) (by simp [hdown hpc]) hdown
  | senderSetup ok =>
    simp only [wakeStep, Option.ite_none_right_eq_some] at hstep
    obtain ⟨hpc, hs⟩ := hstep
    have hne := hup (by simp [hpc])
    cases ok with
    | true =>
      rw [if_pos rfl, Option.some_inj] at hs
      subst hs
      exact wakeInv_of_sender (by simp) (by simp) fun hd => absurd hd hne
    | false =>
      rw [if_neg (by simp), Option.some_inj] at hs
      subst hs
      exact wakeInv_of_sender (by simp) (by simp) fun hd => absurd hd hne
  | senderTop =>
    simp only [wakeStep, Option.ite_none_right_eq_some, Option.some_inj] at hstep
    obtain ⟨hpc, rfl⟩ := hstep
    have hne := hup (by simp [hpc])
    cases hstop : s.stop with
    | true => exact wakeInv_of_sender (by simp) (by simp) fun hd => absurd hd hne
    | false => exact wakeInv_of_sender (by simp) (by simp) fun hd => absurd hd hne
  | senderRead =>
    simp only [wakeStep, Option.ite_none_right_eq_some, Option.some_inj] at hstep
    obtain ⟨⟨hpc, -⟩, rfl⟩ := hstep
    have hne := hup (by simp [hpc])
    exact wakeInv_of_sender (by simp) (by simp) fun hd => absurd hd hne
  | senderCheck =>
    simp only [wakeStep, Option.ite_none_right_eq_some, Option.some_inj] at hstep
    obtain ⟨hpc, rfl⟩ := hstep
    have hne := hup (by simp [hpc])
    cases hpred : s.waitPred with
    | true => exact wakeInv_of_sender (by simp) (by simp) fun hd => absurd hd hne
    | false =>
      -- the sender enters the window with the predicate false
      refine ⟨fun _ hp => ?_, fun hd => absurd hd hne⟩
      have hp : s.waitPred = true := hp
      rw [hpred] at hp
      exact absurd hp (by simp)
  | senderBlock =>
    simp only [wakeStep, Option.ite_none_right_eq_some, Option.some_inj] at hstep
    obtain ⟨hpc, rfl⟩ := hstep
    have hne := hup (by simp [hpc])
    -- blocking keeps the promise made in the window
    exact ⟨fun _ hp => hpromise (.inl hpc) hp, fun hd => absurd hd hne⟩
  | senderExit =>
    simp only [wakeStep, Option.ite_none_right_eq_some, Option.some_inj] at hstep
    obtain ⟨hpc, rfl⟩ := hstep
    have hne := hup (by simp [hpc])
    exact wakeInv_of_sender (by simp) (by simp) fun hd => absurd hd hne
  | producerEnter start =>
    simp only [wakeStep, Option.ite_none_right_eq_some, Option.some_inj] at hstep
    obtain ⟨-, rfl⟩ := hstep
    cases start with
    -- a producer in its call has its notify still to come
    | true => exact wakeInv_of_pending (.inl (by simp)) hdown
    | false => exact wakeInv_of_pending (.inl (by simp)) hdown
  | producerBegin =>
    simp only [wakeStep, Option.ite_none_right_eq_some, Option.some_inj] at hstep
    obtain ⟨-, rfl⟩ := hstep
    exact wakeInv_of_pending (.inl (by simp)) hdown
  | producerAdvance =>
    simp only [wakeStep, Option.ite_none_right_eq_some, Option.some_inj] at hstep
    obtain ⟨-, rfl⟩ := hstep
    exact wakeInv_of_pending (.inl (by simp)) hdown
  | producerNotify =>
    simp only [wakeStep, Option.ite_none_right_eq_some, Option.some_inj] at hstep
    obtain ⟨-, rfl⟩ := hstep
    -- by the guard no waiting sender misses it, or the stop's notify is to come
    refine wakeInv_notify hguard (fun hnone => .inl ⟨rfl, ?_⟩) rfl rfl hdown
    exact fun hstored => hnone (.inr hstored)
  | stopStore =>
    simp only [wakeStep, Option.ite_none_right_eq_some, Option.some_inj] at hstep
    obtain ⟨-, rfl⟩ := hstep
    exact wakeInv_of_pending (.inr rfl) (by simp)
  | stopNotify =>
    simp only [wakeStep, Option.ite_none_right_eq_some, Option.some_inj] at hstep
    obtain ⟨-, rfl⟩ := hstep
    -- the same for the stop's notify, with the producer's to come
    refine wakeInv_notify hguard (fun hnone => .inr ⟨rfl, ?_⟩) rfl rfl (by simp)
    by_contra hbusy
    exact hnone (.inl hbusy)
  | stopJoin =>
    simp only [wakeStep, Option.ite_none_right_eq_some, Option.some_inj] at hstep
    obtain ⟨-, rfl⟩ := hstep
    exact wakeInv_of_sender (by simp) (by simp) fun _ => rfl

/-- A promise kept is nobody stranded. -/
theorem WakeInv.not_stranded {s : WakeState} (h : WakeInv s) : ¬Stranded s := by
  rintro ⟨hblocked, hp, hnone⟩
  exact hnone (h.promise (.inr hblocked) hp)

/-- A notify passes a sender in the window by. -/
theorem senderBlock_after_notify {t : WakeState} (h : t.sender = .checked) :
    wakeStep t.notify .senderBlock = some { t with sender := .blocked } := by
  simp [wakeStep, WakeState.notify, h]

/-- A lost notify: all that is left to happen for the worst is the block. -/
theorem stranded_of_lostNotify {s s' : WakeState} {a : WakeAction} (hlost : LostNotify s a)
    (hstep : wakeStep s a = some s') :
    ∃ s'', wakeStep s' .senderBlock = some s'' ∧ Stranded s'' := by
  obtain ⟨hchecked, hp, ⟨rfl, hstored⟩ | ⟨rfl, hidle⟩⟩ := hlost
  · simp only [wakeStep, Option.ite_none_right_eq_some, Option.some_inj] at hstep
    obtain ⟨-, rfl⟩ := hstep
    refine ⟨_, senderBlock_after_notify hchecked, rfl, hp, ?_⟩
    rintro (h | h)
    · exact h rfl
    · exact hstored h
  · simp only [wakeStep, Option.ite_none_right_eq_some, Option.some_inj] at hstep
    obtain ⟨-, rfl⟩ := hstep
    refine ⟨_, senderBlock_after_notify hchecked, rfl, hp, ?_⟩
    rintro (h | h)
    · exact h hidle
    · exact absurd h (by simp)

/-- **No wake-up is lost in the runs that lose no notify** in the window between
the sender's check and its block; and no weaker condition does, since each lost
notify leaves the sender one step from being stranded. -/
theorem not_stranded_of_no_lost_notify (s : WakeState) :
    (Run.Reach wakeStep (fun s a => ¬LostNotify s a) {} s → ¬Stranded s) ∧
    (∀ s' a, LostNotify s a → wakeStep s a = some s' →
      ∃ s'', wakeStep s' .senderBlock = some s'' ∧ Stranded s'') := by
  refine ⟨fun hreach => ?_, fun s' a hlost hstep => stranded_of_lostNotify hlost hstep⟩
  have hinv : WakeInv s :=
    Run.Reach.invariant wakeInv_init (fun _ _ _ h hg hs => wakeInv_step h hg hs) hreach
  exact hinv.not_stranded

/-- A notify after the block wakes the sender; one inside the window strands it. -/
theorem not_stranded_of_no_lost_notify_examples :
    ¬Stranded { sender := .waiting, lifecycle := .up, seq := 2, active := true } ∧
    (∃ s'', wakeStep { sender := .checked, lifecycle := .up, seq := 2, active := true }
      .senderBlock = some s'' ∧ Stranded s'') := by
  constructor
  · exact (not_stranded_of_no_lost_notify _).1 (Run.Reach.of_replay [.start true,
      .senderSetup true, .senderTop, .senderRead, .senderCheck, .senderBlock, .producerEnter false,
      .producerBegin, .producerAdvance, .producerNotify] (by decide))
  · exact (not_stranded_of_no_lost_notify
      { sender := .checked, producer := .advanced, lifecycle := .up, seq := 2, active := true }).2 _
      .producerNotify (by unfold LostNotify; decide) rfl

end OemAaMod
