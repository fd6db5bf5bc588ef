import OemAaMod.Lib.Run
import OemAaMod.Hud.Accumulator

/-!
# From the 1.6 callbacks to the sender, step by step

One session: the rx thread runs the callbacks, the sender thread brings the
transport up and then sends. An update is three transport calls, so the threads
interleave inside it; each call, each turn of the sender's loop and each piece of
a callback between calls is one step.

* `PipeState`, `pipeStep` — the two threads;
* `CallbackStep`, `PipeSteps` — what a step can do, one constructor each;
* `Written` — how much of an update is in place at each point of the rx thread;
* `up_to_date_of_timely_activation` — once the pipeline is live the snapshot is
  the accumulator's, unless it went live with part of an update already dropped.
-/

namespace OemAaMod

/-! ## The system -/

/-- Where the rx thread is: before the call of this name, or about to record the
frame it has fed, or about to reset after a clear. -/
inductive RxPc
  | idle
  | nextTurn
  | distance
  | lanes
  | record
  | clear
  | reset
deriving DecidableEq

structure PipeState where
  gate   : Nav16Gate := {}
  rx     : RxPc := .idle
  tx     : Tx := {}
  /-- The sender's locals, once its setup is done. -/
  sender : Option Sender := none
  /-- The accumulators `nav16_emit_if_changed` ran for. -/
  ran    : List AaNav16HudState := []
  /-- The accumulator whose last write the transport took. -/
  fed    : Option AaNav16HudState := none
  /-- What each turn of the sender sent. -/
  sent   : List (List HudMsg) := []

inductive PipeAction
  | guidance (g : AaGuidance)
  | position (p : AaPosition)
  | status (s : AaStatus)
  /-- The rx thread goes on with its callback. -/
  | rx
  | activate
  | iterate (hudAbsent : Bool)
deriving DecidableEq

/-- `nav16_emit_if_changed` with the accumulator just changed. -/
def PipeState.emitIfChanged (s : PipeState) (acc : AaNav16HudState) : PipeState :=
  let gate := { s.gate with acc }
  { s with
    gate
    rx := if gate.Shut then .idle else .nextTurn
    ran := s.ran ++ [acc] }

/-- The rx thread's next step inside a callback. -/
def PipeState.advance (s : PipeState) : Option PipeState :=
  match s.rx with
  | .idle => none
  | .nextTurn => some { s with tx := s.tx.call (nextTurnCall s.gate.acc), rx := .distance }
  | .distance => some { s with tx := s.tx.call (distanceCall s.gate.acc), rx := .lanes }
  | .lanes => some { s with
      tx := s.tx.call (lanesCall s.gate.acc)
      rx := .record
      fed := if s.tx.active then some s.gate.acc else s.fed }
  | .record => some { s with gate := s.gate.record, rx := .idle }
  | .clear => some { s with tx := s.tx.call (.status 2), rx := .reset }
  | .reset => some { s with gate := hudFeedNav16Reset s.gate, rx := .idle }

def pipeStep (hudFoldLatin : Bool) (b : Backend) (s : PipeState) : PipeAction → Option PipeState
  | .guidance g =>
    if s.rx = .idle then some (s.emitIfChanged (nav16OnGuidance hudFoldLatin s.gate.acc g))
    else none
  | .position p =>
    if s.rx = .idle then some ((nav16OnPosition s.gate.acc p).elim s s.emitIfChanged)
    else none
  | .status st =>
    if s.rx = .idle then some (if st.Clears then { s with rx := .clear } else s)
    else none
  | .rx => s.advance
  | .activate =>
    if s.sender = none then some { s with tx := { s.tx with active := true }, sender := some {} }
    else none
  | .iterate hudAbsent =>
    match s.sender with
    | none => none
    | some sender =>
      let r := sender.iterate b hudAbsent s.tx
      some { s with
        sender := some r.1
        sent := if s.tx.seq ≠ sender.lastProcessed then s.sent ++ [r.2] else s.sent }

/-! ## What a step can do -/

/-- The rx thread inside a callback, by the call it is at. -/
inductive CallbackStep (s : PipeState) : PipeState → Prop
  | nextTurn (hrx : s.rx = .nextTurn) :
      CallbackStep s { s with tx := s.tx.call (nextTurnCall s.gate.acc), rx := .distance }
  | distance (hrx : s.rx = .distance) :
      CallbackStep s { s with tx := s.tx.call (distanceCall s.gate.acc), rx := .lanes }
  | lanes (hrx : s.rx = .lanes) : CallbackStep s { s with
      tx := s.tx.call (lanesCall s.gate.acc)
      rx := .record
      fed := if s.tx.active then some s.gate.acc else s.fed }
  | record (hrx : s.rx = .record) : CallbackStep s { s with gate := s.gate.record, rx := .idle }
  | clear (hrx : s.rx = .clear) : CallbackStep s { s with tx := s.tx.call (.status 2), rx := .reset }
  | reset (hrx : s.rx = .reset) :
      CallbackStep s { s with gate := hudFeedNav16Reset s.gate, rx := .idle }

theorem callbackStep_of_advance {s s' : PipeState} (hstep : s.advance = some s') :
    CallbackStep s s' := by
  unfold PipeState.advance at hstep
  cases hrx : s.rx with
  | idle => simp [hrx] at hstep
  | nextTurn =>
    simp only [hrx, Option.some_inj] at hstep
    exact hstep ▸ .nextTurn hrx
  | distance =>
    simp only [hrx, Option.some_inj] at hstep
    exact hstep ▸ .distance hrx
  | lanes =>
    simp only [hrx, Option.some_inj] at hstep
    exact hstep ▸ .lanes hrx
  | record =>
    simp only [hrx, Option.some_inj] at hstep
    exact hstep ▸ .record hrx
  | clear =>
    simp only [hrx, Option.some_inj] at hstep
    exact hstep ▸ .clear hrx
  | reset =>
    simp only [hrx, Option.some_inj] at hstep
    exact hstep ▸ .reset hrx

/-- All the steps of the two threads. -/
inductive PipeSteps (hudFoldLatin : Bool) (b : Backend) (s : PipeState) :
    PipeAction → PipeState → Prop
  | guidance {g : AaGuidance} (hidle : s.rx = .idle) : PipeSteps hudFoldLatin b s (.guidance g)
      (s.emitIfChanged (nav16OnGuidance hudFoldLatin s.gate.acc g))
  | position {p : AaPosition} {acc : AaNav16HudState} (hidle : s.rx = .idle)
      (hp : nav16OnPosition s.gate.acc p = some acc) :
      PipeSteps hudFoldLatin b s (.position p) (s.emitIfChanged acc)
  | positionIgnored {p : AaPosition} (hidle : s.rx = .idle)
      (hp : nav16OnPosition s.gate.acc p = none) : PipeSteps hudFoldLatin b s (.position p) s
  | clears {st : AaStatus} (hidle : s.rx = .idle) (hst : st.Clears) :
      PipeSteps hudFoldLatin b s (.status st) { s with rx := .clear }
  | statusIgnored {st : AaStatus} (hidle : s.rx = .idle) (hst : ¬st.Clears) :
      PipeSteps hudFoldLatin b s (.status st) s
  | rx {s' : PipeState} (hadvance : s.advance = some s') : PipeSteps hudFoldLatin b s .rx s'
  | activate (hnone : s.sender = none) : PipeSteps hudFoldLatin b s .activate
      { s with tx := { s.tx with active := true }, sender := some {} }
  | iterate {sender : Sender} {hudAbsent : Bool} (hsender : s.sender = some sender) :
      PipeSteps hudFoldLatin b s (.iterate hudAbsent) { s with
        sender := some (sender.iterate b hudAbsent s.tx).1
        sent := if s.tx.seq ≠ sender.lastProcessed then
            s.sent ++ [(sender.iterate b hudAbsent s.tx).2]
          else s.sent }

/-- **Inversion of a step.** -/
theorem pipeSteps_of_pipeStep {hudFoldLatin : Bool} {b : Backend} {s s' : PipeState}
    {a : PipeAction} (hstep : pipeStep hudFoldLatin b s a = some s') :
    PipeSteps hudFoldLatin b s a s' := by
  cases a with
  | guidance g =>
    simp only [pipeStep, Option.ite_none_right_eq_some, Option.some_inj] at hstep
    obtain ⟨hidle, rfl⟩ := hstep
    exact .guidance hidle
  | position p =>
    simp only [pipeStep, Option.ite_none_right_eq_some, Option.some_inj] at hstep
    obtain ⟨hidle, rfl⟩ := hstep
    cases hp : nav16OnPosition s.gate.acc p with
    | none => exact .positionIgnored hidle hp
    | some acc => exact .position hidle hp
  | status st =>
    simp only [pipeStep, Option.ite_none_right_eq_some, Option.some_inj] at hstep
    obtain ⟨hidle, rfl⟩ := hstep
    by_cases hst : st.Clears
    · rw [if_pos hst]
      exact .clears hidle hst
    · rw [if_neg hst]
      exact .statusIgnored hidle hst
  | rx => exact .rx hstep
  | activate =>
    simp only [pipeStep, Option.ite_none_right_eq_some, Option.some_inj] at hstep
    obtain ⟨hnone, rfl⟩ := hstep
    exact .activate hnone
  | iterate hudAbsent =>
    simp only [pipeStep] at hstep
    split at hstep
    · exact absurd hstep (by simp)
    · rename_i sender hsender
      rw [Option.some_inj] at hstep
      exact hstep ▸ .iterate hsender

/-! ## How much of an update is in place -/

/-- At a point of the rx thread, the parts of the update `new` that a pipeline
live since its start shows. -/
def Written (v new : View) : RxPc → Prop
  | .idle | .record => v = new
  | .nextTurn | .clear => True
  | .distance => v.glyph = new.glyph ∧ v.road = new.road
  | .lanes => v.glyph = new.glyph ∧ v.road = new.road ∧ v.dist = new.dist ∧ v.unit = new.unit
  | .reset => v = .blank

instance (v new : View) : (pc : RxPc) → Decidable (Written v new pc)
  | .idle | .record => inferInstanceAs (Decidable (v = new))
  | .nextTurn | .clear => inferInstanceAs (Decidable True)
  | .distance => inferInstanceAs (Decidable (_ ∧ _))
  | .lanes => inferInstanceAs (Decidable (_ ∧ _ ∧ _ ∧ _))
  | .reset => inferInstanceAs (Decidable (v = .blank))

/-- **Step lemma of a callback.** On a live pipeline every call puts its part of
the update in place, and a clear ends with both sides blank. -/
theorem written_advance {s s' : PipeState} (hlive : s.tx.active = true)
    (hw : Written s.tx.snapshot.view s.gate.acc.view s.rx) (hstep : s.advance = some s') :
    Written s'.tx.snapshot.view s'.gate.acc.view s'.rx := by
  cases callbackStep_of_advance hstep with
  | nextTurn =>
    show Written (s.tx.call (nextTurnCall s.gate.acc)).snapshot.view _ .distance
    rw [Tx.call_view _ _ hlive, apply_nextTurnCall]
    exact ⟨rfl, rfl⟩
  | distance hrx =>
    rw [hrx] at hw
    obtain ⟨hglyph, hroad⟩ := hw
    show Written (s.tx.call (distanceCall s.gate.acc)).snapshot.view _ .lanes
    rw [Tx.call_view _ _ hlive, apply_distanceCall]
    exact ⟨hglyph, hroad, rfl, rfl⟩
  | lanes hrx =>
    -- the last part: now all of it is in place
    rw [hrx] at hw
    obtain ⟨hglyph, hroad, hdist, hunit⟩ := hw
    show (s.tx.call (lanesCall s.gate.acc)).snapshot.view = s.gate.acc.view
    rw [Tx.call_view _ _ hlive, apply_lanesCall]
    exact View.ext hglyph hroad hdist hunit rfl
  | record hrx =>
    rw [hrx] at hw
    exact hw
  | clear =>
    show (s.tx.call (.status 2)).snapshot.view = .blank
    rw [Tx.call_view _ _ hlive]
    rfl
  | reset hrx =>
    rw [hrx] at hw
    show s.tx.snapshot.view = ({} : AaNav16HudState).view
    rw [AaNav16HudState.view_zero]
    exact hw

theorem advance_active {s s' : PipeState} (hstep : s.advance = some s') :
    s'.tx.active = s.tx.active := by
  cases callbackStep_of_advance hstep with
  | nextTurn | distance | lanes | clear => exact Tx.call_active s.tx _
  | record | reset => rfl

/-- While the pipeline is not live the rx thread leaves it as it is. -/
theorem advance_inactive {s s' : PipeState} (hdark : s.tx.active = false)
    (hstep : s.advance = some s') : s'.tx = s.tx := by
  have hdropped (c : TxCall) : s.tx.call c = s.tx := Tx.call_inactive s.tx c hdark
  cases callbackStep_of_advance hstep with
  | nextTurn => exact hdropped (nextTurnCall s.gate.acc)
  | distance => exact hdropped (distanceCall s.gate.acc)
  | lanes => exact hdropped (lanesCall s.gate.acc)
  | clear => exact hdropped (.status 2)
  | record | reset => rfl

/-- A callback ends with the gate holding the accumulator, or reset. -/
theorem advance_last {s s' : PipeState} (hstep : s.advance = some s') (hidle : s'.rx = .idle)
    (hhave : s'.gate.haveLast = true) : s'.gate.last = s'.gate.acc := by
  cases callbackStep_of_advance hstep with
  | nextTurn | distance | lanes | clear => exact absurd hidle (by simp)
  | record => rfl
  | reset => exact absurd hhave (by simp [hudFeedNav16Reset])

/-- The rx thread has no hand in the sender, -/
theorem advance_sender {s s' : PipeState} (hstep : s.advance = some s') : s'.sender = s.sender := by
  cases callbackStep_of_advance hstep <;> rfl

/-- and sends nothing. -/
theorem advance_sent {s s' : PipeState} (hstep : s.advance = some s') : s'.sent = s.sent := by
  cases callbackStep_of_advance hstep <;> rfl

/-! ## The change gate -/

/-- A live pipeline, with no callback in progress, shows the accumulator. -/
def UpToDate (s : PipeState) : Prop :=
  s.tx.active = true → s.rx = .idle → s.tx.snapshot.view = s.gate.acc.view

instance (s : PipeState) : Decidable (UpToDate s) :=
  inferInstanceAs (Decidable (_ → _ → _))

/-- The pipeline goes live with something other than blanks dropped: between
callbacks all of the accumulator, inside one the parts whose calls are done. -/
def LateActivation (s : PipeState) (a : PipeAction) : Prop :=
  a = .activate ∧ ¬Written .blank s.gate.acc.view s.rx

instance (s : PipeState) (a : PipeAction) : Decidable (LateActivation s a) :=
  inferInstanceAs (Decidable (_ ∧ _))

structure GateInv (s : PipeState) : Prop where
  /-- Nothing is written while the pipeline is not live. -/
  dark    : s.tx.active = false → s.tx.snapshot.view = .blank
  written : s.tx.active = true → Written s.tx.snapshot.view s.gate.acc.view s.rx
  /-- A shut gate has nothing to add. -/
  last    : s.rx = .idle → s.gate.haveLast = true → s.gate.last = s.gate.acc

theorem gateInv_init : GateInv {} :=
  ⟨fun _ => view_zero, fun h => absurd h (by simp), fun _ h => absurd h (by simp)⟩

theorem gateInv_emitIfChanged {s : PipeState} (hinv : GateInv s) (hidle : s.rx = .idle)
    (acc : AaNav16HudState) : GateInv (s.emitIfChanged acc) := by
  obtain ⟨hdark, hwritten, hlast⟩ := hinv
  unfold PipeState.emitIfChanged
  dsimp only
  by_cases hshut : Nav16Gate.Shut { s.gate with acc }
  · rw [if_pos hshut]
    obtain ⟨hhave, hsame⟩ := hshut
    -- the new accumulator is the old one
    have hacc : acc = s.gate.acc := hsame.trans (hlast hidle hhave)
    rw [hidle] at hwritten
    exact ⟨hdark, fun hlive => hacc ▸ hwritten hlive, fun _ _ => hsame.symm⟩
  · rw [if_neg hshut]
    exact ⟨hdark, fun _ => trivial, fun h => absurd h (by simp)⟩

/-- **Step lemma.** -/
theorem gateInv_step {hudFoldLatin : Bool} {b : Backend} {s s' : PipeState} {a : PipeAction}
    (hinv : GateInv s) (hguard : ¬LateActivation s a)
    (hstep : pipeStep hudFoldLatin b s a = some s') : GateInv s' := by
  cases pipeSteps_of_pipeStep hstep with
  | guidance hidle => exact gateInv_emitIfChanged hinv hidle _
  | position hidle => exact gateInv_emitIfChanged hinv hidle _
  | positionIgnored | statusIgnored => exact hinv
  | clears => exact ⟨hinv.dark, fun _ => trivial, fun h => absurd h (by simp)⟩
  | rx hadvance =>
    have hactive := advance_active hadvance
    refine ⟨fun hdark => ?_, fun hlive => ?_, fun hidle hhave => ?_⟩
    · rw [hactive] at hdark
      rw [advance_inactive hdark hadvance]
      exact hinv.dark hdark
    · rw [hactive] at hlive
      exact written_advance hlive (hinv.written hlive) hadvance
    · exact advance_last hadvance hidle hhave
  | activate =>
    refine ⟨fun h => absurd h (by simp), fun _ => ?_, hinv.last⟩
    show Written s.tx.snapshot.view s.gate.acc.view s.rx
    cases hactive : s.tx.active with
    | true => exact hinv.written hactive
    | false =>
      -- what was dropped so far was blank, so nothing is missing
      rw [hinv.dark hactive]
      by_contra hlate
      exact hguard ⟨rfl, hlate⟩
  | iterate => exact ⟨hinv.dark, hinv.written, hinv.last⟩

/-- A guidance dropped before the pipeline is live, and sent again after. -/
def droppedGuidance : List PipeAction :=
  [.guidance { maneuverType := 7 }, .rx, .rx, .rx, .rx, .activate,
    .guidance { maneuverType := 7 }]

/-- The gate takes the dropped guidance for shown. -/
theorem stranded_by_late_activation : ¬∀ hudFoldLatin b s,
    Run.Reach (pipeStep hudFoldLatin b) (fun _ _ => True) {} s → UpToDate s := by
  intro h
  obtain ⟨s, hreach, hstale⟩ : ∃ s, Run.Reach (pipeStep true .svcnavi) (fun _ _ => True) {} s ∧
      ¬UpToDate s := Run.Reach.exists_of_replay droppedGuidance (by decide +kernel)
  exact hstale (h true .svcnavi s hreach)

/-! ### What a late activation leads to -/

/-- The steps a callback has left. -/
def RxPc.left : RxPc → Nat
  | .idle => 0
  | .record | .reset => 1
  | .lanes | .clear => 2
  | .distance => 3
  | .nextTurn => 4

theorem exists_advance {s : PipeState} (hbusy : s.rx ≠ .idle) :
    ∃ s', s.advance = some s' ∧ s'.rx.left + 1 = s.rx.left := by
  unfold PipeState.advance
  cases hrx : s.rx with
  | idle => exact absurd hrx hbusy
  | nextTurn => exact ⟨_, rfl, rfl⟩
  | distance => exact ⟨_, rfl, rfl⟩
  | lanes => exact ⟨_, rfl, rfl⟩
  | record => exact ⟨_, rfl, rfl⟩
  | clear => exact ⟨_, rfl, rfl⟩
  | reset => exact ⟨_, rfl, rfl⟩

/-- What a callback has not written it does not write any more. -/
theorem unwritten_advance {s s' : PipeState} (hlive : s.tx.active = true) (hreset : s.rx ≠ .reset)
    (hnot : ¬Written s.tx.snapshot.view s.gate.acc.view s.rx) (hstep : s.advance = some s') :
    s'.rx ≠ .reset ∧ ¬Written s'.tx.snapshot.view s'.gate.acc.view s'.rx := by
  cases callbackStep_of_advance hstep with
  | nextTurn hrx | clear hrx =>
    rw [hrx] at hnot
    exact absurd trivial hnot
  | distance hrx =>
    rw [hrx] at hnot
    refine ⟨by simp, ?_⟩
    show ¬Written (s.tx.call (distanceCall s.gate.acc)).snapshot.view _ .lanes
    rw [Tx.call_view _ _ hlive, apply_distanceCall]
    rintro ⟨hglyph, hroad, -⟩
    exact hnot ⟨hglyph, hroad⟩
  | lanes hrx =>
    rw [hrx] at hnot
    refine ⟨by simp, ?_⟩
    show ¬(s.tx.call (lanesCall s.gate.acc)).snapshot.view = s.gate.acc.view
    rw [Tx.call_view _ _ hlive, apply_lanesCall]
    intro hall
    have hglyph := congrArg View.glyph hall
    have hroad := congrArg View.road hall
    have hdist := congrArg View.dist hall
    have hunit := congrArg View.unit hall
    exact hnot ⟨hglyph, hroad, hdist, hunit⟩
  | record hrx =>
    rw [hrx] at hnot
    exact ⟨by simp, hnot⟩
  | reset hrx => exact absurd hrx hreset

/-- By induction on the steps left: the callback ends over a stale snapshot. -/
theorem stale_of_unwritten (hudFoldLatin : Bool) (b : Backend) (n : Nat) :
    ∀ s : PipeState, s.rx.left = n → s.tx.active = true → s.rx ≠ .reset →
      ¬Written s.tx.snapshot.view s.gate.acc.view s.rx →
      ∃ t, Run.Reach (pipeStep hudFoldLatin b) (fun _ _ => True) s t ∧ ¬UpToDate t := by
  induction n with
  | zero =>
    intro s hleft hlive _ hnot
    have hidle : s.rx = .idle := by
      cases hrx : s.rx <;> rw [hrx] at hleft <;> first | rfl | exact absurd hleft (by decide)
    -- the callback is over, with the write missing
    refine ⟨s, .start, fun hup => hnot ?_⟩
    rw [hidle]
    exact hup hlive hidle
  | succ n ih =>
    intro s hleft hlive hreset hnot
    have hbusy : s.rx ≠ .idle := by
      intro hidle
      rw [hidle] at hleft
      exact absurd hleft (by simp [RxPc.left])
    obtain ⟨s', hadvance, hless⟩ := exists_advance hbusy
    obtain ⟨hreset', hnot'⟩ := unwritten_advance hlive hreset hnot hadvance
    have hlive' : s'.tx.active = true := by rw [advance_active hadvance, hlive]
    -- one step less is left
    obtain ⟨t, hrest, hstale⟩ := ih s' (by omega) hlive' hreset' hnot'
    have hfirst : Run.Reach (pipeStep hudFoldLatin b) (fun _ _ => True) s s' :=
      .next (a := .rx) .start hadvance trivial
    exact ⟨t, hfirst.trans hrest, hstale⟩

/-- Before the sender is up nothing reaches the transport. -/
theorem tx_eq_of_setup {hudFoldLatin : Bool} {b : Backend} {s : PipeState}
    (h : Run.Reach (pipeStep hudFoldLatin b) (fun _ _ => True) {} s) :
    s.sender = none → s.tx = {} := by
  refine Run.Reach.invariant (I := fun s => s.sender = none → s.tx = {}) (fun _ => rfl) ?_ h
  intro s a s' hinv _ hstep
  cases pipeSteps_of_pipeStep hstep with
  | guidance | position | positionIgnored | clears | statusIgnored => exact hinv
  | rx hadvance =>
    intro hnone
    have htx : s.tx = {} := hinv (advance_sender hadvance ▸ hnone)
    rw [advance_inactive (by rw [htx]) hadvance, htx]
  | activate | iterate => exact fun hnone => absurd hnone (by simp)

/-- **The change gate strands nothing if and only if the pipeline goes live in
time**: no run without a late activation has a stale snapshot, and every late
activation leads to one. -/
theorem up_to_date_of_timely_activation (hudFoldLatin : Bool) (b : Backend) :
    (∀ s, Run.Reach (pipeStep hudFoldLatin b) (fun s a => ¬LateActivation s a) {} s → UpToDate s) ∧
    (∀ s s', Run.Reach (pipeStep hudFoldLatin b) (fun _ _ => True) {} s →
      LateActivation s .activate → pipeStep hudFoldLatin b s .activate = some s' →
      ∃ t, Run.Reach (pipeStep hudFoldLatin b) (fun _ _ => True) s' t ∧ ¬UpToDate t) := by
  constructor
  · intro s h hlive hidle
    have hinv : GateInv s :=
      Run.Reach.invariant gateInv_init (fun _ _ _ hi hg hs => gateInv_step hi hg hs) h
    have hwritten := hinv.written hlive
    rw [hidle] at hwritten
    exact hwritten
  · rintro s s' h ⟨-, hnot⟩ hstep
    simp only [pipeStep, Option.ite_none_right_eq_some, Option.some_inj] at hstep
    obtain ⟨hnone, rfl⟩ := hstep
    have htx : s.tx = {} := tx_eq_of_setup h hnone
    have hreset : s.rx ≠ .reset := fun hrx => hnot (by rw [hrx]; rfl)
    -- the dropped part is not blank, so it is missing from now on
    refine stale_of_unwritten hudFoldLatin b _ _ rfl rfl hreset ?_
    show ¬Written s.tx.snapshot.view s.gate.acc.view s.rx
    rw [htx, view_zero]
    exact hnot

/-- Live before the first guidance; and live with that guidance half dropped. -/
theorem up_to_date_of_timely_activation_examples :
    (∃ s, UpToDate s ∧ s.tx.active = true ∧ s.rx = .idle ∧ s.tx.snapshot.dirIcon = 2) ∧
    (∃ t, Run.Reach (pipeStep true .vbs) (fun _ _ => True) {} t ∧ ¬UpToDate t) := by
  constructor
  · obtain ⟨s, hreach, hend⟩ : ∃ s, Run.Reach (pipeStep true .svcnavi)
        (fun s a => ¬LateActivation s a) {} s ∧
        (s.tx.active = true ∧ s.rx = .idle ∧ s.tx.snapshot.dirIcon = 2) :=
      Run.Reach.exists_of_replay
        [.activate, .guidance { maneuverType := 7 }, .rx, .rx, .rx, .rx] (by decide +kernel)
    exact ⟨s, (up_to_date_of_timely_activation true .svcnavi).1 s hreach, hend⟩
  · obtain ⟨s, hreach, hlate, hnone⟩ : ∃ s, Run.Reach (pipeStep true .vbs) (fun _ _ => True) {} s ∧
        (LateActivation s .activate ∧ s.sender = none) :=
      Run.Reach.exists_of_replay [.guidance { maneuverType := 7 }, .rx] (by decide +kernel)
    have hstep : pipeStep true .vbs s .activate =
        some { s with tx := { s.tx with active := true }, sender := some {} } := if_pos hnone
    obtain ⟨t, hrest, hstale⟩ :=
      (up_to_date_of_timely_activation true .vbs).2 s _ hreach hlate hstep
    exact ⟨t, (Run.Reach.next hreach hstep trivial).trans hrest, hstale⟩

end OemAaMod
