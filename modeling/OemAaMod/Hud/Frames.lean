import OemAaMod.Hud.Pipeline
import OemAaMod.Hud.Street
import OemAaMod.Nav16.Cut

/-!
# Frame by frame

What the rx thread does with one 1.6 frame, in one step: `hud_nav16_feed`, the
callback of `hud.cpp` and the transport calls of that callback.

* `HudRx.feed` — a frame, on the accumulator, the change gate and the transport;
* `callback_reach` — the rx thread of `Hud.Pipeline` gets there step by step;
* `undecoded_frame_kept_iff` — when a frame that does not decode leaves the
  accumulator and the snapshot as they were.
-/

namespace OemAaMod

open CStr (CharBuf)

/-! ## One frame -/

/-- What the callbacks share: `g_nav16_acc` with its gate, and the transport. -/
structure HudRx where
  gate : Nav16Gate := {}
  tx   : Tx := {}
deriving DecidableEq

/-- The three calls of an update. -/
def Tx.emit (t : Tx) (acc : AaNav16HudState) : Tx :=
  ((t.call (nextTurnCall acc)).call (distanceCall acc)).call (lanesCall acc)

/-- `nav16_emit_if_changed` with the accumulator just changed. -/
def HudRx.emitIfChanged (s : HudRx) (acc : AaNav16HudState) : HudRx :=
  let gate := { s.gate with acc }
  if gate.Shut then { s with gate } else ⟨gate.record, s.tx.emit acc⟩

/-- `nav16_on_guidance`, `nav16_on_position`, `nav16_on_status`. -/
def HudRx.callback (hudFoldLatin : Bool) (s : HudRx) : SinkCall → HudRx
  | .guidance g => s.emitIfChanged (nav16OnGuidance hudFoldLatin s.gate.acc g)
  | .position p => (nav16OnPosition s.gate.acc p).elim s s.emitIfChanged
  | .status st =>
    if st.Clears then ⟨hudFeedNav16Reset s.gate, s.tx.call (.status 2)⟩ else s

/-- `hud_nav16_feed` and the callback it calls. -/
def HudRx.feed (hudFoldLatin : Bool) (s : HudRx) (frame : List UInt8) : HudRx :=
  (hudNav16Feed hudSink frame).elim s (s.callback hudFoldLatin)

/-! ### The same, step by step -/

/-- The call of a callback, as an action of the rx thread. -/
def SinkCall.action : SinkCall → PipeAction
  | .guidance g => .guidance g
  | .position p => .position p
  | .status st => .status st

/-- A step of the rx thread: the call, or the callback going on. -/
def RxStep (c : SinkCall) (_ : PipeState) (a : PipeAction) : Prop := a = c.action ∨ a = .rx

theorem rx_reach {hudFoldLatin : Bool} {b : Backend} {c : SinkCall} {s t t' : PipeState}
    (h : Run.Reach (pipeStep hudFoldLatin b) (RxStep c) s t) (hadvance : t.advance = some t') :
    Run.Reach (pipeStep hudFoldLatin b) (RxStep c) s t' := .next (a := .rx) h hadvance (.inr rfl)

theorem emitIfChanged_reach (hudFoldLatin : Bool) (b : Backend) (c : SinkCall) (s : PipeState)
    (acc : AaNav16HudState) :
    ∃ s', Run.Reach (pipeStep hudFoldLatin b) (RxStep c) (s.emitIfChanged acc) s' ∧
      s'.rx = .idle ∧ (⟨s'.gate, s'.tx⟩ : HudRx) = HudRx.emitIfChanged ⟨s.gate, s.tx⟩ acc := by
  by_cases hshut : Nav16Gate.Shut { s.gate with acc }
  · refine ⟨_, .start, ?_, ?_⟩
    · exact if_pos hshut
    · exact (if_pos hshut).symm
  · have hopen : s.emitIfChanged acc =
        { s with gate := { s.gate with acc }, rx := .nextTurn, ran := s.ran ++ [acc] } := by
      unfold PipeState.emitIfChanged
      dsimp only
      rw [if_neg hshut]
    rw [hopen]
    -- three calls, and the frame recorded
    refine ⟨_, rx_reach (rx_reach (rx_reach (rx_reach .start rfl) rfl) rfl) rfl, ?_, ?_⟩
    · rfl
    · exact (if_neg hshut).symm

/-- **The rx thread gets there**, when no other thread comes between its steps. -/
theorem callback_reach (hudFoldLatin : Bool) (b : Backend) (s : PipeState) (hidle : s.rx = .idle)
    (c : SinkCall) :
    ∃ s', Run.Reach (pipeStep hudFoldLatin b) (RxStep c) s s' ∧ s'.rx = .idle ∧
      (⟨s'.gate, s'.tx⟩ : HudRx) = HudRx.callback hudFoldLatin ⟨s.gate, s.tx⟩ c := by
  -- the call, and then the steps of the callback
  have hcall : RxStep c s c.action := .inl rfl
  cases c with
  | guidance g =>
    obtain ⟨s', hreach, hend⟩ := emitIfChanged_reach hudFoldLatin b (.guidance g) s
      (nav16OnGuidance hudFoldLatin s.gate.acc g)
    have hstep : pipeStep hudFoldLatin b s (.guidance g) =
        some (s.emitIfChanged (nav16OnGuidance hudFoldLatin s.gate.acc g)) := if_pos hidle
    exact ⟨s', .trans (.next .start hstep hcall) hreach, hend⟩
  | position p =>
    cases hp : nav16OnPosition s.gate.acc p with
    | none =>
      -- no step distance: the callback returns at once
      have hstep : pipeStep hudFoldLatin b s (.position p) = some s := by
        simp only [pipeStep, if_pos hidle, hp, Option.elim_none]
      refine ⟨s, .next .start hstep hcall, hidle, ?_⟩
      simp only [HudRx.callback, hp, Option.elim_none]
    | some acc =>
      have hstep : pipeStep hudFoldLatin b s (.position p) = some (s.emitIfChanged acc) := by
        simp only [pipeStep, if_pos hidle, hp, Option.elim_some]
      obtain ⟨s', hreach, hend, heq⟩ :=
        emitIfChanged_reach hudFoldLatin b (.position p) s acc
      refine ⟨s', .trans (.next .start hstep hcall) hreach, hend, heq.trans ?_⟩
      simp only [HudRx.callback, hp, Option.elim_some]
  | status st =>
    by_cases hclears : st.Clears
    · have hstep : pipeStep hudFoldLatin b s (.status st) = some { s with rx := .clear } := by
        simp only [pipeStep, if_pos hidle, if_pos hclears]
      -- the STOP, and the reset of the accumulator
      refine ⟨_, rx_reach (rx_reach (.next .start hstep hcall) rfl) rfl, ?_, ?_⟩
      · rfl
      · exact (if_pos hclears).symm
    · have hstep : pipeStep hudFoldLatin b s (.status st) = some s := by
        simp only [pipeStep, if_pos hidle, if_neg hclears]
      exact ⟨s, .next .start hstep hcall, hidle, (if_neg hclears).symm⟩

/-! ## What an update leaves in the snapshot -/

/-- The snapshot of an update. -/
def AaNav16HudState.snapshot (acc : AaNav16HudState) : NaviSnapshot where
  roadName := .ofStrncpy 64 acc.road.bytes
  dirIcon := acc.glyph
  distanceDec := acc.distDec
  distanceUnit := acc.distUnit
  lanes := nav16EncodeLaneCodes acc.lanes acc.nLanes

/-- A live transport takes all of it: three writes, the last one whole. -/
theorem Tx.emit_live {t : Tx} (hlive : t.active = true) (acc : AaNav16HudState) :
    t.emit acc = { t with snapshot := acc.snapshot, seq := t.seq + 6 } := by
  obtain ⟨snapshot, seq, active⟩ := t
  have hlive : active = true := hlive
  subst hlive
  show (⟨acc.snapshot, seq + 2 + 2 + 2, true⟩ : Tx) = ⟨acc.snapshot, seq + 6, true⟩
  rw [UInt32.add_assoc, UInt32.add_assoc]
  rfl

/-- Another one nothing. -/
theorem Tx.emit_inactive {t : Tx} (hidle : t.active = false) (acc : AaNav16HudState) :
    t.emit acc = t := by
  unfold Tx.emit
  rw [Tx.call_inactive t _ hidle, Tx.call_inactive t _ hidle, Tx.call_inactive t _ hidle]

/-! ## Frames that do not decode -/

/-- The walk stops before the field the HUD reads is complete: the first step of
0x8006, the step distance of 0x8007, the status of 0x8003. -/
inductive Undecoded : List UInt8 → Prop
  | navState (body : List UInt8)
      (h : (hudNav16DecodeNavstate (frameBody 0x80 0x06 body)).nSteps = 0) :
      Undecoded (0x80 :: 0x06 :: body)
  | position (body : List UInt8)
      (h : (hudNav16DecodePosition (frameBody 0x80 0x07 body)).haveStep = false) :
      Undecoded (0x80 :: 0x07 :: body)
  | status (body : List UInt8) (h : hudNav16ReadStatus (0x80 :: 0x03 :: body) = none) :
      Undecoded (0x80 :: 0x03 :: body)

/-- Accumulator and snapshot are as they were. -/
def HudRx.Kept (s s' : HudRx) : Prop :=
  s'.gate.acc = s.gate.acc ∧ s'.tx.snapshot = s.tx.snapshot

instance (s s' : HudRx) : Decidable (s.Kept s') := inferInstanceAs (Decidable (_ ∧ _))

/-- An update with the accumulator as it is finds the gate shut, the transport not
live or the snapshot in place. -/
def HudRx.InPlace (s : HudRx) : Prop :=
  s.gate.Shut ∨ s.tx.active = false ∨ s.tx.snapshot = s.gate.acc.snapshot

instance (s : HudRx) : Decidable s.InPlace := inferInstanceAs (Decidable (_ ∨ _ ∨ _))

/-- The accumulator has the glyph, the road and the lanes of `g`. -/
structure AaNav16HudState.Holds (hudFoldLatin : Bool) (acc : AaNav16HudState) (g : AaGuidance) :
    Prop where
  glyph  : acc.glyph = guidanceGlyph g
  road   : acc.road = .ofStrncpy 64 (guidanceRoad hudFoldLatin g).bytes
  nLanes : acc.nLanes = g.nLanes
  lanes  : ∀ i : Fin 8, acc.lanes.get i = if i.val < g.nLanes.val then g.lanes.get i else {}

/-- The accumulator has nothing of a maneuver: the glyph is `HUD_EMPTY`, there is
no road and no lane. -/
structure AaNav16HudState.NoManeuver (acc : AaNav16HudState) : Prop where
  glyph  : acc.glyph = 18
  road   : acc.road = .zero 64
  nLanes : acc.nLanes = noLanes
  lanes  : acc.lanes = .replicate 8 {}

theorem decStep_nSteps {frame : List UInt8} (d : Pb frame) (g : AaGuidance) :
    (decStep d g).nSteps = g.nSteps := by
  unfold decStep decFields walk
  refine walkFuel_keeps (P := fun g' => g'.nSteps = g.nSteps) ?_ ?_ _ g d rfl
  · intro f k s v hk
    exact absurd hk (by simp)
  · intro f k s d hk hs
    rw [← Option.some_inj.mp hk]
    dsimp only
    split
    · -- the fields of the maneuver
      unfold decManeuver decFields walk
      refine walkFuel_keeps (P := fun g' => g'.nSteps = g.nSteps) ?_ ?_ _ s d hs
      · intro f k s v hk hs
        split at hk
        · rw [← Option.some_inj.mp hk]
          exact hs
        · split at hk
          · rw [← Option.some_inj.mp hk]
            exact hs
          · split at hk
            · rw [← Option.some_inj.mp hk]
              exact hs
            · exact absurd hk (by simp)
      · intro f k s d hk
        exact absurd hk (by simp)
    · -- road and lanes
      split
      · exact hs
      · split
        · unfold AaGuidance.pushLane
          split
          · exact hs
          · exact hs
        · exact hs

/-- Without a step nothing is decoded. -/
theorem decodeNavstate_eq_zero {frame : List UInt8} {c : Pb frame}
    (h : (hudNav16DecodeNavstate c).nSteps = 0) : hudNav16DecodeNavstate c = {} := by
  rw [hudNav16DecodeNavstate_eq] at h ⊢
  unfold decFields walk at h ⊢
  -- once there is a step the count is never 0 again
  have hkeeps : ∀ s : AaGuidance × Bool, (s.1.nSteps = 0 → s.1 = {} ∧ s.2 = false) →
      ∀ fuel, (walkFuel (decTurn (fun _ => none) navstateBytes) fuel s c).1.nSteps = 0 →
        (walkFuel (decTurn (fun _ => none) navstateBytes) fuel s c).1 = {} ∧
          (walkFuel (decTurn (fun _ => none) navstateBytes) fuel s c).2 = false := by
    intro s hs fuel
    refine walkFuel_keeps (P := fun s => s.1.nSteps = 0 → s.1 = {} ∧ s.2 = false) ?_ ?_ fuel s c hs
    · intro f k s v hk
      exact absurd hk (by simp)
    · rintro f k ⟨out, gotStep⟩ d hk -
      unfold navstateBytes at hk
      split at hk
      · rw [← Option.some_inj.mp hk]
        -- either way the count goes up: a further step is counted, the first one decoded too
        cases gotStep with
        | true => exact fun h => absurd h (Nat.succ_ne_zero _)
        | false =>
          intro h
          simp only [Bool.false_eq_true, if_false, decStep_nSteps] at h
          exact absurd h (Nat.succ_ne_zero _)
      · exact absurd hk (by simp)
  exact (hkeeps ({}, false) (fun _ => ⟨rfl, rfl⟩) _ h).1

/-! ### What a callback keeps -/

theorem emitIfChanged_kept_iff (s : HudRx) (acc : AaNav16HudState) :
    s.Kept (s.emitIfChanged acc) ↔ acc = s.gate.acc ∧ s.InPlace := by
  unfold HudRx.emitIfChanged
  dsimp only
  by_cases hshut : Nav16Gate.Shut { s.gate with acc }
  · rw [if_pos hshut]
    -- shut, so the accumulator alone decides
    constructor
    · rintro ⟨hacc, -⟩
      have hacc : acc = s.gate.acc := hacc
      subst hacc
      exact ⟨rfl, .inl hshut⟩
    · rintro ⟨hacc, -⟩
      exact ⟨hacc, rfl⟩
  · rw [if_neg hshut]
    -- open: the snapshot becomes that of the accumulator, where the transport is live
    show acc = s.gate.acc ∧ (s.tx.emit acc).snapshot = s.tx.snapshot ↔ _
    refine and_congr_right fun hacc => ?_
    subst hacc
    unfold HudRx.InPlace
    cases hlive : s.tx.active with
    | true =>
      rw [Tx.emit_live hlive]
      constructor
      · exact fun h => .inr (.inr h.symm)
      · rintro (h | h | h)
        · exact absurd h hshut
        · exact absurd h (by simp)
        · exact h.symm
    | false =>
      rw [Tx.emit_inactive hlive]
      exact iff_of_true rfl (.inr (.inl rfl))

theorem guidanceRoad_length (hudFoldLatin : Bool) (g : AaGuidance) :
    (guidanceRoad hudFoldLatin g).str.length ≤ 63 := by
  unfold guidanceRoad
  cases hudFoldLatin with
  | true =>
    simp only [if_true]
    rw [foldBuf_ofStrncpy_str (by decide)]
    exact (HudTranslit.length_foldSpec 0 _).trans (List.length_take_le 63 _)
  | false =>
    simp only [Bool.false_eq_true, if_false]
    rw [CharBuf.ofStrncpy_str (by decide)]
    exact List.length_take_le 63 _

/-- A guidance leaves the accumulator alone if it says what is there. -/
theorem nav16OnGuidance_eq_iff (hudFoldLatin : Bool) (acc : AaNav16HudState) (g : AaGuidance) :
    nav16OnGuidance hudFoldLatin acc g = acc ↔ acc.Holds hudFoldLatin g := by
  constructor
  · intro h
    refine ⟨?_, ?_, ?_, fun i => ?_⟩
    · rw [← h]
      rfl
    · rw [← h]
      rfl
    · rw [← h]
      rfl
    · rw [← h]
      exact Vector.getElem_ofFn i.isLt
  · rintro ⟨hglyph, hroad, hn, hlanes⟩
    have hstr : (guidanceRoad hudFoldLatin g).str = acc.road.str := by
      rw [hroad, CharBuf.ofStrncpy_str (by decide)]
      exact (List.take_of_length_le (guidanceRoad_length hudFoldLatin g)).symm
    -- the same maneuver, so the distance stays
    have hsame : ¬(guidanceGlyph g ≠ acc.glyph ∨ (guidanceRoad hudFoldLatin g).str ≠ acc.road.str) := by
      rw [hglyph, hstr]
      simp
    -- the lanes behind `n_lanes` are zeroed in the copy
    have hall : (Vector.ofFn fun i : Fin 8 =>
        if i.val < g.nLanes.val then g.lanes.get i else {}) = acc.lanes := by
      ext i hi
      rw [Vector.getElem_ofFn]
      exact (hlanes ⟨i, hi⟩).symm
    unfold nav16OnGuidance
    obtain ⟨glyph, dist, unit, n, road, lanes, hterm⟩ := acc
    simp only [if_neg hsame, AaNav16HudState.mk.injEq]
    exact ⟨hglyph.symm, trivial, trivial, hn.symm, hroad.symm, hall⟩

theorem holds_zero_iff (hudFoldLatin : Bool) (acc : AaNav16HudState) :
    acc.Holds hudFoldLatin {} ↔ acc.NoManeuver := by
  have hglyph : guidanceGlyph {} = 18 := by decide
  have hroad : CharBuf.ofStrncpy 64 (guidanceRoad hudFoldLatin {}).bytes = .zero 64 := by
    cases hudFoldLatin with
    | true => decide +kernel
    | false => decide +kernel
  have hlanes : acc.lanes = .replicate 8 {} ↔ ∀ i : Fin 8, acc.lanes.get i = {} := by
    constructor
    · intro h i
      rw [h]
      exact Vector.getElem_replicate i.isLt
    · intro h
      ext i hi
      rw [Vector.getElem_replicate]
      exact h ⟨i, hi⟩
  constructor
  · rintro ⟨h₁, h₂, h₃, h₄⟩
    refine ⟨h₁.trans hglyph, h₂.trans hroad, h₃, hlanes.mpr fun i => ?_⟩
    -- a guidance that was not decoded has no lanes
    rw [h₄ i, if_neg (by simp [noLanes])]
  · rintro ⟨h₁, h₂, h₃, h₄⟩
    refine ⟨h₁.trans hglyph.symm, h₂.trans hroad.symm, h₃, fun i => ?_⟩
    rw [if_neg (by simp [noLanes])]
    exact hlanes.mp h₄ i

/-! ### The frames -/

theorem callback_guidance_kept_iff (hudFoldLatin : Bool) (s : HudRx) (g : AaGuidance) :
    s.Kept (s.callback hudFoldLatin (.guidance g)) ↔
      s.gate.acc.Holds hudFoldLatin g ∧ s.InPlace := by
  rw [← nav16OnGuidance_eq_iff]
  exact emitIfChanged_kept_iff s _

theorem callback_position_kept_iff (hudFoldLatin : Bool) (s : HudRx) {p : AaPosition}
    (hp : p.haveStep = true) :
    s.Kept (s.callback hudFoldLatin (.position p)) ↔
      (s.gate.acc.distUnit = positionUnit p ∧
        s.gate.acc.distDec = quantizeDistX10 (parseDistX10 p.stepDisplay.bytes) (positionUnit p)) ∧
        s.InPlace := by
  have hcall : s.callback hudFoldLatin (.position p) = s.emitIfChanged { s.gate.acc with
      distUnit := positionUnit p
      distDec := quantizeDistX10 (parseDistX10 p.stepDisplay.bytes) (positionUnit p) } := by
    have hacc : nav16OnPosition s.gate.acc p = some _ := if_pos hp
    simp only [HudRx.callback, hacc, Option.elim_some]
  rw [hcall, emitIfChanged_kept_iff]
  refine and_congr_left fun _ => ?_
  obtain ⟨glyph, dist, unit, n, road, lanes, hterm⟩ := s.gate.acc
  simp only [AaNav16HudState.mk.injEq, true_and, and_true]
  constructor
  · rintro ⟨hd, hu⟩
    exact ⟨hu.symm, hd.symm⟩
  · rintro ⟨hu, hd⟩
    exact ⟨hd.symm, hu.symm⟩

/-- An accumulator with an arrow; the transport is live and shows it. -/
def turning : HudRx :=
  let acc : AaNav16HudState := { road_terminated := zero_terminated }
  HudRx.feed true ⟨⟨acc, acc, false⟩, { active := true }⟩
    [0x80, 0x06, 0x0a, 0x04, 0x0a, 0x02, 0x08, 0x07]

/-- A step cut short wipes the maneuver. -/
theorem maneuver_wiped_by_cut_step : ¬∀ hudFoldLatin (s : HudRx) frame,
    Undecoded frame → s.Kept (s.feed hudFoldLatin frame) := by
  intro h
  have hwiped : ¬turning.Kept (turning.feed true [0x80, 0x06, 0x0a, 0x05]) := by decide +kernel
  exact hwiped (h true turning _ (.navState [0x0a, 0x05] (by decide +kernel)))

/-- **When a damaged frame leaves the HUD as it was.** Of the frames that do not
decode a status or a position always does, a `NavigationState` only where there is
no maneuver to lose. If the step or its distance is complete it is taken as it is,
whatever is wrong in it or behind it. -/
theorem undecoded_frame_kept_iff (hudFoldLatin : Bool) (s : HudRx) (frame : List UInt8) :
    (Undecoded frame → (s.Kept (s.feed hudFoldLatin frame) ↔
      ((∃ body, frame = 0x80 :: 0x06 :: body) → s.gate.acc.NoManeuver ∧ s.InPlace))) ∧
    (∀ g, hudNav16Feed hudSink frame = some (.guidance g) → g.nSteps ≠ 0 →
      (s.Kept (s.feed hudFoldLatin frame) ↔ s.gate.acc.Holds hudFoldLatin g ∧ s.InPlace)) ∧
    (∀ p, hudNav16Feed hudSink frame = some (.position p) → p.haveStep = true →
      (s.Kept (s.feed hudFoldLatin frame) ↔
        (s.gate.acc.distUnit = positionUnit p ∧ s.gate.acc.distDec =
          quantizeDistX10 (parseDistX10 p.stepDisplay.bytes) (positionUnit p)) ∧ s.InPlace)) := by
  unfold HudRx.feed
  -- only the 0x8006 handler goes on without checking what was decoded
  refine ⟨fun hbad => ?_, fun g hg _ => ?_, fun p hp hstep => ?_⟩
  · cases hbad with
    | navState body h =>
      rw [feed_navState rfl, Option.elim_some, decodeNavstate_eq_zero h, callback_guidance_kept_iff,
        holds_zero_iff]
      exact ⟨fun hkept _ => hkept, fun hkept => hkept ⟨body, rfl⟩⟩
    | position body h =>
      rw [feed_position rfl, Option.elim_some]
      refine iff_of_true ?_ ?_
      · simp only [HudRx.callback, nav16OnPosition, h, Bool.false_eq_true, if_false, Option.elim_none]
        exact ⟨rfl, rfl⟩
      · rintro ⟨_, heq⟩
        exact absurd (List.cons.inj (List.cons.inj heq).2).1 (by decide)
    | status body h =>
      rw [feed_status rfl, Option.elim_some, h]
      refine iff_of_true ⟨rfl, rfl⟩ ?_
      rintro ⟨_, heq⟩
      exact absurd (List.cons.inj (List.cons.inj heq).2).1 (by decide)
  · rw [hg]
    exact callback_guidance_kept_iff hudFoldLatin s g
  · rw [hp]
    exact callback_position_kept_iff hudFoldLatin s hstep

/-- A position cut short is ignored and a step cut short is not; a step said again
changes nothing, a new distance does, each with a damaged field behind it. -/
theorem undecoded_frame_kept_iff_examples :
    turning.Kept (turning.feed true [0x80, 0x07, 0x0a, 0x05]) ∧
    ¬turning.Kept (turning.feed true [0x80, 0x06, 0x0a, 0x05]) ∧
    turning.Kept
      (turning.feed true [0x80, 0x06, 0x0a, 0x04, 0x0a, 0x02, 0x08, 0x07, 0x0a, 0x05]) ∧
    ¬turning.Kept (turning.feed true
      [0x80, 0x07, 0x0a, 0x07, 0x0a, 0x05, 0x12, 0x01, 0x35, 0x18, 0x01, 0x0a, 0x05]) := by
  refine ⟨?_, fun hkept => ?_, ?_, fun hkept => ?_⟩
  · refine ((undecoded_frame_kept_iff true turning _).1
      (.position [0x0a, 0x05] (by decide +kernel))).mpr ?_
    rintro ⟨_, heq⟩
    exact absurd (List.cons.inj (List.cons.inj heq).2).1 (by decide)
  · have hnone : turning.gate.acc.NoManeuver :=
      (((undecoded_frame_kept_iff true turning _).1
        (.navState [0x0a, 0x05] (by decide +kernel))).mp hkept ⟨_, rfl⟩).1
    exact absurd hnone.glyph (by decide +kernel)
  · refine ((undecoded_frame_kept_iff true turning _).2.1 _ (feed_navState rfl _)
      (by decide +kernel)).mpr ⟨⟨?_, ?_, ?_, ?_⟩, ?_⟩
    all_goals decide +kernel
  · have hsame := (((undecoded_frame_kept_iff true turning _).2.2 _ (feed_position rfl _)
      (by decide +kernel)).mp hkept).1.1
    exact absurd hsame (by decide +kernel)

end OemAaMod
