import OemAaMod.Hud.Frames

/-!
# The HUD after guidance has ended

A cluster STOP and a `NavigationStatus` of INACTIVE or UNAVAILABLE blank the
snapshot and reset the accumulator. The distance comes in frames of its own, and
the callback for it does not ask whether there is a maneuver.

* `AfterStop` — until the next 0x8006 the accumulator has a distance at most;
* `blank_after_stop_iff` — the HUD stays blank exactly if no frame tells one, and the
  next 0x8006 always gets through.
-/

namespace OemAaMod

open CStr (CharBuf)

/-! ## The frames -/

/-- A frame that clears the HUD. -/
def Stops (frame : List UInt8) : Prop :=
  ∃ st, hudNav16Feed hudSink frame = some (.status st) ∧ st.Clears

/-- A `NavigationState`. -/
def IsNavState (frame : List UInt8) : Prop :=
  ∃ g, hudNav16Feed hudSink frame = some (.guidance g)

/-- The step distance of a position frame as it is shown, with its unit. -/
def stepDistance? (frame : List UInt8) : Option (Int32 × UInt8) :=
  match hudNav16Feed hudSink frame with
  | some (.position p) =>
    if p.haveStep then
      some (quantizeDistX10 (parseDistX10 p.stepDisplay.bytes) (positionUnit p), positionUnit p)
    else none
  | _ => none

/-- A position frame with something to show: a distance, or a unit. -/
def TellsDistance (frame : List UInt8) : Prop := ∃ d, stepDistance? frame = some d ∧ d ≠ (0, 0)

instance (frame : List UInt8) : Decidable (TellsDistance frame) :=
  decidable_of_iff ((stepDistance? frame).any (· ≠ (0, 0)) = true) (by
    unfold TellsDistance
    cases stepDistance? frame with
    | none => simp
    | some d => simp)

/-- The accumulator with a distance and nothing else. -/
def bareDistance (d : Int32 × UInt8) : AaNav16HudState where
  distDec := d.1
  distUnit := d.2
  road_terminated := zero_terminated

theorem bareDistance_view (d : Int32 × UInt8) :
    (bareDistance d).view = { View.blank with dist := d.1, unit := d.2 } := by
  have hglyph := congrArg View.glyph AaNav16HudState.view_zero
  have hroad := congrArg View.road AaNav16HudState.view_zero
  have hlanes := congrArg View.lanes AaNav16HudState.view_zero
  refine View.ext ?_ ?_ rfl rfl ?_
  · exact hglyph
  · exact hroad
  · exact hlanes

/-- What a frame leaves of the distance held. -/
def distanceAfter (d : Int32 × UInt8) (frame : List UInt8) : Int32 × UInt8 :=
  match hudNav16Feed hudSink frame with
  | some (.status st) => if st.Clears then (0, 0) else d
  | _ => (stepDistance? frame).getD d

/-! ## Between a stop and the next guidance -/

/-- The transport is live and shows the accumulator, which has a distance only. -/
structure AfterStop (s : HudRx) (d : Int32 × UInt8) : Prop where
  live  : s.tx.active = true
  bare  : s.gate.acc = bareDistance d
  shown : s.tx.snapshot.view = (bareDistance d).view
  last  : s.gate.haveLast = true → s.gate.last = bareDistance d

theorem AaNav16HudState.snapshot_view (acc : AaNav16HudState) : acc.snapshot.view = acc.view := by
  have hroad : (CharBuf.ofStrncpy 64 acc.road.bytes).str = acc.road.str := by
    rw [CharBuf.ofStrncpy_str (by decide)]
    exact acc.take_road
  exact View.ext rfl hroad rfl rfl rfl

theorem afterStop_stop {hudFoldLatin : Bool} {s : HudRx} (hlive : s.tx.active = true)
    {stop : List UInt8} (hstop : Stops stop) : AfterStop (s.feed hudFoldLatin stop) (0, 0) := by
  obtain ⟨st, hfeed, hclears⟩ := hstop
  have hcall : s.feed hudFoldLatin stop =
      ⟨hudFeedNav16Reset s.gate, s.tx.call (.status 2)⟩ := by
    unfold HudRx.feed
    rw [hfeed]
    exact if_pos hclears
  rw [hcall]
  refine ⟨?_, rfl, ?_, fun h => absurd h (by simp [hudFeedNav16Reset])⟩
  · rw [Tx.call_active]
    exact hlive
  · rw [Tx.call_view _ _ hlive, bareDistance_view]
    rfl

theorem afterStop_emit {s : HudRx} {d : Int32 × UInt8} (h : AfterStop s d) (d' : Int32 × UInt8) :
    AfterStop (s.emitIfChanged (bareDistance d')) d' := by
  unfold HudRx.emitIfChanged
  dsimp only
  by_cases hshut : Nav16Gate.Shut { s.gate with acc := bareDistance d' }
  · rw [if_pos hshut]
    obtain ⟨hhave, hsame⟩ := hshut
    -- a shut gate: the distance is the one held
    have hd : bareDistance d' = bareDistance d := Eq.trans hsame (h.last hhave)
    exact ⟨h.live, rfl, by rw [hd]; exact h.shown, fun _ => by rw [hd]; exact h.last hhave⟩
  · rw [if_neg hshut]
    rw [Tx.emit_live h.live]
    exact ⟨h.live, rfl, AaNav16HudState.snapshot_view _, fun _ => rfl⟩

/-- **Step lemma.** Without a `NavigationState` only the distance changes. -/
theorem afterStop_feed {hudFoldLatin : Bool} {s : HudRx} {d : Int32 × UInt8} (h : AfterStop s d)
    {frame : List UInt8} (hno : ¬IsNavState frame) :
    AfterStop (s.feed hudFoldLatin frame) (distanceAfter d frame) := by
  cases hfeed : hudNav16Feed hudSink frame with
  | none =>
    simp only [HudRx.feed, distanceAfter, stepDistance?, hfeed, Option.elim_none, Option.getD_none]
    exact h
  | some c =>
    cases c with
    | guidance g => exact absurd ⟨g, hfeed⟩ hno
    | position p =>
      simp only [HudRx.feed, distanceAfter, stepDistance?, hfeed, Option.elim_some,
        HudRx.callback, nav16OnPosition]
      -- the callback does not ask for a maneuver, only for a step distance
      split
      · simp only [Option.elim_some, Option.getD_some, h.bare]
        exact afterStop_emit h
          (quantizeDistX10 (parseDistX10 p.stepDisplay.bytes) (positionUnit p), positionUnit p)
      · exact h
    | status st =>
      by_cases hclears : st.Clears
      · -- another stop
        have hzero : distanceAfter d frame = (0, 0) := by
          simp only [distanceAfter, hfeed, if_pos hclears]
        rw [hzero]
        exact afterStop_stop h.live ⟨st, hfeed, hclears⟩
      · simp only [HudRx.feed, distanceAfter, hfeed, Option.elim_some, HudRx.callback,
          if_neg hclears]
        exact h

theorem afterStop_run {hudFoldLatin : Bool} (frames : List (List UInt8)) :
    ∀ (s : HudRx) (d : Int32 × UInt8), AfterStop s d → (∀ f ∈ frames, ¬IsNavState f) →
      AfterStop (frames.foldl (HudRx.feed hudFoldLatin) s) (frames.foldl distanceAfter d) := by
  induction frames with
  | nil => exact fun s d h _ => h
  | cons f frames ih =>
    intro s d h hno
    rw [List.forall_mem_cons] at hno
    exact ih _ _ (afterStop_feed h hno.1) hno.2

/-! ## Blank -/

theorem blank_iff {s : HudRx} {d : Int32 × UInt8} (h : AfterStop s d) :
    s.tx.snapshot.view = .blank ↔ d = (0, 0) := by
  rw [h.shown, bareDistance_view]
  constructor
  · intro hblank
    exact Prod.ext (congrArg View.dist hblank) (congrArg View.unit hblank)
  · rintro rfl
    rfl

/-- With nothing held, nothing is held after a frame exactly if it tells nothing. -/
theorem distanceAfter_zero_iff (frame : List UInt8) :
    distanceAfter (0, 0) frame = (0, 0) ↔ ¬TellsDistance frame := by
  have hgetD : (stepDistance? frame).getD (0, 0) = (0, 0) ↔ ¬TellsDistance frame := by
    unfold TellsDistance
    cases stepDistance? frame with
    | none => simp
    | some d => simp
  unfold distanceAfter
  split
  · rename_i st hfeed
    have hnone : stepDistance? frame = none := by simp only [stepDistance?, hfeed]
    rw [hnone, Option.getD_none] at hgetD
    exact iff_of_true (ite_self _) (hgetD.mp rfl)
  · exact hgetD

/-- The HUD is blank all through `frames` exactly if none of them tells a distance. -/
theorem blank_run_iff (hudFoldLatin : Bool) (frames : List (List UInt8)) :
    ∀ s : HudRx, AfterStop s (0, 0) → (∀ f ∈ frames, ¬IsNavState f) →
      ((∀ n, ((frames.take n).foldl (HudRx.feed hudFoldLatin) s).tx.snapshot.view = .blank) ↔
        ∀ f ∈ frames, ¬TellsDistance f) := by
  induction frames with
  | nil =>
    intro s h _
    refine iff_of_true (fun n => ?_) (fun f hf => absurd hf (List.not_mem_nil))
    rw [List.take_nil]
    exact (blank_iff h).mpr rfl
  | cons f frames ih =>
    intro s h hno
    rw [List.forall_mem_cons] at hno ⊢
    have hnext : AfterStop (s.feed hudFoldLatin f) (distanceAfter (0, 0) f) :=
      afterStop_feed h hno.1
    constructor
    · intro hblank
      -- the first frame leaves it blank, so nothing is held behind it
      have hone : distanceAfter (0, 0) f = (0, 0) := (blank_iff hnext).mp (hblank 1)
      rw [hone] at hnext
      exact ⟨(distanceAfter_zero_iff f).mp hone,
        (ih _ hnext hno.2).mp fun n => hblank (n + 1)⟩
    · -- nothing is told by the first frame, and then by none of the rest
      rintro ⟨hf, hframes⟩ n
      rw [(distanceAfter_zero_iff f).mpr hf] at hnext
      cases n with
      | zero => exact (blank_iff h).mpr rfl
      | succ n => exact (ih _ hnext hno.2).mpr hframes n

/-! ## The next guidance -/

/-- The gate is open for it, whatever it says: it has a glyph. -/
theorem reaches_after_stop {hudFoldLatin : Bool} {s : HudRx} {d : Int32 × UInt8}
    (h : AfterStop s d) {frame : List UInt8} (hnav : IsNavState frame) :
    (s.feed hudFoldLatin frame).tx.seq = s.tx.seq + 6 ∧
      (s.feed hudFoldLatin frame).tx.snapshot.view = (s.feed hudFoldLatin frame).gate.acc.view := by
  obtain ⟨g, hfeed⟩ := hnav
  -- the gate holds a bare distance, if anything, and that has no glyph
  have hopen : ¬Nav16Gate.Shut { s.gate with acc := nav16OnGuidance hudFoldLatin s.gate.acc g } := by
    rintro ⟨hhave, hsame⟩
    have hglyph : guidanceGlyph g = (bareDistance d).glyph :=
      congrArg AaNav16HudState.glyph (Eq.trans hsame (h.last hhave))
    exact guidanceGlyph_ne_zero g hglyph
  have hcall : s.feed hudFoldLatin frame =
      ⟨{ s.gate with acc := nav16OnGuidance hudFoldLatin s.gate.acc g }.record,
        s.tx.emit (nav16OnGuidance hudFoldLatin s.gate.acc g)⟩ := by
    unfold HudRx.feed
    rw [hfeed]
    exact if_neg hopen
  rw [hcall, Tx.emit_live h.live]
  exact ⟨rfl, AaNav16HudState.snapshot_view _⟩

/-- A position, 5 m to go. -/
def fiveMetres : List UInt8 :=
  [0x80, 0x07, 0x0a, 0x07, 0x0a, 0x05, 0x12, 0x01, 0x35, 0x18, 0x01]

theorem fiveMetres_not_navState : ∀ f ∈ [fiveMetres], ¬IsNavState f := by
  intro f hf
  rw [List.mem_singleton] at hf
  subst hf
  rintro ⟨g, hg⟩
  rw [fiveMetres, feed_position rfl] at hg
  exact SinkCall.noConfusion (Option.some_inj.mp hg)

/-- Behind a STOP a position comes back on the HUD. -/
theorem distance_after_stop : ¬∀ hudFoldLatin (s : HudRx) stop (frames : List (List UInt8)),
    s.tx.active = true → Stops stop → (∀ f ∈ frames, ¬IsNavState f) →
      (frames.foldl (HudRx.feed hudFoldLatin) (s.feed hudFoldLatin stop)).tx.snapshot.view =
        View.blank := by
  intro h
  have hstop : Stops [0x80, 0x02] := ⟨_, rfl, .inl rfl⟩
  have hblank := h true turning _ [fiveMetres] (by decide +kernel) hstop fiveMetres_not_navState
  exact absurd hblank (by decide +kernel)

/-- **After a stop.** The HUD stays blank until the next 0x8006 exactly if no position
frame with a distance or a unit to show arrives before it; and that 0x8006 gets through
in any case. -/
theorem blank_after_stop_iff (hudFoldLatin : Bool) (s : HudRx) (hlive : s.tx.active = true)
    (stop : List UInt8) (hstop : Stops stop) (frames : List (List UInt8))
    (hno : ∀ f ∈ frames, ¬IsNavState f) :
    ((∀ n, ((frames.take n).foldl (HudRx.feed hudFoldLatin)
        (s.feed hudFoldLatin stop)).tx.snapshot.view = .blank) ↔
      ∀ f ∈ frames, ¬TellsDistance f) ∧
    ∀ frame, IsNavState frame →
      let t := frames.foldl (HudRx.feed hudFoldLatin) (s.feed hudFoldLatin stop)
      (t.feed hudFoldLatin frame).tx.seq = t.tx.seq + 6 ∧
        (t.feed hudFoldLatin frame).tx.snapshot.view =
          (t.feed hudFoldLatin frame).gate.acc.view := by
  have hstopped : AfterStop (s.feed hudFoldLatin stop) (0, 0) := afterStop_stop hlive hstop
  refine ⟨blank_run_iff hudFoldLatin frames _ hstopped hno, fun frame hnav => ?_⟩
  exact reaches_after_stop (afterStop_run frames _ _ hstopped hno) hnav

/-- A damaged position leaves the HUD blank, one with a distance does not; the turn from
before the STOP gets through again. -/
theorem blank_after_stop_iff_examples :
    (∀ n, ((List.take n [[0x80, 0x07, 0x0a, 0x05]]).foldl (HudRx.feed true)
      (turning.feed true [0x80, 0x02])).tx.snapshot.view = .blank) ∧
    (¬∀ n, ((List.take n [fiveMetres]).foldl (HudRx.feed true)
      (turning.feed true [0x80, 0x02])).tx.snapshot.view = .blank) ∧
    ((turning.feed true [0x80, 0x02]).feed true
        [0x80, 0x06, 0x0a, 0x04, 0x0a, 0x02, 0x08, 0x07]).tx.seq =
      (turning.feed true [0x80, 0x02]).tx.seq + 6 := by
  have hlive : turning.tx.active = true := by decide +kernel
  have hstop : Stops [0x80, 0x02] := ⟨_, rfl, .inl rfl⟩
  refine ⟨?_, ?_, ?_⟩
  · refine (blank_after_stop_iff true turning hlive _ hstop [[0x80, 0x07, 0x0a, 0x05]] ?_).1.mpr ?_
    · intro f hf
      rw [List.mem_singleton] at hf
      subst hf
      rintro ⟨g, hg⟩
      rw [feed_position rfl] at hg
      exact SinkCall.noConfusion (Option.some_inj.mp hg)
    · intro f hf
      rw [List.mem_singleton] at hf
      subst hf
      decide +kernel
  · intro hblank
    have hnone := (blank_after_stop_iff true turning hlive _ hstop [fiveMetres]
      fiveMetres_not_navState).1.mp hblank fiveMetres (List.mem_singleton_self _)
    exact absurd hnone (by decide +kernel)
  · exact ((blank_after_stop_iff true turning hlive _ hstop []
      (fun f hf => absurd hf List.not_mem_nil)).2 _ ⟨_, feed_navState rfl _⟩).1

end OemAaMod
