import OemAaMod.Merge.Hook

/-!
# What the merge makes of the two streams

The merge keeps its state in plain variables; what it does is described here by
the history alone: the latest OEM frame, the latest AAP frame, and how old that
is. `Tracks` says that the state is that description, `tracks_runCalls` that it
stays so over any sequence of calls.

Main results:

* `forwarded_frame_merged` — every forwarded maneuver frame carries the latest
  OEM speed, and the AAP maneuver as long as AAP owns the display;
* `forwarded_strip_merged` — every forwarded strip shows the street that belongs
  to that maneuver.
-/

namespace OemAaMod

open CStr (Bytes CharBuf cstr)

/-! ## The history -/

/-- A maneuver frame with the clock reading of its call. -/
abbrev TimedFrame := Int × VbsNaviHudDisplay

def MergeCall.frame? : MergeCall → Option TimedFrame
  | frame now disp => some (now, disp)
  | strip _ _ => none

/-- The maneuver frames among the calls. -/
def framesOf (calls : List MergeCall) : List TimedFrame := calls.filterMap MergeCall.frame?

/-- The latest frame of the OEM stream. -/
def lastOem (past : List TimedFrame) : Option TimedFrame :=
  (past.filter fun f => !isAapFrame f.2).getLast?

/-- The latest frame of the AAP stream, blanking frames included. -/
def lastAap (past : List TimedFrame) : Option TimedFrame :=
  (past.filter fun f => isAapFrame f.2).getLast?

/-- AAP guidance that is in force at `now`: a real maneuver, at most 300 s old. -/
def inForce (now : Int) (f : TimedFrame) : Bool :=
  f.2.nextManeuverInfo != 0 && decide (now - f.1 ≤ kAapTimeoutSec)

/-- The AAP frame that owns the display at `now`, if one does. -/
def owner (past : List TimedFrame) (now : Int) : Option TimedFrame :=
  (lastAap past).filter (inForce now)

theorem lastOem_concat (past : List TimedFrame) (f : TimedFrame) :
    lastOem (past ++ [f]) = if isAapFrame f.2 then lastOem past else some f := by
  rw [lastOem, lastOem, List.filter_append]
  cases hf : isAapFrame f.2 <;> simp [hf]

theorem lastAap_concat (past : List TimedFrame) (f : TimedFrame) :
    lastAap (past ++ [f]) = if isAapFrame f.2 then some f else lastAap past := by
  rw [lastAap, lastAap, List.filter_append]
  cases hf : isAapFrame f.2 <;> simp [hf]

theorem lastOem_speed_ne {past : List TimedFrame} {f : TimedFrame} (h : lastOem past = some f) :
    f.2.displaySpeedLimit ≠ kAapSpeedSentinel := by
  have hmem := List.mem_of_getLast? h
  rw [List.mem_filter] at hmem
  intro heq
  rw [(isAapFrame_iff f.2).mpr heq] at hmem
  exact absurd hmem.2 (by decide)

/-! ## The state is the history -/

/-- The merge variables say what the history says. -/
structure Tracks (s : MergeState) (past : List TimedFrame) : Prop where
  speed   : s.oemSpeed = (lastOem past).elim 0 (·.2.displaySpeedLimit)
  sunit   : s.oemSunit = (lastOem past).elim 0 (·.2.displaySpeedUnit)
  haveAap : s.haveAap = (lastAap past).any (·.2.nextManeuverInfo != 0)
  block   : ∀ f, lastAap past = some f → f.2.nextManeuverInfo ≠ 0 →
    s.aapMan = f.2.nextManeuverInfo ∧ s.aapDist = f.2.distanceValue ∧
      s.aapDunit = f.2.distanceUnit ∧ s.aapLast = f.1

theorem tracks_init : Tracks {} [] := by
  refine ⟨rfl, rfl, rfl, ?_⟩
  intro f hf
  simp [lastAap] at hf

/-- The remembered speed is never the sentinel. -/
theorem Tracks.speed_ne {s : MergeState} {past : List TimedFrame} (h : Tracks s past) :
    s.oemSpeed ≠ kAapSpeedSentinel := by
  rw [h.speed]
  cases hlast : lastOem past with
  | none => decide
  | some f => exact lastOem_speed_ne hlast

/-- `aap_active()` asks exactly whether an AAP frame owns the display. -/
theorem Tracks.aapActive_eq {s : MergeState} {past : List TimedFrame} (h : Tracks s past)
    (now : Int) : aapActive s now = (owner past now).isSome := by
  rw [aapActive, h.haveAap, owner]
  cases hlast : lastAap past with
  | none => rfl
  | some f =>
    by_cases hman : f.2.nextManeuverInfo = 0
    · simp [inForce, hman, Option.filter]
    · obtain ⟨-, -, -, htime⟩ := h.block f hlast hman
      simp only [Option.any_some, Option.filter_some, inForce, htime]
      by_cases hold : now - f.1 ≤ kAapTimeoutSec <;> simp [hman, hold]

/-- The state fields the history is about do not depend on the tag and the
street. -/
theorem Tracks.of_street {s : MergeState} {past : List TimedFrame} (h : Tracks s past)
    (street : CharBuf 128) (action : StreetAction) :
    Tracks { s with aapStreet := street, streetAction := action } past :=
  ⟨h.speed, h.sunit, h.haveAap, h.block⟩

/-- **Step lemma.** One maneuver frame moves state and history together. -/
theorem Tracks.frame {s : MergeState} {past : List TimedFrame} (h : Tracks s past) (now : Int)
    (disp : VbsNaviHudDisplay) : Tracks (mergeFrame s now disp).1 (past ++ [(now, disp)]) := by
  unfold mergeFrame
  by_cases hAap : isAapFrame disp = true
  · -- AAP stream: the speed is kept, ownership follows the maneuver
    rw [if_pos hAap]
    -- a blank AAP frame gives up the display, any other takes it
    by_cases hBlank : disp.nextManeuverInfo = 0
    · constructor <;> simp [lastOem_concat, lastAap_concat, hAap, hBlank, h.speed, h.sunit]
    · constructor <;> simp [lastOem_concat, lastAap_concat, hAap, hBlank, h.speed, h.sunit]
  · -- OEM stream: only the remembered speed moves
    rw [if_neg hAap]
    have hstep : Tracks { s with
        oemSpeed := disp.displaySpeedLimit, oemSunit := disp.displaySpeedUnit }
        (past ++ [(now, disp)]) := by
      constructor
      · simp [lastOem_concat, hAap]
      · simp [lastOem_concat, hAap]
      · simpa [lastAap_concat, hAap] using h.haveAap
      · simpa [lastAap_concat, hAap] using h.block
    dsimp only
    split
    · exact hstep.of_street _ _
    · exact hstep.of_street _ _

/-- **Run lemma.** Over any calls, with the gate open. -/
theorem tracks_runCalls {gate : Gate} (hen : gate.enabled = true) (hset : gate.realSet = true)
    (calls : List MergeCall) : Tracks (runCalls gate calls) (framesOf calls) := by
  induction calls using List.reverseRecOn with
  | nil => exact tracks_init
  | append_singleton calls c ih =>
    rw [runCalls_concat]
    cases c with
    | frame now disp =>
      have hframes : framesOf (calls ++ [.frame now disp]) = framesOf calls ++ [(now, disp)] := by
        simp [framesOf, MergeCall.frame?]
      rw [hframes, MergeCall.step, vbsNaviSetHUDDisplayMsgReq_open hen hset]
      exact ih.frame now disp
    -- a strip is no frame, and changes only the street and the tag
    | strip cur msg2 =>
      have hframes : framesOf (calls ++ [.strip cur msg2]) = framesOf calls := by
        simp [framesOf, MergeCall.frame?]
      obtain ⟨street, hstreet⟩ := strip_step_state gate (runCalls gate calls) cur msg2
      rw [hframes, hstreet]
      exact ih.of_street street _

/-! ## Maneuver frames -/

/-- What a forwarded frame `out` has to be, for the frame `disp` that arrives at
`now` after the frames `past`. -/
structure Merged (past : List TimedFrame) (now : Int) (disp out : VbsNaviHudDisplay) : Prop where
  speed    : out.displaySpeedLimit =
    (lastOem (past ++ [(now, disp)])).elim 0 (·.2.displaySpeedLimit)
  sunit    : out.displaySpeedUnit =
    (lastOem (past ++ [(now, disp)])).elim 0 (·.2.displaySpeedUnit)
  sentinel : out.displaySpeedLimit ≠ kAapSpeedSentinel
  spliced  : isAapFrame disp = false → ∀ f, owner past now = some f →
    out.nextManeuverInfo = f.2.nextManeuverInfo ∧ out.distanceValue = f.2.distanceValue ∧
      out.distanceUnit = f.2.distanceUnit
  native   : isAapFrame disp = false → owner past now = none → out = disp
  own      : isAapFrame disp = true →
    out.nextManeuverInfo = disp.nextManeuverInfo ∧ out.distanceValue = disp.distanceValue ∧
      out.distanceUnit = disp.distanceUnit
  textID3  : out.textID3 = disp.textID3

theorem owner_eq_some {past : List TimedFrame} {now : Int} {f : TimedFrame}
    (h : owner past now = some f) : lastAap past = some f ∧ f.2.nextManeuverInfo ≠ 0 := by
  rw [owner, Option.filter_eq_some_iff] at h
  obtain ⟨hlast, hforce⟩ := h
  refine ⟨hlast, ?_⟩
  rw [inForce, Bool.and_eq_true] at hforce
  simpa using hforce.1

theorem mergeFrame_merged {s : MergeState} {past : List TimedFrame} (h : Tracks s past) (now : Int)
    (disp : VbsNaviHudDisplay) : Merged past now disp (mergeFrame s now disp).2 := by
  unfold mergeFrame
  by_cases hAap : isAapFrame disp = true
  · -- an AAP frame: its own maneuver, and the speed remembered of the OEM
    rw [if_pos hAap]
    refine ⟨?_, ?_, ?_, ?_, ?_, fun _ => ⟨rfl, rfl, rfl⟩, rfl⟩
    · simp only [lastOem_concat, hAap, if_true]
      split <;> exact h.speed
    · simp only [lastOem_concat, hAap, if_true]
      split <;> exact h.sunit
    · show (_ : UInt16) ≠ _
      split <;> exact h.speed_ne
    · exact fun hOem => absurd hAap (by simp [hOem])
    · exact fun hOem => absurd hAap (by simp [hOem])
  · -- an OEM frame: its own speed, and the maneuver of whoever owns the display
    have hOem : isAapFrame disp = false := by simpa using hAap
    have hne : disp.displaySpeedLimit ≠ kAapSpeedSentinel :=
      fun heq => hAap ((isAapFrame_iff disp).mpr heq)
    have hactive : aapActive { s with
        oemSpeed := disp.displaySpeedLimit, oemSunit := disp.displaySpeedUnit } now =
          (owner past now).isSome := h.aapActive_eq now
    rw [if_neg hAap]
    simp only [hactive]
    cases hown : owner past now with
    | none =>
      refine ⟨?_, ?_, hne, ?_, fun _ _ => rfl, fun hA => absurd hA hAap, rfl⟩
      · simp [lastOem_concat, hOem]
      · simp [lastOem_concat, hOem]
      · intro _ f hf
        rw [hown] at hf
        exact absurd hf (by simp)
    | some f =>
      refine ⟨?_, ?_, hne, ?_, ?_, fun hA => absurd hA hAap, rfl⟩
      · simp [lastOem_concat, hOem]
      · simp [lastOem_concat, hOem]
      · intro _ g hg
        rw [hown, Option.some_inj] at hg
        subst hg
        obtain ⟨hlast, hman⟩ := owner_eq_some hown
        obtain ⟨hm, hd, hu, -⟩ := h.block f hlast hman
        exact ⟨hm, hd, hu⟩
      · intro _ hnone
        rw [hown] at hnone
        exact absurd hnone (by simp)

/-- **Every forwarded maneuver frame is the merge of the two streams**, after any
calls and at any clock reading. -/
theorem forwarded_frame_merged {gate : Gate} (hen : gate.enabled = true)
    (hset : gate.realSet = true) (calls : List MergeCall) (now : Int) (disp : VbsNaviHudDisplay) :
    ∃ out, (vbsNaviSetHUDDisplayMsgReq gate (runCalls gate calls) now (some disp)).2 =
        .real (some out) ∧ Merged (framesOf calls) now disp out := by
  rw [vbsNaviSetHUDDisplayMsgReq_open hen hset]
  exact ⟨_, rfl, mergeFrame_merged (tracks_runCalls hen hset calls) now disp⟩

/-- An AAP turn, then an OEM speed frame 300 s later: the speed is the OEM's, the
turn still AAP's. -/
theorem forwarded_frame_merged_at_timeout :
    ∃ out, (vbsNaviSetHUDDisplayMsgReq ⟨true, true, true, false⟩
        (runCalls ⟨true, true, true, false⟩ [.frame 0 ⟨3, 1200, 1, kAapSpeedSentinel, 0, 1⟩]) 300
        (some ⟨0, 0, 0, 50, 1, 2⟩)).2 = .real (some out) ∧
      Merged (framesOf [.frame 0 ⟨3, 1200, 1, kAapSpeedSentinel, 0, 1⟩]) 300 ⟨0, 0, 0, 50, 1, 2⟩
        out :=
  forwarded_frame_merged rfl rfl _ 300 _

/-! ## Street strips -/

/-- A generation: a maneuver frame and the strip svcjcinavi sends after it. -/
structure Generation where
  now  : Int
  disp : VbsNaviHudDisplay
  cur  : Bytes
  msg2 : VbsNaviHudMsg2

def Generation.timed (p : Generation) : TimedFrame := (p.now, p.disp)

def Generation.calls (p : Generation) : List MergeCall :=
  [.frame p.now p.disp, .strip p.cur p.msg2]

/-- The street an AAP generation brings: what the OEM received when that buffer
is resolved, else what the strip says, cut to 127 bytes; empty when null. -/
def capturedStreet (gate : Gate) (p : Generation) : Bytes :=
  ((if gate.curStreet then some p.cur else p.msg2.guidancePointName).map
    fun src => (cstr src).take 127).getD []

/-- The latest AAP generation. -/
def lastAapGeneration (past : List Generation) : Option Generation :=
  (past.filter fun p => isAapFrame p.disp).getLast?

/-- The street a strip shows, if its pointer is not null. -/
def VbsNaviHudMsg2.shown (m : VbsNaviHudMsg2) : Option Bytes := m.guidancePointName.map cstr

theorem captureStreet_str (street : CharBuf 128) (src : Option Bytes) :
    (captureStreet street src).str = (src.map fun b => (cstr b).take 127).getD [] := by
  cases src with
  | none => exact CharBuf.clearFirst_str street
  | some b => exact CharBuf.ofStrncpy_str (by decide) b

theorem lastAapGeneration_concat (past : List Generation) (p : Generation) :
    lastAapGeneration (past ++ [p]) =
      if isAapFrame p.disp then some p else lastAapGeneration past := by
  rw [lastAapGeneration, lastAapGeneration, List.filter_append]
  cases hp : isAapFrame p.disp <;> simp [hp]

theorem lastAap_timed (past : List Generation) :
    lastAap (past.map Generation.timed) = (lastAapGeneration past).map Generation.timed := by
  rw [lastAap, lastAapGeneration, List.filter_map, List.getLast?_map]
  rfl

theorem owner_timed (past : List Generation) (now : Int) :
    owner (past.map Generation.timed) now =
      ((lastAapGeneration past).filter fun a => inForce now a.timed).map Generation.timed := by
  rw [owner, lastAap_timed]
  cases lastAapGeneration past with
  | none => rfl
  | some a => cases h : inForce now a.timed <;> simp [Option.filter, h]

/-- What a forwarded strip `out` has to be, for the generation `p` after the
generations `past`; `frame` is the frame that was forwarded before it. -/
structure MergedStrip (gate : Gate) (past : List Generation) (p : Generation)
    (frame : VbsNaviHudDisplay) (out : VbsNaviHudMsg2) : Prop where
  captured : isAapFrame p.disp = true → p.disp.nextManeuverInfo ≠ 0 →
    out.shown = some (capturedStreet gate p)
  replaced : isAapFrame p.disp = false → ∀ a, lastAapGeneration past = some a →
    inForce p.now a.timed = true → out.shown = some (capturedStreet gate a)
  blanked  : isAapFrame p.disp = true → p.disp.nextManeuverInfo = 0 → out = p.msg2
  native   : isAapFrame p.disp = false → owner (past.map Generation.timed) p.now = none →
    out = p.msg2
  syncBit  : out.syncBit = p.msg2.syncBit
  paired   : p.msg2.syncBit = p.disp.textID3 → out.syncBit = frame.textID3

/-- The buffer holds the street of the AAP generation that may own the display. -/
structure TracksStreet (gate : Gate) (s : MergeState) (past : List Generation) : Prop where
  tracks : Tracks s (past.map Generation.timed)
  street : ∀ a, lastAapGeneration past = some a → a.disp.nextManeuverInfo ≠ 0 →
    s.aapStreet.str = capturedStreet gate a

/-- The tag the maneuver hook leaves for the strip. -/
theorem mergeFrame_streetAction {s : MergeState} {past : List TimedFrame} (h : Tracks s past)
    (now : Int) (disp : VbsNaviHudDisplay) :
    (mergeFrame s now disp).1.streetAction =
      if isAapFrame disp then
        if disp.nextManeuverInfo = 0 then .passthrough else .capture
      else if (owner past now).isSome then .replace else .passthrough := by
  unfold mergeFrame
  by_cases hAap : isAapFrame disp = true
  · by_cases hBlank : disp.nextManeuverInfo = 0 <;> simp [hAap, hBlank]
  · have hactive : aapActive { s with
        oemSpeed := disp.displaySpeedLimit, oemSunit := disp.displaySpeedUnit } now =
          (owner past now).isSome := h.aapActive_eq now
    rw [if_neg hAap, if_neg hAap]
    simp only [hactive]
    split <;> rfl

/-- The strip hook after the maneuver hook of the same generation. -/
theorem mergeStrip_merged {gate : Gate} {s : MergeState} {past : List Generation}
    (h : TracksStreet gate s past) (p : Generation) :
    MergedStrip gate past p (mergeFrame s p.now p.disp).2
      (mergeStrip gate (mergeFrame s p.now p.disp).1 p.cur p.msg2).2 := by
  have htag := mergeFrame_streetAction h.tracks p.now p.disp
  have hbuf := mergeFrame_aapStreet s p.now p.disp
  have htext := (mergeFrame_merged h.tracks p.now p.disp).textID3
  -- the sync bit is never touched, whatever the tag
  have hsync : ∀ t : MergeState, (mergeStrip gate t p.cur p.msg2).2.syncBit = p.msg2.syncBit := by
    intro t
    unfold mergeStrip
    split <;> rfl
  refine ⟨?_, ?_, ?_, ?_, hsync _, fun hpair => by rw [hsync, hpair, htext]⟩
  · -- tagged for capture: the strip shows the copy just made
    intro hAap hman
    rw [if_pos hAap, if_neg hman] at htag
    unfold mergeStrip
    rw [htag]
    show some (captureStreet _ _).str = _
    rw [captureStreet_str]
    rfl
  · intro hOem a hlast hforce
    have hown : (owner (past.map Generation.timed) p.now).isSome = true := by
      simp [owner_timed, hlast, Option.filter, hforce]
    rw [if_neg (by simp [hOem]), if_pos hown] at htag
    -- an AAP generation in force is not blank, so its street is in the buffer
    have hman : a.disp.nextManeuverInfo ≠ 0 := by
      rw [inForce, Bool.and_eq_true] at hforce
      simpa [Generation.timed] using hforce.1
    unfold mergeStrip
    rw [htag]
    show some ((mergeFrame s p.now p.disp).1.aapStreet.str) = _
    rw [hbuf, h.street a hlast hman]
  · intro hAap hBlank
    rw [if_pos hAap, if_pos hBlank] at htag
    unfold mergeStrip
    rw [htag]
  · intro hOem hnone
    rw [if_neg (by simp [hOem]), hnone, if_neg (by simp)] at htag
    unfold mergeStrip
    rw [htag]

/-- **Step lemma.** A generation moves the captured street with the history. -/
theorem TracksStreet.generation {gate : Gate} {s : MergeState} {past : List Generation}
    (h : TracksStreet gate s past) (p : Generation) :
    TracksStreet gate (mergeStrip gate (mergeFrame s p.now p.disp).1 p.cur p.msg2).1
      (past ++ [p]) := by
  have hframe := h.tracks.frame p.now p.disp
  have hbuf := mergeFrame_aapStreet s p.now p.disp
  have htag := mergeFrame_streetAction h.tracks p.now p.disp
  constructor
  · rw [mergeStrip_state, List.map_append]
    exact hframe.of_street _ _
  · intro a ha hman
    rw [lastAapGeneration_concat] at ha
    by_cases hAap : isAapFrame p.disp = true
    · -- the street of this very generation was captured
      rw [if_pos hAap, Option.some_inj] at ha
      subst ha
      rw [if_pos hAap, if_neg hman] at htag
      unfold mergeStrip
      rw [htag]
      exact captureStreet_str _ _
    · -- an OEM generation leaves the buffer as it was
      rw [if_neg hAap] at ha
      rw [if_neg hAap] at htag
      unfold mergeStrip
      rw [htag]
      -- an OEM generation is never tagged for capture
      split
      · rename_i hcap
        split at hcap <;> simp at hcap
      · rw [hbuf]
        exact h.street a ha hman
      · rw [hbuf]
        exact h.street a ha hman

/-- **Run lemma.** Over any generations, with the gate open. -/
theorem tracksStreet_runCalls {gate : Gate} (hen : gate.enabled = true)
    (hset : gate.realSet = true) (hmsg2 : gate.realMsg2 = true) (past : List Generation) :
    TracksStreet gate (runCalls gate (past.flatMap Generation.calls)) past := by
  induction past using List.reverseRecOn with
  | nil => exact ⟨tracks_init, fun a ha => by simp [lastAapGeneration] at ha⟩
  | append_singleton past p ih =>
    have hcalls : (past ++ [p]).flatMap Generation.calls =
        past.flatMap Generation.calls ++ [.frame p.now p.disp] ++ [.strip p.cur p.msg2] := by
      simp [Generation.calls]
    rw [hcalls, runCalls_concat, runCalls_concat, MergeCall.step, MergeCall.step,
      vbsNaviSetHUDDisplayMsgReq_open hen hset, vbsNaviTmcSetHUDDisplayMsg2_open hen hmsg2]
    exact ih.generation p

/-- **Every forwarded strip belongs to the maneuver forwarded before it.** -/
theorem forwarded_strip_merged {gate : Gate} (hen : gate.enabled = true)
    (hset : gate.realSet = true) (hmsg2 : gate.realMsg2 = true) (past : List Generation)
    (p : Generation) :
    let s := runCalls gate (past.flatMap Generation.calls)
    let r := vbsNaviSetHUDDisplayMsgReq gate s p.now (some p.disp)
    ∃ frame out, r.2 = .real (some frame) ∧
      (vbsNaviTmcSetHUDDisplayMsg2 gate r.1 p.cur (some p.msg2)).2 = .real (some out) ∧
        MergedStrip gate past p frame out := by
  intro s r
  have htracks := tracksStreet_runCalls hen hset hmsg2 past
  refine ⟨(mergeFrame s p.now p.disp).2,
    (mergeStrip gate (mergeFrame s p.now p.disp).1 p.cur p.msg2).2, ?_, ?_,
    mergeStrip_merged htracks p⟩
  · simp only [r, vbsNaviSetHUDDisplayMsgReq_open hen hset]
  · simp only [r, vbsNaviSetHUDDisplayMsgReq_open hen hset,
      vbsNaviTmcSetHUDDisplayMsg2_open hen hmsg2]

/-- A blanked strip: the AAP generation brought the street, the OEM generation
after it shows the same one. -/
theorem forwarded_strip_merged_blank_market :
    let gate : Gate := ⟨true, true, true, true⟩
    let aap : Generation := ⟨0, ⟨3, 1200, 1, kAapSpeedSentinel, 0, 1⟩, [82, 49], ⟨some [32], 1⟩⟩
    let oem : Generation := ⟨9, ⟨0, 0, 0, 50, 1, 2⟩, [32], ⟨some [32], 2⟩⟩
    let s := runCalls gate ([aap].flatMap Generation.calls)
    let r := vbsNaviSetHUDDisplayMsgReq gate s oem.now (some oem.disp)
    ∃ frame out, r.2 = .real (some frame) ∧
      (vbsNaviTmcSetHUDDisplayMsg2 gate r.1 oem.cur (some oem.msg2)).2 = .real (some out) ∧
        MergedStrip gate [aap] oem frame out :=
  forwarded_strip_merged rfl rfl rfl _ _

end OemAaMod
