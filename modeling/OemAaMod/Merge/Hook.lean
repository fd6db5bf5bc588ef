import OemAaMod.Common.VbsNaviHud

/-!
# The svcjcinavi merge hook

`merge.cpp` interposes the two OEM HUD setters svcjcinavi calls on its sender
thread. The maneuver setter decides, by the reserved speed value, which of two
streams a frame belongs to and rewrites it; it leaves a tag behind that tells
the street-strip setter what to do with the strip that follows.

* `vbsNaviSetHUDDisplayMsgReq`, `vbsNaviTmcSetHUDDisplayMsg2` — the two hooks,
  each from a merge state to a merge state and what reaches the real setter;
* `MergeCall`, `runCalls` — svcjcinavi's calls, one after the other.

`ensure_gate` runs once, before the first call is classified; what it found out
is the parameter `Gate`.
-/

namespace OemAaMod

open CStr (Bytes CharBuf cstr)

def kAapTimeoutSec : Int := 5 * 60

/-- What `ensure_gate` resolved. -/
structure Gate where
  enabled        : Bool
  realSet        : Bool
  realMsg2       : Bool
  /-- `g_cur_street` points at the OEM's `current_StreetName`. -/
  curStreet      : Bool

inductive StreetAction
  | passthrough
  | capture
  | replace
deriving DecidableEq, Repr

/-- The merge state, with its initial values. -/
structure MergeState where
  haveAap      : Bool := false
  aapMan       : UInt32 := 0
  aapDist      : UInt16 := 0
  aapDunit     : UInt8 := 0
  aapLast      : Int := 0
  streetAction : StreetAction := .passthrough
  aapStreet    : CharBuf 128 := .zero 128
  oemSpeed     : UInt16 := 0
  oemSunit     : UInt8 := 0
deriving DecidableEq

/-- What a hook does with its argument: the real setter is called with it (the
pointer may be null), or there is no real setter and the call is dropped. -/
inductive Forward (α : Type)
  | real (arg : Option α)
  | dropped
deriving DecidableEq

/-- `aap_active()` at clock reading `now`. -/
def aapActive (s : MergeState) (now : Int) : Bool :=
  s.haveAap && decide (now - s.aapLast ≤ kAapTimeoutSec)

def isAapFrame (disp : VbsNaviHudDisplay) : Bool := disp.displaySpeedLimit == kAapSpeedSentinel

/-- The rewriting part of the maneuver hook, past the passthrough guard. -/
def mergeFrame (s : MergeState) (now : Int) (disp : VbsNaviHudDisplay) :
    MergeState × VbsNaviHudDisplay :=
  if isAapFrame disp then
    let s :=
      if disp.nextManeuverInfo = 0 then
        -- the blanking frame: AAP guidance has stopped
        { s with haveAap := false, streetAction := .passthrough }
      else
        { s with
          aapMan := disp.nextManeuverInfo
          aapDist := disp.distanceValue
          aapDunit := disp.distanceUnit
          haveAap := true
          aapLast := now
          streetAction := .capture }
    (s, { disp with displaySpeedLimit := s.oemSpeed, displaySpeedUnit := s.oemSunit })
  else
    let s := { s with oemSpeed := disp.displaySpeedLimit, oemSunit := disp.displaySpeedUnit }
    if aapActive s now then
      ({ s with streetAction := .replace },
        { disp with
          nextManeuverInfo := s.aapMan
          distanceValue := s.aapDist
          distanceUnit := s.aapDunit })
    else ({ s with streetAction := .passthrough }, disp)

/-- `VBS_NAVI_SetHUDDisplayMsgReq`; `now` is what `time()` says during the call. -/
def vbsNaviSetHUDDisplayMsgReq (gate : Gate) (s : MergeState) (now : Int)
    (disp : Option VbsNaviHudDisplay) : MergeState × Forward VbsNaviHudDisplay :=
  match gate.enabled && gate.realSet, disp with
  | true, some disp =>
    let r := mergeFrame s now disp
    (r.1, .real (some r.2))
  | _, disp =>
    ({ s with streetAction := .passthrough }, if gate.realSet then .real disp else .dropped)

/-- Capturing the AAP street: `src` is what the source pointer shows. -/
def captureStreet (street : CharBuf 128) (src : Option Bytes) : CharBuf 128 :=
  match src with
  | some src => .ofStrncpy 128 src
  | none => street.clearFirst

/-- The rewriting part of the strip hook. `cur` is the content of the OEM's
street buffer during the call. -/
def mergeStrip (gate : Gate) (s : MergeState) (cur : Bytes) (msg2 : VbsNaviHudMsg2) :
    MergeState × VbsNaviHudMsg2 :=
  match s.streetAction with
  | .capture =>
    let src := if gate.curStreet then some cur else msg2.guidancePointName
    let street := captureStreet s.aapStreet src
    ({ s with aapStreet := street }, { msg2 with guidancePointName := some street.bytes })
  | .replace => (s, { msg2 with guidancePointName := some s.aapStreet.bytes })
  | .passthrough => (s, msg2)

/-- `VBS_NAVI_TMC_SetHUD_Display_Msg2`. -/
def vbsNaviTmcSetHUDDisplayMsg2 (gate : Gate) (s : MergeState) (cur : Bytes)
    (msg2 : Option VbsNaviHudMsg2) : MergeState × Forward VbsNaviHudMsg2 :=
  match gate.enabled && gate.realMsg2, msg2 with
  | true, some msg2 =>
    let r := mergeStrip gate s cur msg2
    (r.1, .real (some r.2))
  | _, msg2 => (s, if gate.realMsg2 then .real msg2 else .dropped)

/-! ## Runs -/

/-- One call of svcjcinavi's sender thread. -/
inductive MergeCall
  | frame (now : Int) (disp : VbsNaviHudDisplay)
  | strip (cur : Bytes) (msg2 : VbsNaviHudMsg2)

def MergeCall.step (gate : Gate) (s : MergeState) : MergeCall → MergeState
  | frame now disp => (vbsNaviSetHUDDisplayMsgReq gate s now (some disp)).1
  | strip cur msg2 => (vbsNaviTmcSetHUDDisplayMsg2 gate s cur (some msg2)).1

/-- The merge state after a sequence of calls. -/
def runCalls (gate : Gate) (calls : List MergeCall) : MergeState :=
  calls.foldl (MergeCall.step gate) {}

theorem runCalls_concat (gate : Gate) (calls : List MergeCall) (c : MergeCall) :
    runCalls gate (calls ++ [c]) = c.step gate (runCalls gate calls) := by
  rw [runCalls, List.foldl_append]
  rfl

/-! ## What each hook changes -/

theorem isAapFrame_iff (disp : VbsNaviHudDisplay) :
    isAapFrame disp = true ↔ disp.displaySpeedLimit = kAapSpeedSentinel := by
  simp [isAapFrame]

/-- With the gate open the maneuver hook is its rewriting part. -/
theorem vbsNaviSetHUDDisplayMsgReq_open {gate : Gate} (hen : gate.enabled = true)
    (hset : gate.realSet = true) (s : MergeState) (now : Int) (disp : VbsNaviHudDisplay) :
    vbsNaviSetHUDDisplayMsgReq gate s now (some disp) =
      ((mergeFrame s now disp).1, .real (some (mergeFrame s now disp).2)) := by
  simp [vbsNaviSetHUDDisplayMsgReq, hen, hset]

theorem vbsNaviTmcSetHUDDisplayMsg2_open {gate : Gate} (hen : gate.enabled = true)
    (hset : gate.realMsg2 = true) (s : MergeState) (cur : Bytes) (msg2 : VbsNaviHudMsg2) :
    vbsNaviTmcSetHUDDisplayMsg2 gate s cur (some msg2) =
      ((mergeStrip gate s cur msg2).1, .real (some (mergeStrip gate s cur msg2).2)) := by
  simp [vbsNaviTmcSetHUDDisplayMsg2, hen, hset]

/-- A maneuver frame leaves the captured street alone. -/
theorem mergeFrame_aapStreet (s : MergeState) (now : Int) (disp : VbsNaviHudDisplay) :
    (mergeFrame s now disp).1.aapStreet = s.aapStreet := by
  unfold mergeFrame
  by_cases hAap : isAapFrame disp = true
  · by_cases hBlank : disp.nextManeuverInfo = 0 <;> simp [hAap, hBlank]
  · simp only [if_neg hAap]
    split <;> rfl

/-- A strip changes nothing but the captured street. -/
theorem mergeStrip_state (gate : Gate) (s : MergeState) (cur : Bytes) (msg2 : VbsNaviHudMsg2) :
    (mergeStrip gate s cur msg2).1 =
      { s with aapStreet := (mergeStrip gate s cur msg2).1.aapStreet } := by
  unfold mergeStrip
  split <;> rfl

theorem strip_step_state (gate : Gate) (s : MergeState) (cur : Bytes) (msg2 : VbsNaviHudMsg2) :
    ∃ street, (MergeCall.strip cur msg2).step gate s = { s with aapStreet := street } := by
  show ∃ street, (vbsNaviTmcSetHUDDisplayMsg2 gate s cur (some msg2)).1 = _
  unfold vbsNaviTmcSetHUDDisplayMsg2
  split
  · exact ⟨_, mergeStrip_state gate s cur _⟩
  · exact ⟨s.aapStreet, rfl⟩

end OemAaMod
