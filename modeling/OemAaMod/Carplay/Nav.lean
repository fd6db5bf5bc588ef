import OemAaMod.Lib.CStr
import Mathlib.Data.List.Basic

/-!
# The CarPlay navigation messages

`nav.cpp` of blmjcicarplay reads two messages of the device manager: 0x8059, one
maneuver of a list that is streamed as a burst of indices, and 0x8058, guidance with
the index of the next maneuver and its distance.

* `readU32`, `readU16`, `readS16`, `readStr` — fields of a message of any length;
* `classify` — the maneuver type as an event and a side of the HUD's table;
* `Window` — `g_buf`, the displayable maneuvers of the burst, at most 48;
* `NavState.onDevmgrMsg` — one message; the calls are those of `hud_send`.
-/

namespace OemAaMod.Carplay

open CStr (Bytes CharBuf cstr)

/-! ## The fields of a message -/

def kMtManeuver : UInt32 := 0x8059
def kMtGuidance : UInt32 := 0x8058
def kBurstIdxOff : Nat := 0x20
def kManeuverTextOff : Nat := 0x24
def kManeuverTextMax : Nat := 256
def kManeuverTypeOff : Nat := 0x128
def kRoadNameOff : Nat := 0x12c
def kDriveSideOff : Nat := 0x33c
def kJunctionTypeOff : Nat := 0x340
def kJunctionAngleOff : Nat := 0x346
def kGuidanceDistOff : Nat := 0x34c
def kManListOff : Nat := 0x458
def kManListCntOff : Nat := 0x656

/-- The little-endian number in the `n` bytes from `off` on. -/
def leAt (b : Bytes) (off n : Nat) : Nat :=
  ((b.drop off).take n).foldr (fun x acc => x.toNat + 256 * acc) 0

def readU32 (b : Bytes) (off : Nat) : UInt32 :=
  if off + 4 > b.length then 0 else UInt32.ofNat (leAt b off 4)

def readS16 (b : Bytes) (off : Nat) : Int32 :=
  if off + 2 > b.length then 0 else (UInt16.ofNat (leAt b off 2)).toInt16.toInt32

def readU16 (b : Bytes) (off : Nat) : UInt32 :=
  if off + 2 > b.length then 0 else UInt32.ofNat (leAt b off 2)

/-- `read_str`: up to a NUL, the end of the message or the room in `outsz`. -/
def readStr (b : Bytes) (off outsz : Nat) : Bytes := cstr ((b.drop off).take (outsz - 1))

/-! ## Maneuvers -/

def EV_SLIGHT : UInt32 := 3
def EV_TURN : UInt32 := 4
def EV_SHARP : UInt32 := 5
def EV_UTURN : UInt32 := 6
def EV_ON_RAMP : UInt32 := 7
def EV_OFF_RAMP : UInt32 := 8
def EV_FORK : UInt32 := 9
def EV_ROUNDABOUT : UInt32 := 13
def EV_STRAIGHT : UInt32 := 14
def EV_FERRY : UInt32 := 16
def EV_DEST : UInt32 := 19
def SIDE_LEFT : UInt32 := 1
def SIDE_RIGHT : UInt32 := 2
def SIDE_NONE : UInt32 := 3

/-- `is_context_type`: the types that describe the current segment. -/
def isContextType (m : UInt32) : Bool := m == 0 || m == 5 || m == 11 || m == 18

/-- `Maneuver` -/
structure Maneuver where
  event  : UInt32
  side   : UInt32
  angle  : Int32 := 0
  number : Int32 := 0
deriving DecidableEq

def classify (mtype junctionType : UInt32) (junctionAngle : Int32) (driveSide : UInt32) :
    Maneuver :=
  let ra := junctionType = 1 ∨ mtype = 6 ∨ mtype = 7 ∨ mtype = 19 ∨ (28 ≤ mtype ∧ mtype ≤ 46)
  if ra then
    let a := junctionAngle % 360
    { event := EV_ROUNDABOUT
      side := if driveSide = 1 then SIDE_LEFT else SIDE_RIGHT
      angle := if a < 0 then a + 360 else a
      number := if 28 ≤ mtype ∧ mtype ≤ 46 then mtype.toInt32 - 27 else 0 }
  else
    match mtype.toNat with
    | 1 => ⟨EV_TURN, SIDE_LEFT, 0, 0⟩
    | 2 => ⟨EV_TURN, SIDE_RIGHT, 0, 0⟩
    | 20 => ⟨EV_TURN, SIDE_LEFT, 0, 0⟩
    | 21 => ⟨EV_TURN, SIDE_RIGHT, 0, 0⟩
    | 47 => ⟨EV_SHARP, SIDE_LEFT, 0, 0⟩
    | 48 => ⟨EV_SHARP, SIDE_RIGHT, 0, 0⟩
    | 49 => ⟨EV_SLIGHT, SIDE_LEFT, 0, 0⟩
    | 50 => ⟨EV_SLIGHT, SIDE_RIGHT, 0, 0⟩
    | 13 => ⟨EV_FORK, SIDE_LEFT, 0, 0⟩
    | 14 => ⟨EV_FORK, SIDE_RIGHT, 0, 0⟩
    | 51 => ⟨EV_FORK, SIDE_NONE, 0, 0⟩
    | 52 => ⟨EV_FORK, SIDE_LEFT, 0, 0⟩
    | 53 => ⟨EV_FORK, SIDE_RIGHT, 0, 0⟩
    | 4 | 26 => ⟨EV_UTURN, if driveSide = 1 then SIDE_RIGHT else SIDE_LEFT, 0, 0⟩
    | 8 => ⟨EV_OFF_RAMP, SIDE_NONE, 0, 0⟩
    | 22 => ⟨EV_OFF_RAMP, SIDE_LEFT, 0, 0⟩
    | 23 => ⟨EV_OFF_RAMP, SIDE_RIGHT, 0, 0⟩
    | 9 => ⟨EV_ON_RAMP, SIDE_NONE, 0, 0⟩
    | 15 | 16 | 17 => ⟨EV_FERRY, SIDE_NONE, 0, 0⟩
    | 10 | 12 | 27 => ⟨EV_DEST, SIDE_NONE, 0, 0⟩
    | 24 => ⟨EV_DEST, SIDE_LEFT, 0, 0⟩
    | 25 => ⟨EV_DEST, SIDE_RIGHT, 0, 0⟩
    | _ => ⟨EV_STRAIGHT, SIDE_NONE, 0, 0⟩

/-- `BufManeuver`. Its `mtype` and `validInfo` go to the log only. -/
structure BufManeuver where
  idx  : UInt32
  mv   : Maneuver
  road : CharBuf 256
  desc : CharBuf 256
deriving DecidableEq

def kMaxBurst : Nat := 48

/-- `g_buf` and `g_buf_count`. -/
structure Window where
  entries : List BufManeuver := []
  fits    : entries.length ≤ kMaxBurst := by decide

/-- `g_buf[g_buf_count++] = e` -/
def Window.push (w : Window) (e : BufManeuver) (h : w.entries.length < kMaxBurst) : Window :=
  ⟨w.entries ++ [e], by rw [List.length_append]; exact h⟩

/-- `select_by_head`, with the entry for its place in the window. -/
def Window.selectByHead (w : Window) (head : UInt32) : Option BufManeuver :=
  (w.entries.find? (·.idx == head)).or (w.entries.find? (·.idx == head + 1))

/-! ## The state -/

/-- What is displayed: `g_disp_*`, or `g_emit_*`. -/
structure Display where
  event  : UInt32
  side   : UInt32
  angle  : Int32
  number : Int32
  road   : CharBuf 256 := .zero 256
deriving DecidableEq

/-- Nothing has been emitted: a value no maneuver has. -/
def noDisplay : Display where
  event := 0xffffffff
  side := 0xffffffff
  angle := 0x7fffffff
  number := 0x7fffffff

/-- Equal as `emit_selection` compares, the roads as C strings. -/
def Display.Same (d d' : Display) : Prop :=
  d.event = d'.event ∧ d.side = d'.side ∧ d.angle = d'.angle ∧ d.number = d'.number ∧
    d.road.str = d'.road.str

instance (d d' : Display) : Decidable (d.Same d') :=
  inferInstanceAs (Decidable (_ ∧ _ ∧ _ ∧ _ ∧ _))

/-- The globals of `nav.cpp`. -/
structure NavState where
  disp          : Display := { event := EV_STRAIGHT, side := SIDE_NONE, angle := 0, number := 0 }
  emitted       : Display := noDisplay
  buf           : Window := {}
  prevIdx       : UInt32 := 0xffffffff
  lastHead      : UInt32 := 0
  lastHeadValid : Bool := false
  resetReq      : Bool := false

/-- A call into `hud_send.cpp`. -/
inductive HudCall
  | status (status : UInt32)
  | nextTurn (road : Bytes) (side event : UInt32) (angle number : Int32)
  | distance (meters timeUntil dispDist : Int32) (dispUnit : UInt32)
deriving DecidableEq

/-- `nav_request_reset`, from the sender thread. -/
def NavState.requestReset (s : NavState) : NavState := { s with resetReq := true }

/-- The reset at the start of a message, if one was requested. -/
def NavState.takeReset (s : NavState) : NavState :=
  if s.resetReq then
    { s with
      resetReq := false
      buf := {}
      lastHeadValid := false
      lastHead := 0
      prevIdx := 0xffffffff
      emitted := { noDisplay with road := s.emitted.road.clearFirst } }
  else s

/-- What `emit_selection` latches: a maneuver without a road shows its text. -/
def BufManeuver.display (im : BufManeuver) : Display where
  event := im.mv.event
  side := im.mv.side
  angle := im.mv.angle
  number := im.mv.number
  road := .ofStrncpy 256 (if im.road.str ≠ [] then im.road else im.desc).bytes

/-- `emit_selection` of a maneuver in the window. -/
def NavState.emitSelection (s : NavState) (im : BufManeuver) : NavState × List HudCall :=
  let disp := im.display
  if ¬disp.Same s.emitted then
    ({ s with disp, emitted := { disp with road := .ofStrncpy 256 disp.road.bytes } },
      [.status 1, .nextTurn (if disp.road.str ≠ [] then disp.road.str else [0x20])
        disp.side disp.event disp.angle disp.number])
  else ({ s with disp }, [])

/-- The index of a maneuver in its burst. -/
def burstIdx (b : Bytes) : UInt32 :=
  if b.length ≥ kBurstIdxOff + 4 then UInt32.ofNat (leAt b kBurstIdxOff 4) >>> 16 else 0

/-- A maneuver as it is buffered. -/
def bufManeuver (b : Bytes) : BufManeuver where
  idx := burstIdx b
  mv := classify (readU32 b kManeuverTypeOff) (readU32 b kJunctionTypeOff)
    (readS16 b kJunctionAngleOff) (readU32 b kDriveSideOff)
  road := .ofStrncpy 256 (readStr b kRoadNameOff 256)
  desc := .ofStrncpy 256 (readStr b kManeuverTextOff (kManeuverTextMax + 1))

/-- Select by `head` and emit; without a match nothing changes. -/
def NavState.emitHead (s : NavState) (head : UInt32) : NavState × List HudCall :=
  match s.buf.selectByHead head with
  | some im => s.emitSelection im
  | none => (s, [])

/-- The maneuver branch of `nav_on_devmgr_msg`. -/
def NavState.onManeuver (s : NavState) (b : Bytes) : NavState × List HudCall :=
  let idx := burstIdx b
  let burstStart := idx = 0 ∨ idx < s.prevIdx
  let s : NavState := { s with prevIdx := idx, buf := if burstStart then {} else s.buf }
  if idx = 0 ∨ isContextType (readU32 b kManeuverTypeOff) = true then (s, [])
  -- beyond the room of `g_buf` the maneuver is dropped
  else if h : s.buf.entries.length < kMaxBurst then
    let s : NavState := { s with buf := s.buf.push (bufManeuver b) h }
    if s.lastHeadValid then s.emitHead s.lastHead else (s, [])
  else (s, [])

/-- The distance of a guidance message, if it is one to show: metres below 1 km. -/
def guidanceDistance (b : Bytes) : List HudCall :=
  if b.length ≥ kGuidanceDistOff + 4 then
    let dist := (UInt32.ofNat (leAt b kGuidanceDistOff 4)).toInt32
    if 0 < dist ∧ dist ≤ 100000 then
      if dist < 1000 then [.distance dist 0 (dist * 1000) 1] else [.distance dist 0 dist 3]
    else []
  else []

/-- The guidance branch of `nav_on_devmgr_msg`. -/
def NavState.onGuidance (s : NavState) (b : Bytes) : NavState × List HudCall :=
  let selected :=
    if readU16 b kManListCntOff > 0 then
      let head := readU16 b kManListOff
      match s.buf.selectByHead head with
      -- the head is kept only with a match, for the maneuvers still to come
      | some im => { s with lastHead := head, lastHeadValid := true }.emitSelection im
      | none => (s, [])
    else (s, [])
  (selected.1, selected.2 ++ guidanceDistance b)

def msgType (b : Bytes) : UInt32 := UInt32.ofNat (leAt b 0 4) &&& 0xffff

/-- `nav_on_devmgr_msg` -/
def NavState.onDevmgrMsg (s : NavState) (b : Bytes) : NavState × List HudCall :=
  -- too short for either message, and before a pending reset is taken
  if b.length < kManeuverTextOff + 4 then (s, [])
  else
    let s := s.takeReset
    if msgType b = kMtManeuver then s.onManeuver b
    else if msgType b = kMtGuidance then s.onGuidance b
    else (s, [])

end OemAaMod.Carplay
