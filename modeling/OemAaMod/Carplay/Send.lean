import OemAaMod.Common.Translit
import OemAaMod.Common.VbsNaviHud
import OemAaMod.Hud.Glyph

/-!
# The CarPlay HUD frames

`hud_send.cpp` of blmjcicarplay: what a snapshot looks like on the wire, and which
changes of it are sent.

* `NaviSnapshot` and the three writes of the receive thread;
* `turnIcon`, `streetStrip` — the glyph and the street of a snapshot;
* `sendOne` — the maneuver frame and the strip, which go out as a pair or not at
  all;
* `readSplim`, `readOver` — the speed limit and the over-speed flag, from files.

`sendOne_none`: what is not sent would show what is there already.
-/

namespace OemAaMod.Carplay

open CStr (Bytes CharBuf cstr)

/-- The `carplay_*` keys the sender reads. -/
structure Config where
  speedLimit  : Bool
  vnNormalize : Bool
  hudDebug    : Bool

/-! ## The snapshot -/

/-- `NaviSnapshot`, zero-initialised. -/
structure NaviSnapshot where
  roadName     : CharBuf 256 := .zero 256
  turnSide     : UInt32 := 0
  turnEvent    : UInt32 := 0
  turnAngle    : Int32 := 0
  turnNumber   : Int32 := 0
  distanceDec  : Int32 := 0
  distanceUnit : UInt8 := 0
  timeUntil    : Int32 := 0
deriving DecidableEq

/-- The loop that backs `n` up to the start of a character. -/
def charStart (road : Bytes) : Nat → Nat
  | 0 => 0
  | n + 1 => if road.getD (n + 1) 0 &&& 0xC0 = 0x80 then charStart road n else n + 1

/-- How much of a road name `hud_on_next_turn` copies. -/
def roadLength (road : Bytes) : Nat :=
  let n := (cstr road).length
  if n > 255 then charStart road 255 else n

/-- The write of `hud_on_next_turn`; the bytes after the terminator stay. -/
def NaviSnapshot.nextTurn (s : NaviSnapshot) (road : Option Bytes) (side event : UInt32)
    (angle number : Int32) : NaviSnapshot :=
  { s with
    roadName := match road with
      | some road => s.roadName.blit (road.take (roadLength road))
      | none => s.roadName.clearFirst
    turnSide := side
    turnEvent := event
    turnAngle := angle
    turnNumber := number }

/-- The write of `hud_on_distance`. -/
def NaviSnapshot.distance (s : NaviSnapshot) (timeUntil dispDist : Int32) (dispUnit : UInt32) :
    NaviSnapshot :=
  { s with
    distanceDec := dispDist / 100
    distanceUnit := mapDistanceUnit dispUnit
    timeUntil := timeUntil }

/-! ## What a snapshot looks like -/

/-- `roundabout_icon`: the exit bearing reflected and turned by 180 degrees. -/
def roundaboutIcon (degrees : Int32) (leftHand : Bool) : UInt8 :=
  let d := (180 - degrees) % 360
  let d := if d < 0 then d + 360 else d
  let nearest := UInt8.ofNat (((d + 15) / 30) % 12).toInt.toNat
  nearest + if leftHand then 49 else 37

/-- The icon of `send_one`; the table is that of the 1.5 encoder. -/
def NaviSnapshot.turnIcon (s : NaviSnapshot) : UInt32 :=
  if s.turnEvent = 13 then (roundaboutIcon s.turnAngle (s.turnSide == 1)).toUInt32
  else if s.turnEvent < 20 then
    let sideIdx := if 1 ≤ s.turnSide ∧ s.turnSide ≤ 3 then (s.turnSide - 1).toNat else 2
    ((kTurnIcons.getD s.turnEvent.toNat []).getD sideIdx 0).toUInt32
  else 0

/-- The street of the strip: never empty, which the cluster would fill with garbage. -/
def NaviSnapshot.streetStrip (cfg : Config) (s : NaviSnapshot) : Bytes :=
  let road :=
    if cfg.vnNormalize then
      (HudTranslit.foldBuf 0x3F (.ofStrncpy 256 s.roadName.bytes) : CharBuf 256).str
    else s.roadName.str
  if road = [] then [0x20] else road

/-- `EV=%u S=%u A=%d`, cut to the label's 33 bytes. -/
def NaviSnapshot.debugLabel (s : NaviSnapshot) : Bytes :=
  ("EV=" ++ toString s.turnEvent.toNat ++ " S=" ++ toString s.turnSide.toNat ++ " A=" ++
    toString s.turnAngle.toInt).toUTF8.toList.take 32

/-- The distance saturates at both ends. -/
def NaviSnapshot.distanceValue (s : NaviSnapshot) : UInt16 :=
  let draw := if s.distanceDec < 0 then 0 else s.distanceDec
  let draw := if draw > 0xFFFF then 0xFFFF else draw
  draw.toUInt32.toUInt16

/-! ## `send_one` -/

def nextSync (syncBit : UInt8) : UInt8 := syncBit % 7 + 1

/-- Road, event, side or number changed. -/
def ManeuverChanged (cur prev : NaviSnapshot) : Prop :=
  cur.roadName.str ≠ prev.roadName.str ∨ cur.turnEvent ≠ prev.turnEvent ∨
    cur.turnSide ≠ prev.turnSide ∨ cur.turnNumber ≠ prev.turnNumber

instance (cur prev : NaviSnapshot) : Decidable (ManeuverChanged cur prev) :=
  inferInstanceAs (Decidable (_ ∨ _ ∨ _ ∨ _))

def DistanceChanged (cur prev : NaviSnapshot) : Prop :=
  ManeuverChanged cur prev ∨ cur.distanceDec ≠ prev.distanceDec ∨
    cur.distanceUnit ≠ prev.distanceUnit ∨ cur.turnAngle ≠ prev.turnAngle

instance (cur prev : NaviSnapshot) : Decidable (DistanceChanged cur prev) :=
  inferInstanceAs (Decidable (_ ∨ _ ∨ _ ∨ _))

/-- The overlay for turns without a glyph. -/
def Hijacked (cfg : Config) (s : NaviSnapshot) : Prop := cfg.hudDebug = true ∧ s.turnIcon = 0

instance (cfg : Config) (s : NaviSnapshot) : Decidable (Hijacked cfg s) :=
  inferInstanceAs (Decidable (_ ∧ _))

/-- `send_one` on a HUD that is there: the maneuver frame and the strip to send, if
any, and the sync bit after them. -/
def sendOne (cfg : Config) (cur prev : NaviSnapshot) (syncBit : UInt8) (splim : UInt16)
    (splimChanged force : Bool) : Option (VbsNaviHudDisplay × VbsNaviHudMsg2) × UInt8 :=
  if DistanceChanged cur prev ∨ splimChanged = true ∨ force = true then
    let sync := if ManeuverChanged cur prev then nextSync syncBit else syncBit
    -- the overlay's label follows the raw codes, so it pages on its own
    let sync := if Hijacked cfg cur ∧ ¬ManeuverChanged cur prev then nextSync sync else sync
    let disp : VbsNaviHudDisplay :=
      { nextManeuverInfo := if Hijacked cfg cur then HUD_STRAIGHT.toUInt32 else cur.turnIcon
        distanceValue := cur.distanceValue
        distanceUnit := if cur.distanceUnit ≠ 0 then cur.distanceUnit else 1
        displaySpeedLimit := splim
        displaySpeedUnit := if splim ≠ 0 then 1 else 0
        textID3 := sync }
    let road := if Hijacked cfg cur then cur.debugLabel else cur.streetStrip cfg
    (some (disp, ⟨some road, sync⟩), sync)
  else (none, syncBit)

/-- The two frames of `send_clear`; the sync bit advances between them. -/
def clearDisplay : VbsNaviHudDisplay := ⟨0, 0, 0, 0, 0, 0⟩

def clearStrip (syncBit : UInt8) : VbsNaviHudMsg2 := ⟨some [0x20], syncBit⟩

/-! ## The limit files -/

/-- `read_splim`: the limit and its time as scanned from the file, at the time `now`. -/
def readSplim (cfg : Config) (file : Option (Int × Int)) (now : Int) : UInt16 :=
  if cfg.speedLimit then
    match file with
    | some (limit, ts) =>
      if now - ts > 8 ∨ limit < 5 ∨ limit > 200 then 0 else UInt16.ofNat limit.toNat
    | none => 0
  else 0

/-- `read_over` -/
def readOver (cfg : Config) (file : Option Int) : Bool := cfg.speedLimit && file == some 1

/-! ## What is shown -/

/-- The maneuver a HUD shows: the icon of the last maneuver frame and the last strip. -/
@[ext] structure Face where
  icon   : UInt32
  street : Bytes
deriving DecidableEq

def Face.blank : Face := ⟨0, [0x20]⟩

/-- What the HUD is to show for a snapshot. -/
def NaviSnapshot.face (cfg : Config) (s : NaviSnapshot) : Face := ⟨s.turnIcon, s.streetStrip cfg⟩

variable {cfg : Config} {cur prev : NaviSnapshot}

@[simp] theorem face_zero (cfg : Config) : ({} : NaviSnapshot).face cfg = Face.blank := by
  have hfold : (HudTranslit.foldBuf 0x3F
      (.ofStrncpy 256 ({} : NaviSnapshot).roadName.bytes) : CharBuf 256).str = [] := by
    decide +kernel
  unfold NaviSnapshot.face NaviSnapshot.streetStrip
  rw [hfold, CharBuf.zero_str, ite_self]
  rfl

theorem streetStrip_congr (h : cur.roadName.str = prev.roadName.str) :
    cur.streetStrip cfg = prev.streetStrip cfg := by
  have hcopy : CharBuf.ofStrncpy 256 cur.roadName.bytes =
      CharBuf.ofStrncpy 256 prev.roadName.bytes := by
    unfold CharBuf.ofStrncpy
    have hstr : cstr cur.roadName.bytes = cstr prev.roadName.bytes := h
    simp only [hstr]
  unfold NaviSnapshot.streetStrip
  rw [hcopy, h]

/-- Snapshots that differ in nothing `send_one` looks at show the same. -/
theorem face_congr (h : ¬DistanceChanged cur prev) : cur.face cfg = prev.face cfg := by
  simp only [DistanceChanged, ManeuverChanged, ne_eq, not_or, not_not] at h
  obtain ⟨⟨hroad, hevent, hside, -⟩, -, -, hangle⟩ := h
  unfold NaviSnapshot.face
  rw [streetStrip_congr hroad]
  unfold NaviSnapshot.turnIcon
  rw [hevent, hside, hangle]

/-- What `send_one` does not send would show what was sent before. -/
theorem sendOne_none {syncBit : UInt8} {splim : UInt16} {splimChanged force : Bool}
    (h : (sendOne cfg cur prev syncBit splim splimChanged force).1 = none) :
    cur.face cfg = prev.face cfg := by
  unfold sendOne at h
  split at h
  · exact absurd h (by simp)
  · rename_i hsame
    exact face_congr fun hchanged => hsame (.inl hchanged)

/-- What it sends shows the snapshot, with the overlay off. -/
theorem sendOne_some {syncBit : UInt8} {splim : UInt16} {splimChanged force : Bool}
    {disp : VbsNaviHudDisplay} {msg2 : VbsNaviHudMsg2} (hdebug : cfg.hudDebug = false)
    (h : (sendOne cfg cur prev syncBit splim splimChanged force).1 = some (disp, msg2)) :
    disp.nextManeuverInfo = (cur.face cfg).icon ∧
      msg2.guidancePointName = some (cur.face cfg).street := by
  have hoff : ¬Hijacked cfg cur := by simp [Hijacked, hdebug]
  unfold sendOne at h
  split at h
  · simp only [Option.some_inj, Prod.mk.injEq] at h
    obtain ⟨rfl, rfl⟩ := h
    exact ⟨rfl, rfl⟩
  · exact absurd h (by simp)

end OemAaMod.Carplay
