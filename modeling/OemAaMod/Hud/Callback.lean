import OemAaMod.Common.Translit
import OemAaMod.Hud.Glyph
import OemAaMod.Hud.Transport

/-!
# The 1.5 callback

`our_nav_cb` gets the SDK's 0x500, 0x501 and 0x502 events and makes the transport
calls of them, unless 1.6 frames are arriving.
-/

namespace OemAaMod

open CStr (Bytes CharBuf)

/-- The 36-byte header by its tag: `StatusHdr`, `NextTurnHdr`, `DistanceHdr`. Of
`NextTurnHdr` the image and the lengths go to the log only. -/
inductive NavEvent
  | status (status : UInt32)
  | nextTurn (roadName : Option Bytes) (turnSide turnEvent : UInt32)
      (turnAngle turnNumber : Int32)
  | distance (distance timeUntil displayDistance : Int32) (displayDistanceUnit : UInt32)
  | unknown (tag : UInt32)
deriving DecidableEq

/-- `hud_tx_next_turn`. -/
def hudTxNextTurn (hudFoldLatin : Bool) (road : Option Bytes) (side event : UInt32)
    (angle : Int32) : TxCall :=
  let icon := computeTurnIcon event side angle
  match road with
  | some road =>
    if hudFoldLatin then
      .nextTurn (some (HudTranslit.foldBuf 0 (.ofStrncpy 256 road) : CharBuf 256).bytes) icon
    else .nextTurn (some road) icon
  | none => .nextTurn none icon

/-- `hud_tx_distance`: the display distance is in thousandths, the HUD's in tenths. -/
def hudTxDistance (dispDist : Int32) (dispUnit : UInt32) : TxCall :=
  .distance (dispDist / 100) (mapDistanceUnit dispUnit)

/-- `our_nav_cb`, for a header that is not null. -/
def ourNavCb (hudFoldLatin rxSeen : Bool) (e : NavEvent) : Option TxCall :=
  if rxSeen then none
  else
    match e with
    | .status status => some (.status status)
    | .nextTurn road side event angle _ =>
      some (hudTxNextTurn hudFoldLatin road side (decodeTurnEvent event) angle)
    | .distance _ _ dispDist dispUnit => some (hudTxDistance dispDist dispUnit)
    | .unknown _ => none

end OemAaMod
