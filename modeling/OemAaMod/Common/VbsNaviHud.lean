import OemAaMod.Lib.CStr

/-!
# The com.jci.vbs.navi wire structs

The layouts of `vbs_navi_hud.h`, shared by the transport that sends them and the
merge hook that rewrites them, and the reserved speed value between the two.
-/

namespace OemAaMod

open CStr (Bytes)

/-- `VbsNaviHudDisplay`, the `(uqyqyy)` maneuver frame. -/
structure VbsNaviHudDisplay where
  nextManeuverInfo  : UInt32
  distanceValue     : UInt16
  distanceUnit      : UInt8
  displaySpeedLimit : UInt16
  displaySpeedUnit  : UInt8
  textID3           : UInt8
deriving DecidableEq, Repr

/-- `VbsNaviHudMsg2`, the street strip: the memory its pointer shows, if any. -/
structure VbsNaviHudMsg2 where
  guidancePointName : Option Bytes
  syncBit           : UInt8
deriving DecidableEq, Repr

/-- The speed value that marks a frame as AAP-originated. -/
def kAapSpeedSentinel : UInt16 := 0xFFFF

end OemAaMod
