import OemAaMod.Nav16.Decoder

/-!
# Dispatching a decoded frame

`hud_nav16_feed`: the frame's id selects one of the callbacks registered by
`hud_nav16_set_sink`, which gets the decoded struct.
-/

namespace OemAaMod

/-- `AaStatus`; `nav_status` is -1 when it is absent or malformed. -/
structure AaStatus where
  navStatus   : Int32 := -1
  clusterStop : Bool := false
deriving DecidableEq

/-- The registered callbacks; a null one is not there. -/
structure HudNav16Sink where
  onGuidance : Bool
  onPosition : Bool
  onStatus   : Bool
deriving DecidableEq

/-- The sink `hud_post_aap_create_session` registers. -/
def hudSink : HudNav16Sink := ⟨true, true, true⟩

/-- A call of a registered callback. -/
inductive SinkCall
  | guidance (g : AaGuidance)
  | position (p : AaPosition)
  | status (s : AaStatus)
deriving DecidableEq

/-- `hud_nav16_feed`. The structs are filled before they are read, so what the
decoder is handed does not matter. -/
def hudNav16Feed (sink : HudNav16Sink) (frame : List UInt8) : Option SinkCall :=
  match frame with
  | b₀ :: b₁ :: _ =>
    let id := msgId b₀ b₁
    if id = AA_NAV16_MSG_NAV_STATE then
      if sink.onGuidance then
        (hudNav16OnFrame frame (some {}) none).2.1.map .guidance
      else none
    else if id = AA_NAV16_MSG_POSITION then
      if sink.onPosition then
        (hudNav16OnFrame frame none (some {})).2.2.map .position
      else none
    else if id = AA_NAV16_MSG_STATUS then
      if sink.onStatus then
        some (.status { navStatus := (hudNav16ReadStatus frame).getD (-1) })
      else none
    else if id = AA_NAV16_MSG_CLUSTER_STOP then
      if sink.onStatus then some (.status { clusterStop := true }) else none
    else none
  | _ => none

/-! ## The frames of each id -/

theorem feed_navState {sink : HudNav16Sink} (hsink : sink.onGuidance = true) (body : List UInt8) :
    hudNav16Feed sink (0x80 :: 0x06 :: body) =
      some (.guidance (hudNav16DecodeNavstate (frameBody 0x80 0x06 body))) := by
  unfold hudNav16Feed
  dsimp only
  rw [if_pos (by decide), if_pos hsink]
  rfl

theorem feed_position {sink : HudNav16Sink} (hsink : sink.onPosition = true) (body : List UInt8) :
    hudNav16Feed sink (0x80 :: 0x07 :: body) =
      some (.position (hudNav16DecodePosition (frameBody 0x80 0x07 body))) := by
  unfold hudNav16Feed
  dsimp only
  rw [if_neg (by decide), if_pos (by decide), if_pos hsink]
  rfl

theorem feed_status {sink : HudNav16Sink} (hsink : sink.onStatus = true) (body : List UInt8) :
    hudNav16Feed sink (0x80 :: 0x03 :: body) =
      some (.status { navStatus := (hudNav16ReadStatus (0x80 :: 0x03 :: body)).getD (-1) }) := by
  unfold hudNav16Feed
  dsimp only
  rw [if_neg (by decide), if_neg (by decide), if_pos (by decide), if_pos hsink]

end OemAaMod
