import OemAaMod.Common.Translit
import OemAaMod.Hud.Glyph
import OemAaMod.Hud.Transport
import OemAaMod.Nav16.Feed

/-!
# The accumulator behind the 1.6 callbacks

Maneuver, road and lanes come on 0x8006 and the distance on 0x8007; `hud.cpp`
merges the two into `g_nav16_acc` and feeds the transport when the merged value
changed.

* `AaNav16HudState` — the accumulator, whose road is always terminated;
* `Nav16Gate` — the accumulator with the change gate;
* `nav16OnGuidance`, `nav16OnPosition`, `nav16OnStatus` — what the callbacks do to
  them, and whether they go on to emit or to clear;
* `AaNav16HudState.view` — what a HUD that is up to date shows;
* `apply_nextTurnCall`, `apply_distanceCall`, `apply_lanesCall` — the three calls of one
  update show it, each its part.
-/

namespace OemAaMod

open CStr (Bytes CharBuf cstr)

/-- `AaNav16HudState`, zero-initialised. -/
structure AaNav16HudState where
  glyph    : UInt32 := 0
  distDec  : Int32 := 0
  distUnit : UInt8 := 0
  nLanes   : Fin 9 := noLanes
  road     : CharBuf 64 := .zero 64
  lanes    : Vector AaLane 8 := .replicate 8 {}
  /-- Some byte of `road` is NUL. -/
  road_terminated : road.str.length < 64 := by decide
deriving DecidableEq

theorem zero_terminated : (CharBuf.zero 64).str.length < 64 := by decide

/-- `nav16_encode_lane_codes`. -/
def nav16EncodeLaneCodes (lanes : Vector AaLane 8) (n : Fin 9) : Vector UInt8 8 :=
  .ofFn fun i =>
    if i.val < n.val then oemLaneCodeForAa (lanes.get i).presentMask (lanes.get i).highlightMask
    else OEM_LANE_NONE

/-- What the HUD is to show for an accumulator. -/
def AaNav16HudState.view (acc : AaNav16HudState) : View :=
  ⟨acc.glyph, acc.road.str, acc.distDec, acc.distUnit, nav16EncodeLaneCodes acc.lanes acc.nLanes⟩

/-- `g_nav16_acc`, `g_nav16_last`, `g_nav16_have_last`. -/
structure Nav16Gate where
  acc      : AaNav16HudState := {}
  last     : AaNav16HudState := {}
  haveLast : Bool := false
deriving DecidableEq

/-- `hud_feed_nav16_reset`. -/
def hudFeedNav16Reset (g : Nav16Gate) : Nav16Gate := { g with acc := {}, haveLast := false }

/-! ## `nav16_emit_if_changed` -/

/-- The gate is shut: this frame is the last one fed. -/
def Nav16Gate.Shut (g : Nav16Gate) : Prop := g.haveLast = true ∧ g.acc = g.last

instance (g : Nav16Gate) : Decidable g.Shut := inferInstanceAs (Decidable (_ ∧ _))

/-- The calls an open gate makes, in this order. -/
def nextTurnCall (acc : AaNav16HudState) : TxCall := .nextTurn (some acc.road.bytes) acc.glyph

def distanceCall (acc : AaNav16HudState) : TxCall := .distance acc.distDec acc.distUnit

def lanesCall (acc : AaNav16HudState) : TxCall :=
  .lanes (some (nav16EncodeLaneCodes acc.lanes acc.nLanes))

/-- The end of an emit. -/
def Nav16Gate.record (g : Nav16Gate) : Nav16Gate := { g with last := g.acc, haveLast := true }

/-! ## The callbacks -/

/-- The clamped glyph of `nav16_on_guidance`. -/
def guidanceGlyph (g : AaGuidance) : UInt32 :=
  let glyph := (hudNav16Glyph g).toUInt32
  if glyph > 60 then 0 else glyph

/-- The local `road` of `nav16_on_guidance`. -/
def guidanceRoad (hudFoldLatin : Bool) (g : AaGuidance) : CharBuf 64 :=
  let road := CharBuf.ofStrncpy 64 g.road.bytes
  if hudFoldLatin then HudTranslit.foldBuf 0 road else road

/-- The accumulator after `nav16_on_guidance`. -/
def nav16OnGuidance (hudFoldLatin : Bool) (acc : AaNav16HudState) (g : AaGuidance) :
    AaNav16HudState :=
  let glyph := guidanceGlyph g
  let road := guidanceRoad hudFoldLatin g
  -- another maneuver: the held distance is the previous step's
  let moved := glyph ≠ acc.glyph ∨ road.str ≠ acc.road.str
  { glyph
    distDec := if moved then 0 else acc.distDec
    distUnit := if moved then 0 else acc.distUnit
    nLanes := g.nLanes
    road := .ofStrncpy 64 road.bytes
    lanes := .ofFn fun i => if i.val < g.nLanes.val then g.lanes.get i else {}
    road_terminated := by
      rw [CharBuf.ofStrncpy_str (by decide), List.length_take]
      omega }

/-- The clamped unit of `nav16_on_position`. -/
def positionUnit (p : AaPosition) : UInt8 :=
  let unit := aaToMazdaUnit p.stepUnits
  if unit > 5 then 0 else unit

/-- The accumulator after `nav16_on_position`; without a step distance it returns
before anything else. -/
def nav16OnPosition (acc : AaNav16HudState) (p : AaPosition) : Option AaNav16HudState :=
  if p.haveStep then
    let unit := positionUnit p
    some { acc with
      distUnit := unit
      distDec := quantizeDistX10 (parseDistX10 p.stepDisplay.bytes) unit }
  else none

/-- Whether `nav16_on_status` clears the HUD. -/
def AaStatus.Clears (s : AaStatus) : Prop :=
  s.clusterStop = true ∨ s.navStatus = 2 ∨ s.navStatus = 0

instance (s : AaStatus) : Decidable s.Clears := inferInstanceAs (Decidable (_ ∨ _ ∨ _))

/-- A guidance always has a glyph. -/
theorem guidanceGlyph_ne_zero (g : AaGuidance) : guidanceGlyph g ≠ 0 := by
  obtain ⟨hlo, hhi⟩ := hudNav16Glyph_bounds g
  have hnat : (hudNav16Glyph g).toUInt32.toNat = (hudNav16Glyph g).toNat := by simp
  unfold guidanceGlyph
  dsimp only
  rw [if_neg]
  · intro hzero
    rw [hzero] at hnat
    simp only [UInt32.toNat_zero] at hnat
    omega
  · intro hgt
    have hlt := UInt32.lt_iff_toNat_lt.mp hgt
    simp only [UInt32.reduceToNat] at hlt
    omega

/-! ## What the calls show -/

@[simp] theorem AaNav16HudState.view_zero : ({} : AaNav16HudState).view = View.blank := by
  decide +kernel

/-- A terminated road fits the snapshot. -/
theorem AaNav16HudState.take_road (acc : AaNav16HudState) : acc.road.str.take 63 = acc.road.str :=
  List.take_of_length_le (Nat.le_of_lt_succ acc.road_terminated)

theorem apply_nextTurnCall (acc : AaNav16HudState) (v : View) :
    (nextTurnCall acc).apply v = { v with glyph := acc.view.glyph, road := acc.view.road } := by
  have hroad : (cstr acc.road.bytes).take 63 = acc.road.str := acc.take_road
  unfold nextTurnCall TxCall.apply
  simp only [Option.map_some, Option.getD_some, hroad]
  rfl

theorem apply_distanceCall (acc : AaNav16HudState) (v : View) :
    (distanceCall acc).apply v = { v with dist := acc.view.dist, unit := acc.view.unit } := rfl

theorem apply_lanesCall (acc : AaNav16HudState) (v : View) :
    (lanesCall acc).apply v = { v with lanes := acc.view.lanes } := rfl

end OemAaMod
