import OemAaMod.Nav16.Decoder

/-!
# From Android Auto fields to the Mazda HUD

The lookups of `hud_nav.h`, `hud_nav16.cpp` and `hud.cpp`: maneuver glyphs for
both protocol versions, distance units, and the display distance.
-/

namespace OemAaMod

open CStr (Bytes cstr)

/-! ## `MazdaIcon` -/

def HUD_BLANK : UInt8 := 0
def HUD_STRAIGHT : UInt8 := 1
def HUD_LEFT : UInt8 := 2
def HUD_RIGHT : UInt8 := 3
def HUD_SLIGHT_LEFT : UInt8 := 4
def HUD_SLIGHT_RIGHT : UInt8 := 5
def HUD_OFF_RAMP_RIGHT : UInt8 := 7
def HUD_DESTINATION : UInt8 := 8
def HUD_SHARP_RIGHT : UInt8 := 9
def HUD_U_TURN_RIGHT : UInt8 := 10
def HUD_SHARP_LEFT : UInt8 := 11
def HUD_FLAG : UInt8 := 12
def HUD_U_TURN_LEFT : UInt8 := 13
def HUD_FORK_RIGHT : UInt8 := 14
def HUD_FORK_LEFT : UInt8 := 15
def HUD_MERGE_LEFT : UInt8 := 16
def HUD_MERGE_RIGHT : UInt8 := 17
def HUD_EMPTY : UInt8 := 18
def HUD_OFF_RAMP_LEFT : UInt8 := 30
def HUD_DESTINATION_LEFT : UInt8 := 33
def HUD_DESTINATION_RIGHT : UInt8 := 34
def HUD_FLAG_LEFT : UInt8 := 35
def HUD_FLAG_RIGHT : UInt8 := 36
def HUD_ROUNDABOUT_CCW_BASE : UInt8 := 37
def HUD_ROUNDABOUT_CW_BASE : UInt8 := 49

/-! ## GAL 1.6 -/

/-- `kManeuverGlyph`, by `NavigationType` 0..42. -/
def kManeuverGlyph : List UInt8 :=
  [HUD_EMPTY, HUD_FLAG, HUD_STRAIGHT, HUD_FORK_LEFT, HUD_FORK_RIGHT,
   HUD_SLIGHT_LEFT, HUD_SLIGHT_RIGHT, HUD_LEFT, HUD_RIGHT, HUD_SHARP_LEFT, HUD_SHARP_RIGHT,
   HUD_U_TURN_LEFT, HUD_U_TURN_RIGHT,
   -- on-ramps reuse the turn glyphs
   HUD_SLIGHT_LEFT, HUD_SLIGHT_RIGHT, HUD_LEFT, HUD_RIGHT, HUD_SHARP_LEFT, HUD_SHARP_RIGHT,
   HUD_U_TURN_LEFT, HUD_U_TURN_RIGHT,
   HUD_OFF_RAMP_LEFT, HUD_OFF_RAMP_RIGHT, HUD_OFF_RAMP_LEFT, HUD_OFF_RAMP_RIGHT,
   HUD_FORK_LEFT, HUD_FORK_RIGHT, HUD_MERGE_LEFT, HUD_MERGE_RIGHT, HUD_STRAIGHT,
   -- roundabouts; 32..35 are resolved by angle and never looked up here
   HUD_STRAIGHT, HUD_STRAIGHT, HUD_STRAIGHT, HUD_STRAIGHT, HUD_STRAIGHT, HUD_STRAIGHT,
   HUD_STRAIGHT, HUD_EMPTY, HUD_EMPTY,
   HUD_DESTINATION, HUD_DESTINATION, HUD_DESTINATION_LEFT, HUD_DESTINATION_RIGHT]

/-- `roundabout_glyph`: twelve glyphs a side, by the exit angle. -/
def roundaboutGlyph (exitAngle : Int32) (clockwise : Bool) : UInt8 :=
  let a := exitAngle.toInt.tmod 360
  let a := if a < 0 then a + 360 else a
  let idx := (a + 15).tdiv 30 % 12
  (if clockwise then HUD_ROUNDABOUT_CW_BASE else HUD_ROUNDABOUT_CCW_BASE) + UInt8.ofNat idx.toNat

/-- `hud_nav16_glyph`, for a guidance that is not null. -/
def hudNav16Glyph (g : AaGuidance) : UInt8 :=
  if g.maneuverType = 32 ∨ g.maneuverType = 33 then roundaboutGlyph g.roundaboutExitAngle true
  else if g.maneuverType = 34 ∨ g.maneuverType = 35 then
    roundaboutGlyph g.roundaboutExitAngle false
  else if g.maneuverType < 43 then kManeuverGlyph.getD g.maneuverType.toNat HUD_EMPTY
  else HUD_EMPTY

/-- `aa_to_mazda_unit`: 1=m, 2=mi, 3=km, 4=yd, 5=ft, 0=none. -/
def aaToMazdaUnit (u : UInt32) : UInt8 :=
  if u = 1 then 1
  else if u = 2 ∨ u = 3 then 3
  else if u = 4 ∨ u = 5 then 2
  else if u = 6 then 5
  else if u = 7 then 4
  else 0

/-- The locals of `parse_dist_x10`. -/
structure DistScan where
  ip   : Nat := 0
  frac : Nat := 0
  sep  : Bool := false
  any  : Bool := false
deriving DecidableEq

/-- The loop of `parse_dist_x10` over the characters before the NUL; the first
fractional digit ends it. -/
def scanDist (s : DistScan) : Bytes → DistScan
  | [] => s
  | p :: ps =>
    if 0x30 ≤ p ∧ p ≤ 0x39 then
      let d := p.toNat - 0x30
      if s.sep then { s with frac := d }
      else scanDist { s with ip := if s.ip < 100000000 then s.ip * 10 + d else s.ip, any := true } ps
    else if p = 0x2c ∨ p = 0x2e then scanDist { s with sep := true } ps
    else scanDist s ps

/-- `parse_dist_x10` on the string in `s`. -/
def parseDistX10 (s : Bytes) : Int32 :=
  let r := scanDist {} (cstr s)
  if r.any then Int32.ofNat (r.ip * 10 + r.frac) else 0

/-- `quantize_dist_x10`, in the integers. -/
def quantizeDist (v : Int) (mazdaUnit : UInt8) : Int :=
  if v < 0 then 0
  else if mazdaUnit = 2 ∨ mazdaUnit = 3 then v
  else if 5000 ≤ v then (v + 250) / 500 * 500
  else if 1000 ≤ v then (v + 50) / 100 * 100
  else if 200 ≤ v then (v + 25) / 50 * 50
  else v

def quantizeDistX10 (v : Int32) (mazdaUnit : UInt8) : Int32 :=
  Int32.ofInt (quantizeDist v.toInt mazdaUnit)

/-! ## GAL 1.5 -/

/-- `kTurnIcons`, by proto `TURN_EVENT` 0..19 and side (left, right, straight). -/
def kTurnIcons : List (List UInt8) :=
  [[0, 0, 0],
   [HUD_FLAG_LEFT, HUD_FLAG_RIGHT, HUD_FLAG],
   [HUD_STRAIGHT, HUD_STRAIGHT, HUD_STRAIGHT],
   [HUD_SLIGHT_LEFT, HUD_SLIGHT_RIGHT, HUD_STRAIGHT],
   [HUD_LEFT, HUD_RIGHT, HUD_STRAIGHT],
   [HUD_SHARP_LEFT, HUD_SHARP_RIGHT, HUD_STRAIGHT],
   [HUD_U_TURN_LEFT, HUD_U_TURN_RIGHT, HUD_STRAIGHT],
   [HUD_LEFT, HUD_RIGHT, HUD_STRAIGHT],
   [HUD_OFF_RAMP_LEFT, HUD_OFF_RAMP_RIGHT, HUD_STRAIGHT],
   [HUD_FORK_LEFT, HUD_FORK_RIGHT, HUD_STRAIGHT],
   [HUD_MERGE_LEFT, HUD_MERGE_RIGHT, HUD_STRAIGHT],
   [0, 0, 0],
   [0, 0, 0],
   [0, 0, 0],
   [HUD_STRAIGHT, HUD_STRAIGHT, HUD_STRAIGHT],
   [0, 0, 0],
   [0, 0, 0],
   [0, 0, 0],
   [0, 0, 0],
   [HUD_DESTINATION_LEFT, HUD_DESTINATION_RIGHT, HUD_DESTINATION]]

/-- `roundabout_icon`; the angle is used as it comes. -/
def roundaboutIcon (degrees : Int32) (leftHand : Bool) : UInt8 :=
  let nearest := UInt8.ofNat ((degrees.toInt + 15).tdiv 30 % 256).toNat
  nearest + if leftHand then 49 else 37

/-- `compute_turn_icon`. -/
def computeTurnIcon (turnEvent turnSide : UInt32) (turnAngle : Int32) : UInt32 :=
  if turnEvent = 13 then (roundaboutIcon turnAngle (turnSide == 1)).toUInt32
  else if turnEvent < 20 then
    let sideIdx := if turnSide = 1 then 0 else if turnSide = 2 then 1 else 2
    (((kTurnIcons.getD turnEvent.toNat []).getD sideIdx 0)).toUInt32
  else 0

/-- `decode_turn_event`: undo the producer's compaction of the proto enum. -/
def decodeTurnEvent (compacted : UInt32) : UInt32 :=
  if compacted = 15 then 16
  else if compacted = 16 then 17
  else if compacted = 17 then 19
  else compacted

/-- `map_distance_unit`. -/
def mapDistanceUnit (androidUnit : UInt32) : UInt8 :=
  if androidUnit = 1 then 1
  else if androidUnit = 2 ∨ androidUnit = 3 then 3
  else if androidUnit = 4 ∨ androidUnit = 5 then 2
  else if androidUnit = 6 then 5
  else 0

/-! ## What has a glyph -/

theorem kManeuverGlyph_bounds : ∀ i : Fin 43,
    1 ≤ (kManeuverGlyph.getD i.val HUD_EMPTY).toNat ∧
      (kManeuverGlyph.getD i.val HUD_EMPTY).toNat ≤ 60 := by decide

theorem roundaboutGlyph_bounds (exitAngle : Int32) (clockwise : Bool) :
    37 ≤ (roundaboutGlyph exitAngle clockwise).toNat ∧
      (roundaboutGlyph exitAngle clockwise).toNat ≤ 60 := by
  unfold roundaboutGlyph
  extract_lets a a' idx
  have hlo : 0 ≤ idx := by omega
  have hhi : idx ≤ 11 := by omega
  -- the sector, 0..11, as a natural number
  obtain ⟨k, hk⟩ := Int.eq_ofNat_of_zero_le hlo
  have hsmall : k ≤ 11 := by omega
  rw [hk]
  cases clockwise with
  | true =>
    rw [if_pos rfl, UInt8.toNat_add, UInt8.toNat_ofNat', show HUD_ROUNDABOUT_CW_BASE.toNat = 49 from rfl,
      Int.toNat_natCast]
    omega
  | false =>
    rw [if_neg (by simp), UInt8.toNat_add, UInt8.toNat_ofNat',
      show HUD_ROUNDABOUT_CCW_BASE.toNat = 37 from rfl, Int.toNat_natCast]
    omega

/-- Every 1.6 guidance has a glyph; what is unknown or has none is `HUD_EMPTY`. -/
theorem hudNav16Glyph_bounds (g : AaGuidance) :
    1 ≤ (hudNav16Glyph g).toNat ∧ (hudNav16Glyph g).toNat ≤ 60 := by
  unfold hudNav16Glyph
  split
  · have := roundaboutGlyph_bounds g.roundaboutExitAngle true
    omega
  · split
    · have := roundaboutGlyph_bounds g.roundaboutExitAngle false
      omega
    · split
      · rename_i hlt
        exact kManeuverGlyph_bounds ⟨g.maneuverType.toNat, UInt32.lt_iff_toNat_lt.mp hlt⟩
      · decide

/-- The 1.5 turns whose glyph is 0: the events without one, as the producer
compacts them, and the roundabout angles far enough out to wrap the byte. -/
def NoGlyph (event side : UInt32) (angle : Int32) : Prop :=
  event = 0 ∨ event = 11 ∨ event = 12 ∨ event = 15 ∨ event = 16 ∨ event = 18 ∨ 20 ≤ event ∨
    (event = 13 ∧ ((angle.toInt + 15).tdiv 30 + if side = 1 then 49 else 37) % 256 = 0)

instance (event side : UInt32) (angle : Int32) : Decidable (NoGlyph event side angle) :=
  inferInstanceAs (Decidable (_ ∨ _ ∨ _ ∨ _ ∨ _ ∨ _ ∨ _ ∨ _))

theorem roundaboutIcon_eq_zero_iff (degrees : Int32) (leftHand : Bool) :
    roundaboutIcon degrees leftHand = 0 ↔
      ((degrees.toInt + 15).tdiv 30 + if leftHand then 49 else 37) % 256 = 0 := by
  unfold roundaboutIcon
  generalize (degrees.toInt + 15).tdiv 30 = q
  -- the sum is taken on a byte, so it may come round to 0
  obtain ⟨k, hk⟩ := Int.eq_ofNat_of_zero_le (Int.emod_nonneg q (show (256 : Int) ≠ 0 by decide))
  have hlt : k < 256 := by omega
  rw [hk, ← UInt8.toNat_inj]
  cases leftHand with
  | true =>
    simp only [if_true, Int.toNat_natCast, UInt8.toNat_add, UInt8.toNat_ofNat', UInt8.reduceToNat,
      UInt8.toNat_zero]
    omega
  | false =>
    simp only [Bool.false_eq_true, if_false, Int.toNat_natCast, UInt8.toNat_add,
      UInt8.toNat_ofNat', UInt8.reduceToNat, UInt8.toNat_zero]
    omega

theorem kTurnIcons_eq_zero_iff : ∀ event : Fin 20, ∀ side : Fin 3,
    (kTurnIcons.getD event.val []).getD side.val 0 = 0 ↔
      event.val = 0 ∨ event.val = 11 ∨ event.val = 12 ∨ event.val = 13 ∨ event.val = 15 ∨
        event.val = 16 ∨ event.val = 17 ∨ event.val = 18 := by decide

theorem toUInt32_eq_zero_iff (x : UInt8) : x.toUInt32 = 0 ↔ x = 0 := by
  rw [← UInt32.toNat_inj, ← UInt8.toNat_inj, UInt8.toNat_toUInt32]
  rfl

theorem computeTurnIcon_eq_zero_iff (event side : UInt32) (angle : Int32) :
    computeTurnIcon event side angle = 0 ↔
      event = 0 ∨ event = 11 ∨ event = 12 ∨ event = 15 ∨ event = 16 ∨ event = 17 ∨ event = 18 ∨
        20 ≤ event ∨
        (event = 13 ∧ ((angle.toInt + 15).tdiv 30 + if side = 1 then 49 else 37) % 256 = 0) := by
  unfold computeTurnIcon
  by_cases h13 : event = 13
  · subst h13
    rw [if_pos rfl, toUInt32_eq_zero_iff, roundaboutIcon_eq_zero_iff]
    simp
  · rw [if_neg h13]
    by_cases hlt : event < 20
    · -- a row of the table
      rw [if_pos hlt, toUInt32_eq_zero_iff]
      have hnat : event.toNat < 20 := UInt32.lt_iff_toNat_lt.mp hlt
      -- the column: left, right, or unknown
      obtain ⟨side, hside⟩ : ∃ j : Fin 3, j.val =
          if side = 1 then 0 else if side = 2 then 1 else 2 := by
        split
        · exact ⟨0, rfl⟩
        · split
          · exact ⟨1, rfl⟩
          · exact ⟨2, rfl⟩
      have hrow := kTurnIcons_eq_zero_iff ⟨event.toNat, hnat⟩ side
      rw [← hside]
      refine hrow.trans ?_
      simp only [← UInt32.toNat_inj, UInt32.le_iff_toNat_le, UInt32.reduceToNat] at h13 ⊢
      omega
    · -- behind the table there is no icon
      rw [if_neg hlt]
      have hge : 20 ≤ event := UInt32.not_lt.mp hlt
      simp [hge]

/-- The turns without a glyph are exactly those of `NoGlyph`. -/
theorem noGlyph_iff (event side : UInt32) (angle : Int32) :
    computeTurnIcon (decodeTurnEvent event) side angle = 0 ↔ NoGlyph event side angle := by
  rw [computeTurnIcon_eq_zero_iff]
  unfold NoGlyph decodeTurnEvent
  by_cases h15 : event = 15
  · simp [h15]
  · by_cases h16 : event = 16
    · simp [h16]
    · by_cases h17 : event = 17
      · simp [h17]
      · simp [h15, h16, h17]

end OemAaMod
