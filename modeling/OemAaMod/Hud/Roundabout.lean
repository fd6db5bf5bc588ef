import OemAaMod.Hud.Glyph

/-!
# Roundabouts in both protocol versions

`roundabout_icon` (1.5) and `roundabout_glyph` (1.6) both round the exit angle to
one of twelve sectors, but only the second takes the angle modulo 360 first and
the sector modulo 12 after. With `b` for the angle plus 15, which both divide by 30:

* `sector16` — the 1.6 sector, `⌊b / 30⌋` modulo 12, always one of the twelve;
* `nearest15` — the 1.5 `nearest`, `b / 30` towards zero, modulo 256;
* `nearest15_eq_sector16_iff`, `nearest15_lt_iff`, `nearest15_shift_iff` — when the
  two agree, when the 1.5 one is a sector, and when a turn leaves it alone.

The sum `b` is taken in the integers. In C it overflows on the last fifteen angles;
they meet none of the conditions here under either reading.
-/

namespace OemAaMod

/-- The sector that `roundabout_glyph` adds to its base. -/
def sector16 (angle : Int) : Int :=
  let a := angle.tmod 360
  let a := if a < 0 then a + 360 else a
  (a + 15).tdiv 30 % 12

/-- The byte `nearest` of `roundabout_icon`. -/
def nearest15 (angle : Int) : Int := (angle + 15).tdiv 30 % 256

/-- The first of a traffic side's twelve glyphs. -/
def bankBase (leftHand : Bool) : Nat := if leftHand then 49 else 37

/-! ## The two roundings -/

/-- Division towards zero, as division towards minus infinity. -/
theorem tdiv_thirty (b : Int) :
    b.tdiv 30 = if 0 ≤ b ∨ 30 ∣ b then b / 30 else b / 30 + 1 := by
  rw [Int.tdiv_eq_ediv, show Int.sign 30 = 1 from rfl]
  by_cases h : 0 ≤ b ∨ 30 ∣ b
  · rw [if_pos h, if_pos h, Int.add_zero]
  · rw [if_neg h, if_neg h]

theorem tmod_turn (angle : Int) :
    angle.tmod 360 = if 0 ≤ angle ∨ 360 ∣ angle then angle % 360 else angle % 360 - 360 := by
  rw [Int.tmod_eq_emod]
  by_cases h : 0 ≤ angle ∨ 360 ∣ angle
  · rw [if_pos h, if_pos h]
    exact Int.sub_zero _
  · rw [if_neg h, if_neg h]
    rfl

theorem sector16_eq (angle : Int) : sector16 angle = (angle + 15) / 30 % 12 := by
  unfold sector16
  extract_lets a a'
  -- the normalised angle is the residue
  have hres : a' = angle % 360 := by
    show (if angle.tmod 360 < 0 then angle.tmod 360 + 360 else angle.tmod 360) = _
    rw [tmod_turn]
    split <;> split <;> omega
  rw [Int.tdiv_eq_ediv_of_nonneg (by omega), hres]
  omega

theorem sector16_bounds (angle : Int) : 0 ≤ sector16 angle ∧ sector16 angle < 12 := by
  rw [sector16_eq]
  omega

theorem sector16_shift (angle k : Int) : sector16 (angle + 360 * k) = sector16 angle := by
  rw [sector16_eq, sector16_eq]
  omega

theorem nearest15_bounds (angle : Int) : 0 ≤ nearest15 angle ∧ nearest15 angle < 256 := by
  unfold nearest15
  omega

/-- An angle that `roundabout_icon` rounds as it should: less than a turn away from
−15, up to the 64 turns after which the byte comes round at a sector, and below −15
only at an exact multiple of 30 degrees. -/
def PlainAngle (angle : Int) : Prop :=
  (angle + 15) / 360 % 64 = 0 ∧ (0 ≤ angle + 15 ∨ 30 ∣ angle + 15)

instance (angle : Int) : Decidable (PlainAngle angle) := inferInstanceAs (Decidable (_ ∧ _))

/-- **The two roundings agree exactly at the plain angles.** -/
theorem nearest15_eq_sector16_iff (angle : Int) :
    nearest15 angle = sector16 angle ↔ PlainAngle angle := by
  rw [sector16_eq]
  unfold nearest15 PlainAngle
  rw [tdiv_thirty]
  by_cases hround : 0 ≤ angle + 15 ∨ 30 ∣ angle + 15
  · -- the same quotient, modulo 256 and modulo 12: equal below 12 of every 768
    rw [if_pos hround]
    omega
  · -- one more than the other, which modulo 4 neither byte nor sector forgives
    rw [if_neg hround]
    omega

/-- The angles whose glyph is in the side's own bank, be it the 1.6 one or not. -/
def BankAngle (angle : Int) : Prop :=
  (0 ≤ angle + 15 ∧ (angle + 15) % 7680 < 360) ∨
    (angle + 15 < 0 ∧ (-(angle + 15) % 7680 < 30 ∨ 7350 ≤ -(angle + 15) % 7680))

instance (angle : Int) : Decidable (BankAngle angle) :=
  inferInstanceAs (Decidable (_ ∨ _))

theorem nearest15_lt_iff (angle : Int) : nearest15 angle < 12 ↔ BankAngle angle := by
  unfold nearest15 BankAngle
  by_cases h : 0 ≤ angle + 15
  · rw [Int.tdiv_eq_ediv_of_nonneg h]
    omega
  · rw [tdiv_thirty]
    split <;> omega

theorem PlainAngle.bankAngle {angle : Int} (h : PlainAngle angle) : BankAngle angle := by
  rw [← nearest15_lt_iff, (nearest15_eq_sector16_iff angle).mpr h]
  exact (sector16_bounds angle).2

/-- The turns `k` that leave the byte alone: 64 of them are 768 steps of 30
degrees, and the rounding must not change its direction on the way. -/
def SameByte (angle k : Int) : Prop :=
  64 ∣ k ∧ ((0 ≤ angle + 15 ↔ 0 ≤ angle + 360 * k + 15) ∨ 30 ∣ angle + 15)

theorem nearest15_shift_iff (angle k : Int) :
    nearest15 (angle + 360 * k) = nearest15 angle ↔ SameByte angle k := by
  unfold nearest15 SameByte
  rw [tdiv_thirty, tdiv_thirty]
  split <;> split <;> omega

/-- From a plain angle, the turns that leave the byte alone lead to plain angles. -/
theorem plainAngle_shift_iff {angle k : Int} (h : PlainAngle angle) :
    PlainAngle (angle + 360 * k) ↔ SameByte angle k := by
  rw [← nearest15_eq_sector16_iff, sector16_shift, ← nearest15_shift_iff,
    (nearest15_eq_sector16_iff angle).mpr h]

/-! ## The glyphs -/

theorem roundaboutGlyph_eq (angle : Int32) (leftHand : Bool) :
    (roundaboutGlyph angle leftHand).toNat =
      bankBase leftHand + (sector16 angle.toInt).toNat := by
  have hbound := sector16_bounds angle.toInt
  have hsmall : (sector16 angle.toInt).toNat < 12 := by omega
  have hdef : roundaboutGlyph angle leftHand =
      (if leftHand then HUD_ROUNDABOUT_CW_BASE else HUD_ROUNDABOUT_CCW_BASE) +
        UInt8.ofNat (sector16 angle.toInt).toNat := rfl
  rw [hdef, UInt8.toNat_add, UInt8.toNat_ofNat']
  cases leftHand with
  | true =>
    rw [if_pos rfl, show HUD_ROUNDABOUT_CW_BASE.toNat = 49 from rfl]
    show _ = 49 + _
    omega
  | false =>
    rw [if_neg (by simp), show HUD_ROUNDABOUT_CCW_BASE.toNat = 37 from rfl]
    show _ = 37 + _
    omega

/-- The 1.6 glyph is in the bank of its side, and a turn does not change it. -/
theorem roundaboutGlyph_bank (angle : Int32) (leftHand : Bool) :
    bankBase leftHand ≤ (roundaboutGlyph angle leftHand).toNat ∧
      (roundaboutGlyph angle leftHand).toNat < bankBase leftHand + 12 := by
  have hbound := sector16_bounds angle.toInt
  rw [roundaboutGlyph_eq]
  omega

theorem roundaboutGlyph_shift {angle angle' : Int32} {k : Int}
    (h : angle'.toInt = angle.toInt + 360 * k) (leftHand : Bool) :
    roundaboutGlyph angle' leftHand = roundaboutGlyph angle leftHand := by
  rw [← UInt8.toNat_inj, roundaboutGlyph_eq, roundaboutGlyph_eq, h, sector16_shift]

theorem roundaboutIcon_toNat (angle : Int32) (leftHand : Bool) :
    (roundaboutIcon angle leftHand).toNat =
      (bankBase leftHand + (nearest15 angle.toInt).toNat) % 256 := by
  have hbound := nearest15_bounds angle.toInt
  have hdef : roundaboutIcon angle leftHand =
      UInt8.ofNat (nearest15 angle.toInt).toNat + if leftHand then 49 else 37 := rfl
  rw [hdef, UInt8.toNat_add, UInt8.toNat_ofNat']
  cases leftHand with
  | true =>
    rw [if_pos rfl, show (49 : UInt8).toNat = 49 from rfl]
    show _ = (49 + _) % 256
    omega
  | false =>
    rw [if_neg (by simp), show (37 : UInt8).toNat = 37 from rfl]
    show _ = (37 + _) % 256
    omega

/-- The 1.5 glyph of a roundabout, 13 being `ROUNDABOUT_ENTER_AND_EXIT`. -/
theorem computeTurnIcon_roundabout (side : UInt32) (angle : Int32) :
    (computeTurnIcon 13 side angle).toNat =
      (bankBase (side == 1) + (nearest15 angle.toInt).toNat) % 256 := by
  rw [← roundaboutIcon_toNat]
  exact UInt8.toNat_toUInt32 _

/-- The 1.6 maneuvers of a turn side: clockwise for left-hand traffic (32 and 33),
counterclockwise otherwise (34 and 35). -/
def roundaboutTypes (side : UInt32) : List UInt32 := if side = 1 then [32, 33] else [34, 35]

theorem hudNav16Glyph_roundabout {g : AaGuidance} {side : UInt32}
    (h : g.maneuverType ∈ roundaboutTypes side) :
    hudNav16Glyph g = roundaboutGlyph g.roundaboutExitAngle (side == 1) := by
  unfold hudNav16Glyph
  unfold roundaboutTypes at h
  by_cases hside : side = 1
  · rw [if_pos hside] at h
    have h' : g.maneuverType = 32 ∨ g.maneuverType = 33 := by simpa using h
    rw [if_pos h', hside]
    rfl
  · rw [if_neg hside] at h
    have h' : g.maneuverType = 34 ∨ g.maneuverType = 35 := by simpa using h
    rw [if_neg (by rcases h' with h' | h' <;> rw [h'] <;> decide), if_pos h',
      beq_false_of_ne hside]

/-- Both versions show the same glyph. -/
def RoundaboutAgrees (side : UInt32) (angle : Int32) : Prop :=
  ∀ g : AaGuidance, g.maneuverType ∈ roundaboutTypes side → g.roundaboutExitAngle = angle →
    computeTurnIcon 13 side angle = (hudNav16Glyph g).toUInt32

/-- The 1.5 glyph is one of the side's twelve. -/
def InBank (side : UInt32) (angle : Int32) : Prop :=
  bankBase (side == 1) ≤ (computeTurnIcon 13 side angle).toNat ∧
    (computeTurnIcon 13 side angle).toNat < bankBase (side == 1) + 12

theorem roundaboutAgrees_iff (side : UInt32) (angle : Int32) :
    RoundaboutAgrees side angle ↔ PlainAngle angle.toInt := by
  have h16 := sector16_bounds angle.toInt
  have h15 := nearest15_bounds angle.toInt
  have hbase : bankBase (side == 1) ≤ 49 := by
    unfold bankBase
    split <;> omega
  -- equal glyphs are equal sectors: the base is the same and the sum comes round at 256
  have hglyph : ∀ g : AaGuidance, g.maneuverType ∈ roundaboutTypes side →
      g.roundaboutExitAngle = angle →
      (computeTurnIcon 13 side angle = (hudNav16Glyph g).toUInt32 ↔
        nearest15 angle.toInt = sector16 angle.toInt) := by
    intro g htype hangle
    rw [← UInt32.toNat_inj, UInt8.toNat_toUInt32, computeTurnIcon_roundabout,
      hudNav16Glyph_roundabout htype, roundaboutGlyph_eq, hangle]
    omega
  rw [← nearest15_eq_sector16_iff]
  constructor
  · intro h
    -- some 1.6 maneuver has this side and this angle
    obtain ⟨t, ht⟩ : ∃ t, t ∈ roundaboutTypes side := by
      unfold roundaboutTypes
      split
      · exact ⟨32, by simp⟩
      · exact ⟨34, by simp⟩
    let g : AaGuidance := { maneuverType := t, roundaboutExitAngle := angle }
    exact (hglyph g ht rfl).mp (h g ht rfl)
  · intro h g htype hangle
    exact (hglyph g htype hangle).mpr h

theorem inBank_iff (side : UInt32) (angle : Int32) :
    InBank side angle ↔ BankAngle angle.toInt := by
  have h15 := nearest15_bounds angle.toInt
  have hbase : 37 ≤ bankBase (side == 1) ∧ bankBase (side == 1) ≤ 49 := by
    unfold bankBase
    split <;> omega
  rw [← nearest15_lt_iff]
  unfold InBank
  rw [computeTurnIcon_roundabout]
  omega

theorem computeTurnIcon_shift_iff {angle angle' : Int32} {k : Int}
    (h : angle'.toInt = angle.toInt + 360 * k) (side : UInt32) :
    computeTurnIcon 13 side angle' = computeTurnIcon 13 side angle ↔
      SameByte angle.toInt k := by
  have h15 := nearest15_bounds angle.toInt
  have h15' := nearest15_bounds angle'.toInt
  rw [← nearest15_shift_iff, ← h, ← UInt32.toNat_inj, computeTurnIcon_roundabout,
    computeTurnIcon_roundabout]
  omega

/-- **The 1.5 glyph of a roundabout against the 1.6 one**: the same glyph, one of its
side's, and that of the same exit `k` turns on, exactly at two plain angles; and when
each of the three holds. -/
theorem roundabout_iff (side : UInt32) (angle angle' : Int32) (k : Int)
    (h : angle'.toInt = angle.toInt + 360 * k) :
    (RoundaboutAgrees side angle ∧ InBank side angle ∧
        computeTurnIcon 13 side angle' = computeTurnIcon 13 side angle ↔
      PlainAngle angle.toInt ∧ PlainAngle angle'.toInt) ∧
      (RoundaboutAgrees side angle ↔ PlainAngle angle.toInt) ∧
      (InBank side angle ↔ BankAngle angle.toInt) ∧
      (computeTurnIcon 13 side angle' = computeTurnIcon 13 side angle ↔
        SameByte angle.toInt k) := by
  have hagrees := roundaboutAgrees_iff side angle
  have hbank := inBank_iff side angle
  have hshift := computeTurnIcon_shift_iff h side
  refine ⟨⟨?_, ?_⟩, hagrees, hbank, hshift⟩
  · rintro ⟨h16, -, hsame⟩
    have hplain := hagrees.mp h16
    refine ⟨hplain, ?_⟩
    rw [h]
    exact (plainAngle_shift_iff hplain).mpr (hshift.mp hsame)
  · rintro ⟨hplain, hplain'⟩
    rw [h] at hplain'
    -- a glyph shared with 1.6 is in the bank
    exact ⟨hagrees.mpr hplain, hbank.mpr hplain.bankAngle,
      hshift.mpr ((plainAngle_shift_iff hplain).mp hplain')⟩

/-- An exit to the right, and the same after one turn, which is 1.5's byte 15. -/
theorem roundabout_iff_right :
    (RoundaboutAgrees 2 90 ∧ InBank 2 90 ∧
        computeTurnIcon 13 2 450 = computeTurnIcon 13 2 90 ↔
      PlainAngle 90 ∧ PlainAngle 450) ∧
      (RoundaboutAgrees 2 90 ↔ PlainAngle 90) ∧
      (InBank 2 90 ↔ BankAngle 90) ∧
      (computeTurnIcon 13 2 450 = computeTurnIcon 13 2 90 ↔ SameByte 90 1) :=
  roundabout_iff 2 90 450 1 (by decide)

/-- At 345 degrees in right-hand traffic, 1.6 is back at the first glyph, and 1.5 at
the first of the other bank; −15 degrees, the same exit, is right. -/
theorem roundabout_other_bank :
    ¬RoundaboutAgrees 2 345 ∧ ¬InBank 2 345 ∧
      (345 : Int32).toInt = (-15 : Int32).toInt + 360 * 1 ∧
      computeTurnIcon 13 2 345 ≠ computeTurnIcon 13 2 (-15) :=
  ⟨(roundaboutAgrees_iff 2 345).not.mpr (by decide), (inBank_iff 2 345).not.mpr (by decide),
    by decide, by decide⟩

end OemAaMod
