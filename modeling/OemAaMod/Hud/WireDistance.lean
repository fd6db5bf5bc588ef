import OemAaMod.Carplay.Send
import OemAaMod.Hud.Mirror

/-!
# Distances on the wire

A maneuver frame has 16 bits for a distance of 32. The Android Auto sender casts to
them, and the CarPlay sender saturates, "so a far maneuver (>65535) can't wrap to a
tiny value".

* `IsVbsFrame`, `IsCarplayFrame` — the maneuver frames of either sender;
* `carplay_neverNearer` — what CarPlay shows grows with the distance;
* `sameEncoding_iff` — the distances both senders encode alike;
* `wireDistance_iff` — exactly when the order of two distances survives.
-/

namespace OemAaMod

/-- The distance that 16 bits come nearest to. -/
def saturated (d : Int) : Int := max 0 (min d 65535)

theorem saturated_mono {d₁ d₂ : Int} (h : d₁ ≤ d₂) : saturated d₁ ≤ saturated d₂ := by
  unfold saturated
  omega

/-- The distances whose low 16 bits are the saturated ones: those that fit, and every
65536th below and above. -/
def FitsWire (d : Int) : Prop :=
  (0 ≤ d ∧ d ≤ 65535) ∨ (d < 0 ∧ 65536 ∣ d) ∨ (65535 < d ∧ d % 65536 = 65535)

instance (d : Int) : Decidable (FitsWire d) := inferInstanceAs (Decidable (_ ∨ _ ∨ _))

theorem emod_eq_saturated_iff (d : Int) : d % 2 ^ 16 = saturated d ↔ FitsWire d := by
  unfold saturated FitsWire
  rw [show (2 : Int) ^ 16 = 65536 from rfl]
  by_cases hneg : d < 0
  · -- below 0 only a multiple comes round to 0
    rw [min_eq_left (by omega), max_eq_left (by omega)]
    omega
  · by_cases hfit : d ≤ 65535
    · rw [min_eq_left hfit, max_eq_right (by omega)]
      omega
    · rw [min_eq_right (by omega), max_eq_right (by decide)]
      omega

/-! ## The frames -/

/-- A maneuver frame of the Android Auto sender for a distance. -/
def IsVbsFrame (dist : Int32) (unit : UInt8) (disp : VbsNaviHudDisplay) : Prop :=
  ∃ (hudAbsent : Bool) (cur prev : NaviSnapshot) (syncBit : UInt8),
    cur.distanceDec = dist ∧ cur.distanceUnit = unit ∧
      .display disp ∈ (vbsSendOne hudAbsent cur prev syncBit).1

/-- A maneuver frame of the CarPlay sender for a distance. -/
def IsCarplayFrame (dist : Int32) (unit : UInt8) (disp : VbsNaviHudDisplay) : Prop :=
  ∃ (cfg : Carplay.Config) (cur prev : Carplay.NaviSnapshot) (syncBit : UInt8) (splim : UInt16)
    (splimChanged force : Bool) (msg2 : VbsNaviHudMsg2),
    cur.distanceDec = dist ∧ cur.distanceUnit = unit ∧
      (Carplay.sendOne cfg cur prev syncBit splim splimChanged force).1 = some (disp, msg2)

variable {dist d₁ d₂ : Int32} {unit : UInt8} {disp : VbsNaviHudDisplay}

theorem IsVbsFrame.distanceValue (h : IsVbsFrame dist unit disp) :
    (disp.distanceValue.toNat : Int) = dist.toInt % 2 ^ 16 := by
  obtain ⟨hudAbsent, cur, prev, syncBit, rfl, -, hsent⟩ := h
  -- what is sent carries the snapshot
  obtain ⟨-, hdist, -⟩ := sendOne_shows .vbs hudAbsent cur prev syncBit _ hsent
  rw [hdist]
  exact toUInt16_eq_emod cur.distanceDec

theorem exists_vbsFrame (dist : Int32) (unit : UInt8) : ∃ disp, IsVbsFrame dist unit disp := by
  -- a first maneuver is sent whatever its distance
  let cur : NaviSnapshot := { dirIcon := 1, distanceDec := dist, distanceUnit := unit }
  have hsent := vbsSendOne_cases cur {} 0
  generalize hmsgs : vbsSendOne false cur {} 0 = sent at hsent
  have hnew : ¬SameManeuver cur {} := fun h => absurd (show (1 : UInt32) = 0 from h.2.1) (by decide)
  refine ⟨vbsFrame cur (0 % 7 + 1), false, cur, {}, 0, rfl, rfl, ?_⟩
  rw [hmsgs]
  cases hsent with
  | quiet hsame => exact absurd hsame hnew
  | tick hsame => exact absurd hsame hnew
  | generation => exact List.mem_cons_self
  | lanes => exact List.mem_cons_self

theorem carplay_distanceValue (s : Carplay.NaviSnapshot) :
    (s.distanceValue.toNat : Int) = saturated s.distanceDec.toInt := by
  unfold Carplay.NaviSnapshot.distanceValue saturated
  by_cases hneg : s.distanceDec < 0
  · have hint : s.distanceDec.toInt < 0 := Int32.lt_iff_toInt_lt.mp hneg
    rw [if_pos hneg, min_eq_left (by omega), max_eq_left (by omega)]
    rfl
  · have hint : 0 ≤ s.distanceDec.toInt := Int.not_lt.mp fun h => hneg (Int32.lt_iff_toInt_lt.mpr h)
    rw [if_neg hneg]
    dsimp only
    by_cases hfar : s.distanceDec > 0xFFFF
    · have hint' : 65535 < s.distanceDec.toInt := Int32.lt_iff_toInt_lt.mp hfar
      rw [if_pos hfar, min_eq_right (by omega), max_eq_right (by decide)]
      rfl
    · -- in range the cast keeps the value
      have hint' : s.distanceDec.toInt ≤ 65535 :=
        Int.not_lt.mp fun h => hfar (Int32.lt_iff_toInt_lt.mpr h)
      rw [if_neg hfar, min_eq_left hint', max_eq_right hint, toUInt16_eq_emod]
      omega

theorem IsCarplayFrame.distanceValue (h : IsCarplayFrame dist unit disp) :
    (disp.distanceValue.toNat : Int) = saturated dist.toInt := by
  obtain ⟨cfg, cur, prev, syncBit, splim, splimChanged, force, msg2, rfl, -, hsent⟩ := h
  rw [← carplay_distanceValue]
  unfold Carplay.sendOne at hsent
  -- a frame that is sent is filled from the snapshot
  split at hsent
  · simp only [Option.some_inj, Prod.mk.injEq] at hsent
    rw [← hsent.1]
  · exact absurd hsent (by simp)

theorem exists_carplayFrame (dist : Int32) (unit : UInt8) :
    ∃ disp, IsCarplayFrame dist unit disp := by
  let cur : Carplay.NaviSnapshot := { distanceDec := dist, distanceUnit := unit }
  -- a forced send goes out
  obtain ⟨⟨disp, msg2⟩, hsent⟩ : ∃ sent,
      (Carplay.sendOne ⟨false, false, false⟩ cur cur 0 0 false true).1 = some sent := by
    unfold Carplay.sendOne
    rw [if_pos (Or.inr (Or.inr rfl))]
    exact ⟨_, rfl⟩
  exact ⟨disp, ⟨false, false, false⟩, cur, cur, 0, 0, false, true, msg2, rfl, rfl, hsent⟩

/-! ## Order and agreement -/

/-- Of the same unit, the frame of the first distance does not show more than that of
the second. -/
def NeverNearer (d₁ d₂ : Int32) : Prop :=
  ∀ unit disp₁ disp₂, IsVbsFrame d₁ unit disp₁ → IsVbsFrame d₂ unit disp₂ →
    disp₁.distanceValue ≤ disp₂.distanceValue

/-- Both senders show the saturated distance. -/
def SameEncoding (dist : Int32) : Prop :=
  ∀ unit disp disp', IsVbsFrame dist unit disp → IsCarplayFrame dist unit disp' →
    disp.distanceValue = disp'.distanceValue ∧
      (disp.distanceValue.toNat : Int) = saturated dist.toInt

theorem neverNearer_iff : NeverNearer d₁ d₂ ↔ d₁.toInt % 2 ^ 16 ≤ d₂.toInt % 2 ^ 16 := by
  have hle : ∀ {unit disp₁ disp₂}, IsVbsFrame d₁ unit disp₁ → IsVbsFrame d₂ unit disp₂ →
      (disp₁.distanceValue ≤ disp₂.distanceValue ↔ d₁.toInt % 2 ^ 16 ≤ d₂.toInt % 2 ^ 16) := by
    intro unit disp₁ disp₂ h₁ h₂
    rw [UInt16.le_iff_toNat_le, ← h₁.distanceValue, ← h₂.distanceValue, Int.ofNat_le]
  -- every distance has a frame, so the statement about all frames is one about two numbers
  constructor
  · intro h
    obtain ⟨disp₁, h₁⟩ := exists_vbsFrame d₁ 1
    obtain ⟨disp₂, h₂⟩ := exists_vbsFrame d₂ 1
    exact (hle h₁ h₂).mp (h 1 disp₁ disp₂ h₁ h₂)
  · exact fun h unit disp₁ disp₂ h₁ h₂ => (hle h₁ h₂).mpr h

theorem sameEncoding_iff : SameEncoding dist ↔ FitsWire dist.toInt := by
  rw [← emod_eq_saturated_iff]
  constructor
  · intro h
    -- both senders have a frame for the distance
    obtain ⟨disp, hvbs⟩ := exists_vbsFrame dist 1
    obtain ⟨disp', hcarplay⟩ := exists_carplayFrame dist 1
    rw [← hvbs.distanceValue]
    exact (h 1 disp disp' hvbs hcarplay).2
  · intro h unit disp disp' hvbs hcarplay
    have hvalue := hvbs.distanceValue.trans h
    refine ⟨?_, hvalue⟩
    rw [← UInt16.toNat_inj, ← Int.ofNat_inj]
    exact hvalue.trans hcarplay.distanceValue.symm

/-- **CarPlay never shows a farther maneuver as nearer.** -/
theorem carplay_neverNearer {disp₁ disp₂ : VbsNaviHudDisplay} {unit₁ unit₂ : UInt8}
    (h : d₁ ≤ d₂) (h₁ : IsCarplayFrame d₁ unit₁ disp₁) (h₂ : IsCarplayFrame d₂ unit₂ disp₂) :
    disp₁.distanceValue ≤ disp₂.distanceValue := by
  rw [UInt16.le_iff_toNat_le, ← Int.ofNat_le]
  calc (disp₁.distanceValue.toNat : Int) = saturated d₁.toInt := h₁.distanceValue
    _ ≤ saturated d₂.toInt := saturated_mono (Int32.le_iff_toInt_le.mp h)
    _ = disp₂.distanceValue.toNat := h₂.distanceValue.symm

/-- **The order of two distances and the agreement of the senders on both** hold exactly
when both fit the wire; the order alone, and the agreement on one, as follows. -/
theorem wireDistance_iff (h : d₁ ≤ d₂) :
    (NeverNearer d₁ d₂ ∧ SameEncoding d₁ ∧ SameEncoding d₂ ↔
      FitsWire d₁.toInt ∧ FitsWire d₂.toInt) ∧
      (NeverNearer d₁ d₂ ↔ d₁.toInt % 2 ^ 16 ≤ d₂.toInt % 2 ^ 16) ∧
      ∀ dist, SameEncoding dist ↔ FitsWire dist.toInt := by
  refine ⟨⟨?_, ?_⟩, neverNearer_iff, fun _ => sameEncoding_iff⟩
  · exact fun hall => ⟨sameEncoding_iff.mp hall.2.1, sameEncoding_iff.mp hall.2.2⟩
  · rintro ⟨hfit₁, hfit₂⟩
    refine ⟨?_, sameEncoding_iff.mpr hfit₁, sameEncoding_iff.mpr hfit₂⟩
    -- saturation keeps the order
    rw [neverNearer_iff, (emod_eq_saturated_iff _).mpr hfit₁, (emod_eq_saturated_iff _).mpr hfit₂]
    exact saturated_mono (Int32.le_iff_toInt_le.mp h)

/-- 50 m and 6553.5 m, in metres. -/
theorem wireDistance_iff_metres :
    (NeverNearer 500 65535 ∧ SameEncoding 500 ∧ SameEncoding 65535 ↔
      FitsWire (500 : Int32).toInt ∧ FitsWire (65535 : Int32).toInt) ∧
      (NeverNearer 500 65535 ↔ (500 : Int32).toInt % 2 ^ 16 ≤ (65535 : Int32).toInt % 2 ^ 16) ∧
      ∀ dist, SameEncoding dist ↔ FitsWire dist.toInt :=
  wireDistance_iff (by decide)

/-- 6553.6 m are shown as 0, and 6553.5 m as they are. -/
theorem far_shown_as_zero :
    (65535 : Int32) ≤ 65536 ∧ ¬NeverNearer 65535 65536 ∧ ¬SameEncoding 65536 :=
  ⟨by decide, neverNearer_iff.not.mpr (by decide), sameEncoding_iff.not.mpr (by decide)⟩

end OemAaMod
