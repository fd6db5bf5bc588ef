import Mathlib.Order.Monotone.Basic
import Mathlib.Tactic

/-!
# Quantisers with a step for each range

A quantiser moves a value to a nearby grid point. Two of them are pasted at a
threshold, so that near values are rounded finely and far ones coarsely.

* `Steady` — monotone, and a value it returns is one it leaves alone;
* `Steady.paste` — pasted where both leave the threshold alone, it is steady again:
  what is rounded up to the threshold is a grid point of the coarser range;
* `nearest` — the nearest multiple, halves up: steady, and within half a step.
-/

namespace Quantizer

section Paste

variable {α : Type*} [LinearOrder α] {f g : α → α} {t : α}

/-- Monotone, and stable on what it returns. -/
structure Steady (f : α → α) : Prop where
  mono : Monotone f
  idem : ∀ v, f (f v) = f v

theorem steady_id : Steady (id : α → α) := ⟨monotone_id, fun _ => rfl⟩

/-- `f` below the threshold, `g` from it on. -/
def paste (t : α) (f g : α → α) (v : α) : α := if t ≤ v then g v else f v

theorem paste_of_le {v : α} (h : t ≤ v) : paste t f g v = g v := if_pos h

theorem paste_of_lt {v : α} (h : v < t) : paste t f g v = f v := if_neg h.not_ge

/-- **The seam.** A threshold that both sides leave alone separates their values. -/
theorem Steady.paste (hf : Steady f) (hg : Steady g) (hft : f t = t) (hgt : g t = t) :
    Steady (paste t f g) where
  mono := by
    intro v w hvw
    rcases lt_or_ge v t with hv | hv
    · rw [paste_of_lt hv]
      rcases lt_or_ge w t with hw | hw
      · rw [paste_of_lt hw]
        exact hf.mono hvw
      · -- across the seam, by way of the threshold
        rw [paste_of_le hw]
        calc f v ≤ f t := hf.mono hv.le
          _ = g t := hft.trans hgt.symm
          _ ≤ g w := hg.mono hw
    · rw [paste_of_le hv, paste_of_le (hv.trans hvw)]
      exact hg.mono hvw
  idem := by
    intro v
    rcases lt_or_ge v t with hv | hv
    · have hle : f v ≤ t := (hf.mono hv.le).trans_eq hft
      rw [paste_of_lt hv]
      rcases hle.lt_or_eq with hlt | heq
      · rw [paste_of_lt hlt]
        exact hf.idem v
      · -- rounded up to the threshold: the other side leaves it there
        rw [heq, paste_of_le le_rfl]
        exact hgt
    · have hle : t ≤ g v := hgt.symm.trans_le (hg.mono hv)
      rw [paste_of_le hv, paste_of_le hle]
      exact hg.idem v

end Paste

/-! ## Rounding to a multiple -/

/-- The nearest multiple of `q`, halves up. -/
def nearest (q v : Int) : Int := (v + q / 2) / q * q

variable {q v : Int}

/-- A multiple stays where it is. -/
theorem nearest_of_dvd (hq : 0 < q) (h : q ∣ v) : nearest q v = v := by
  obtain ⟨k, rfl⟩ := h
  have hhalf : q / 2 / q = 0 := Int.ediv_eq_zero_of_lt (by omega) (by omega)
  have hdiv : (q * k + q / 2) / q = k := by
    rw [Int.add_comm, Int.add_mul_ediv_left _ _ (by omega), hhalf, Int.zero_add]
  rw [nearest, hdiv, Int.mul_comm]

theorem steady_nearest (hq : 0 < q) : Steady (nearest q) where
  mono := by
    intro v w hvw
    have hdiv : (v + q / 2) / q ≤ (w + q / 2) / q := Int.ediv_le_ediv hq (by omega)
    exact Int.mul_le_mul_of_nonneg_right hdiv hq.le
  idem := fun _ => nearest_of_dvd hq (Int.dvd_mul_left ..)

/-- The error is at most half a step. -/
theorem nearest_close (hq : 0 < q) (v : Int) : |nearest q v - v| ≤ q / 2 := by
  have hrest : nearest q v - v = q / 2 - (v + q / 2) % q := by
    have := Int.mul_ediv_add_emod (v + q / 2) q
    rw [nearest, Int.mul_comm]
    omega
  have hlo := Int.emod_nonneg (v + q / 2) (by omega : q ≠ 0)
  have hhi := Int.emod_lt_of_pos (v + q / 2) hq
  rw [hrest, abs_le]
  omega

end Quantizer
