import Mathlib.Data.List.TakeWhile
import OemAaMod.Lib.Decimal
import OemAaMod.Lib.Quantizer
import OemAaMod.Hud.Glyph

/-!
# The displayed distance in 32 bits

`parse_dist_x10` and `quantize_dist_x10` as the head unit runs them, with `int` and
`long` of 32 bits: every sum and product is checked, and there is no value once one
leaves the range.

* `parseDist32`, `quantizeDist32` — the two functions with checked arithmetic;
* `scanDist32_eq` — the accumulation never leaves the range, as its comment says;
* `parseDist32_eq`, `quantizeDist32_eq` — the rest does, on large numbers;
* `dist32_iff` — exactly when there is a distance, and which it is for a decimal;
* `quantizeDistX10_steady` — the figure follows the distance: never the other way, the
  same when it is quantised again, and at most half a step off.
-/

namespace OemAaMod

open CStr (Bytes cstr)
open Decimal (valueOf decimal readCapped)
open Quantizer (Steady paste nearest)

/-! ## Checked arithmetic -/

/-- One sum or product, if it fits. -/
def i32 (x : Int) : Option Int :=
  if -2147483648 ≤ x ∧ x ≤ 2147483647 then some x else none

theorem i32_of_le {x : Int} (hlo : 0 ≤ x) (hhi : x ≤ 2147483647) : i32 x = some x :=
  if_pos ⟨by omega, hhi⟩

theorem i32_of_lt {x : Int} (h : 2147483647 < x) : i32 x = none := if_neg (by omega)

/-- The loop of `parse_dist_x10`. -/
def scanDist32 (s : DistScan) : Bytes → Option DistScan
  | [] => some s
  | p :: ps =>
    if 0x30 ≤ p ∧ p ≤ 0x39 then
      let d := p.toNat - 0x30
      if s.sep then some { s with frac := d }
      else if s.ip < 100000000 then do
        let tens ← i32 (s.ip * 10)
        let ip ← i32 (tens + d)
        scanDist32 { s with ip := ip.toNat, any := true } ps
      else scanDist32 { s with any := true } ps
    else if p = 0x2c ∨ p = 0x2e then scanDist32 { s with sep := true } ps
    else scanDist32 s ps

/-- `parse_dist_x10`. -/
def parseDist32 (s : Bytes) : Option Int := do
  let r ← scanDist32 {} (cstr s)
  if r.any then
    let tens ← i32 (r.ip * 10)
    i32 (tens + r.frac)
  else some 0

/-- A step of `quantize_dist_x10`: rounded to a multiple of `q`. -/
def roundTo32 (v half q : Int) : Option Int := do
  let sum ← i32 (v + half)
  i32 (sum / q * q)

/-- `quantize_dist_x10`. -/
def quantizeDist32 (v : Int) (mazdaUnit : UInt8) : Option Int :=
  if v < 0 then some 0
  else if mazdaUnit = 2 ∨ mazdaUnit = 3 then some v
  else if 5000 ≤ v then roundTo32 v 250 500
  else if 1000 ≤ v then roundTo32 v 50 100
  else if 200 ≤ v then roundTo32 v 25 50
  else some v

/-! ## The characters -/

def isDigit (p : UInt8) : Bool := 0x30 ≤ p ∧ p ≤ 0x39

def isSep (p : UInt8) : Bool := p = 0x2c ∨ p = 0x2e

/-- The digits among the characters; the others count for nothing. -/
def digits (s : Bytes) : List Nat := (s.filter isDigit).map fun p => p.toNat - 0x30

/-- The digits before the first separator. -/
def intDigits (s : Bytes) : List Nat := digits (s.takeWhile (!isSep ·))

/-- The first digit behind it, or 0. -/
def fracDigit (s : Bytes) : Nat := (digits (s.dropWhile (!isSep ·))).headD 0

theorem digits_cons (p : UInt8) (s : Bytes) :
    digits (p :: s) = if isDigit p then (p.toNat - 0x30) :: digits s else digits s := by
  unfold digits
  rw [List.filter_cons]
  split <;> rfl

theorem digits_lt (s : Bytes) : ∀ d ∈ digits s, d < 10 := by
  intro d hd
  obtain ⟨p, hp, rfl⟩ := List.mem_map.mp hd
  have hdigit := (List.mem_filter.mp hp).2
  simp only [isDigit, decide_eq_true_eq, UInt8.le_iff_toNat_le] at hdigit
  have : p.toNat ≤ 57 := hdigit.2
  omega

theorem not_isDigit_of_isSep {p : UInt8} (h : isSep p = true) : isDigit p = false := by
  simp only [isSep, decide_eq_true_eq] at h
  rcases h with rfl | rfl <;> rfl

/-! ## The loop -/

/-- The accumulation stays in range: below the cap there is room for one more digit. -/
theorem scanDist32_eq (ps : Bytes) :
    ∀ s : DistScan, s.ip ≤ 999999999 → scanDist32 s ps = some (scanDist s ps) := by
  induction ps with
  | nil => exact fun s _ => rfl
  | cons p ps ih =>
    intro s hip
    rw [scanDist32, scanDist]
    by_cases hdigit : 0x30 ≤ p ∧ p ≤ 0x39
    · -- a digit: behind the separator it is kept, before it it is added below the cap
      rw [if_pos hdigit, if_pos hdigit]
      have hle : p.toNat - 0x30 ≤ 9 := by
        have : p.toNat ≤ 57 := UInt8.le_iff_toNat_le.mp hdigit.2
        omega
      generalize p.toNat - 0x30 = d at hle
      dsimp only
      by_cases hsep : s.sep = true
      · rw [if_pos hsep, if_pos hsep]
      · rw [if_neg hsep, if_neg hsep]
        by_cases hcap : s.ip < 100000000
        · -- below 100000000 ten times as much and a digit is below 1000000000
          have htens : i32 (s.ip * 10) = some ((s.ip * 10 : Nat) : Int) :=
            i32_of_le (by omega) (by omega)
          have hsum : i32 (((s.ip * 10 : Nat) : Int) + d) = some ((s.ip * 10 + d : Nat) : Int) :=
            i32_of_le (by omega) (by omega)
          rw [if_pos hcap, if_pos hcap, htens, Option.bind_eq_bind, Option.bind_some, hsum,
            Option.bind_some, Int.toNat_natCast]
          exact ih _ (show s.ip * 10 + d ≤ 999999999 by omega)
        · -- from the cap on, digits are dropped
          rw [if_neg hcap, if_neg hcap]
          exact ih _ hip
    · -- a separator or a character that counts for nothing
      rw [if_neg hdigit, if_neg hdigit]
      split
      · exact ih _ hip
      · exact ih _ hip

/-- Behind the separator the first digit is taken and nothing else changes. -/
theorem scanDist_sep (ps : Bytes) :
    ∀ s : DistScan, s.sep = true →
      scanDist s ps = { s with frac := (digits ps).headD s.frac } := by
  induction ps with
  | nil => exact fun s _ => rfl
  | cons p ps ih =>
    intro s hsep
    rw [scanDist, digits_cons]
    by_cases hdigit : 0x30 ≤ p ∧ p ≤ 0x39
    · have hd : isDigit p = true := decide_eq_true hdigit
      rw [if_pos hdigit, if_pos hd]
      dsimp only
      rw [if_pos hsep]
      rfl
    · have hd : ¬isDigit p = true := fun h => hdigit (of_decide_eq_true h)
      rw [if_neg hdigit, if_neg hd]
      split
      · rw [ih _ rfl, hsep]
      · exact ih s hsep

/-- Before it, the digits are read with the cap. -/
theorem scanDist_int (ps : Bytes) :
    ∀ s : DistScan, s.sep = false →
      (scanDist s ps).ip = readCapped 100000000 s.ip (intDigits ps) ∧
      (scanDist s ps).frac = (digits (ps.dropWhile (!isSep ·))).headD s.frac ∧
      (scanDist s ps).any = (s.any || !(intDigits ps).isEmpty) := by
  induction ps with
  | nil =>
    intro s _
    exact ⟨rfl, rfl, (Bool.or_false _).symm⟩
  | cons p ps ih =>
    intro s hsep
    rw [scanDist, intDigits, List.takeWhile_cons, List.dropWhile_cons]
    -- a digit is no separator, so the part before the separator goes on
    by_cases hdigit : 0x30 ≤ p ∧ p ≤ 0x39
    · have hd : isDigit p = true := decide_eq_true hdigit
      have hs : isSep p = false := by
        rw [Bool.eq_false_iff]
        intro h
        rw [not_isDigit_of_isSep h] at hd
        exact absurd hd (by simp)
      rw [if_pos hdigit, hs]
      dsimp only
      rw [if_neg (by simp [hsep])]
      simp only [Bool.not_false, if_true, digits_cons, hd, Decimal.readCapped_cons]
      obtain ⟨hip, hfrac, hany⟩ := ih
        { s with ip := if s.ip < 100000000 then s.ip * 10 + (p.toNat - 0x30) else s.ip, any := true }
        hsep
      exact ⟨hip, hfrac, by rw [hany]; simp⟩
    · have hd : ¬isDigit p = true := fun h => hdigit (of_decide_eq_true h)
      rw [if_neg hdigit]
      by_cases hs : p = 0x2c ∨ p = 0x2e
      · -- the separator: nothing more is read before it
        have hs' : isSep p = true := decide_eq_true hs
        rw [if_pos hs, scanDist_sep _ _ rfl, hs']
        refine ⟨rfl, ?_, (Bool.or_false _).symm⟩
        simp only [Bool.not_true, Bool.false_eq_true, if_false, digits_cons, hd]
      · -- neither: skipped on both sides
        have hs' : isSep p = false := decide_eq_false hs
        rw [if_neg hs, hs']
        simp only [Bool.not_false, if_true, digits_cons, hd]
        exact ih s hsep

/-! ## The results -/

/-- Ten times the number of the first nine significant digits, and the decimal place. -/
def distNumber (s : Bytes) : Nat :=
  valueOf (((intDigits s).dropWhile (· == 0)).take 9) * 10 + fracDigit s

theorem fracDigit_lt (s : Bytes) : fracDigit s < 10 := by
  unfold fracDigit
  cases h : digits (s.dropWhile (!isSep ·)) with
  | nil => decide
  | cons d ds => exact digits_lt _ d (h ▸ List.mem_cons_self)

/-- **`parse_dist_x10` in 32 bits**: a string without digits before the separator is 0,
and any other its number, if that fits. -/
theorem parseDist32_eq (s : Bytes) :
    parseDist32 s = if intDigits (cstr s) = [] then some 0 else i32 (distNumber (cstr s)) := by
  obtain ⟨hip, hfrac, hany⟩ := scanDist_int (cstr s) {} rfl
  have hcap : readCapped 100000000 0 (intDigits (cstr s)) =
      valueOf (((intDigits (cstr s)).dropWhile (· == 0)).take 9) :=
    Decimal.readCapped_eq 8 (digits_lt _)
  have hf : (scanDist {} (cstr s)).frac = fracDigit (cstr s) := hfrac
  rw [parseDist32, scanDist32_eq _ _ (by decide), Option.bind_eq_bind, Option.bind_some, hip, hf,
    hany, hcap]
  unfold distNumber
  generalize valueOf (((intDigits (cstr s)).dropWhile (· == 0)).take 9) = n
  have hlt := fracDigit_lt (cstr s)
  by_cases hnil : intDigits (cstr s) = []
  · rw [if_pos hnil, if_neg (by simp [hnil])]
  · rw [if_neg hnil, if_pos (by simpa using hnil)]
    -- the digit is too small to bring a product back into range
    by_cases hfit : n * 10 ≤ 2147483647
    · rw [i32_of_le (by omega) (by omega), Option.bind_eq_bind, Option.bind_some]
      push_cast
      rfl
    · rw [i32_of_lt (by omega), Option.bind_eq_bind, Option.bind_none,
        i32_of_lt (by push_cast; omega)]

/-- The largest distance that a unit leaves room to round. -/
def distLimit (mazdaUnit : UInt8) : Int :=
  if mazdaUnit = 2 ∨ mazdaUnit = 3 then 2147483647 else 2147483397

theorem roundTo32_eq {v half q : Int} (hq : 0 < q) (h0 : 0 ≤ v) (hhalf : 0 ≤ half)
    (hv : v + half ≤ 2147483647) : roundTo32 v half q = some ((v + half) / q * q) := by
  have hle : (v + half) / q * q ≤ v + half := Int.ediv_mul_le _ (by omega)
  have hnonneg : 0 ≤ (v + half) / q * q :=
    Int.mul_nonneg (Int.ediv_nonneg (by omega) (by omega)) (by omega)
  rw [roundTo32, i32_of_le (by omega) hv, Option.bind_eq_bind, Option.bind_some,
    i32_of_le hnonneg (by omega)]

/-- **`quantize_dist_x10` in 32 bits**: the model's value up to the limit, none behind it. -/
theorem quantizeDist32_eq {v : Int} (h0 : 0 ≤ v) (hv : v ≤ 2147483647) (mazdaUnit : UInt8) :
    quantizeDist32 v mazdaUnit =
      if v ≤ distLimit mazdaUnit then some (quantizeDist v mazdaUnit) else none := by
  unfold quantizeDist32 quantizeDist distLimit
  have hneg : ¬v < 0 := by omega
  rw [if_neg hneg, if_neg hneg]
  by_cases hunit : mazdaUnit = 2 ∨ mazdaUnit = 3
  · rw [if_pos hunit, if_pos hunit, if_pos hunit, if_pos hv]
  · rw [if_neg hunit, if_neg hunit, if_neg hunit]
    by_cases hfar : 5000 ≤ v
    · rw [if_pos hfar, if_pos hfar]
      by_cases hfit : v ≤ 2147483397
      · rw [if_pos hfit, roundTo32_eq (by decide) h0 (by decide) (by omega)]
      · -- half a step too many: the sum leaves the range before it is divided
        rw [if_neg hfit, roundTo32, i32_of_lt (by omega)]
        rfl
    · -- nearer distances are far from the limit
      rw [if_neg hfar, if_neg hfar, if_pos (show v ≤ 2147483397 by omega)]
      by_cases hmid : 1000 ≤ v
      · rw [if_pos hmid, if_pos hmid, roundTo32_eq (by decide) h0 (by decide) (by omega)]
      · rw [if_neg hmid, if_neg hmid]
        by_cases hnear : 200 ≤ v
        · rw [if_pos hnear, if_pos hnear, roundTo32_eq (by decide) h0 (by decide) (by omega)]
        · rw [if_neg hnear, if_neg hnear]

theorem quantizeDist_nonneg (v : Int) (mazdaUnit : UInt8) : 0 ≤ quantizeDist v mazdaUnit := by
  unfold quantizeDist
  split_ifs <;> omega

/-! ## Decimals -/

def spell (ds : List Nat) : Bytes := ds.map fun d => .ofNat (0x30 + d)

/-- The string spells the decimal: digits, and digits behind a separator if there is one. -/
structure Spells (s : Bytes) (ints fracs : List Nat) : Prop where
  int_lt  : ∀ d ∈ ints, d < 10
  frac_lt : ∀ d ∈ fracs, d < 10
  string  : (s = spell ints ∧ fracs = []) ∨
    ∃ sep, isSep sep = true ∧ s = spell ints ++ sep :: spell fracs

theorem spell_digit : ∀ d : Fin 10, isDigit (.ofNat (0x30 + d.val)) = true ∧
    isSep (.ofNat (0x30 + d.val)) = false ∧ (UInt8.ofNat (0x30 + d.val)).toNat - 0x30 = d.val := by
  decide

theorem digits_spell {ds : List Nat} (h : ∀ d ∈ ds, d < 10) : digits (spell ds) = ds := by
  induction ds with
  | nil => rfl
  | cons d ds ih =>
    obtain ⟨hdigit, -, hvalue⟩ := spell_digit ⟨d, h d List.mem_cons_self⟩
    have hrest := ih fun e he => h e (List.mem_cons_of_mem d he)
    show digits (.ofNat (0x30 + d) :: spell ds) = d :: ds
    rw [digits_cons, if_pos hdigit, hvalue, hrest]

theorem not_isSep_spell {ds : List Nat} (h : ∀ d ∈ ds, d < 10) :
    ∀ p ∈ spell ds, (!isSep p) = true := by
  intro p hp
  obtain ⟨d, hd, rfl⟩ := List.mem_map.mp hp
  rw [(spell_digit ⟨d, h d hd⟩).2.1]
  rfl

theorem Spells.digits_eq {s : Bytes} {ints fracs : List Nat} (h : Spells s ints fracs) :
    intDigits s = ints ∧ fracDigit s = fracs.headD 0 := by
  have hints := not_isSep_spell h.int_lt
  unfold intDigits fracDigit
  rcases h.string with ⟨rfl, rfl⟩ | ⟨sep, hsep, rfl⟩
  · -- no separator: all digits are before it
    rw [List.takeWhile_eq_self_iff.mpr hints, List.dropWhile_eq_nil_iff.mpr hints,
      digits_spell h.int_lt]
    exact ⟨rfl, rfl⟩
  · rw [List.takeWhile_append_of_pos hints, List.dropWhile_append_of_pos hints,
      List.takeWhile_cons_of_neg (by simp [hsep]), List.dropWhile_cons_of_neg (by simp [hsep]),
      List.append_nil, digits_spell h.int_lt, digits_cons,
      if_neg (by rw [not_isDigit_of_isSep hsep]; simp), digits_spell h.frac_lt]
    exact ⟨rfl, rfl⟩

/-- Of up to eight digits, all are read. -/
theorem distNumber_decimal {s : Bytes} {ints fracs : List Nat} (h : Spells s ints fracs)
    (hlen : ints.length ≤ 8) :
    distNumber s = valueOf ints * 10 + fracs.headD 0 ∧ distNumber s ≤ 999999999 := by
  obtain ⟨hint, hfrac⟩ := h.digits_eq
  have hval : valueOf (((intDigits s).dropWhile (· == 0)).take 9) = valueOf ints := by
    rw [hint, List.take_of_length_le ((List.dropWhile_sublist _).length_le.trans (by omega))]
    exact Decimal.valueOf_dropWhile_zero ints
  -- eight digits with one decimal place are nine digits
  have hlt : valueOf ints < 10 ^ 8 :=
    (Decimal.valueOf_lt h.int_lt).trans_le (Nat.pow_le_pow_right (by decide) hlen)
  have hd := fracDigit_lt s
  unfold distNumber
  rw [hval, ← hfrac]
  exact ⟨rfl, by omega⟩

/-! ## When there is a distance -/

/-- There is a displayed distance: nothing leaves the 32 bits, and nothing is negative. -/
def DistDefined (s : Bytes) (mazdaUnit : UInt8) : Prop :=
  ∃ v, parseDist32 s = some v ∧ 0 ≤ v ∧ ∃ w, quantizeDist32 v mazdaUnit = some w ∧ 0 ≤ w

/-- No digit before the separator, or a number with room to be rounded. -/
def DistFits (s : Bytes) (mazdaUnit : UInt8) : Prop :=
  intDigits (cstr s) = [] ∨ distNumber (cstr s) ≤ distLimit mazdaUnit

instance (s : Bytes) (mazdaUnit : UInt8) : Decidable (DistFits s mazdaUnit) :=
  inferInstanceAs (Decidable (_ ∨ _))

theorem distLimit_le (mazdaUnit : UInt8) : 0 ≤ distLimit mazdaUnit ∧
    distLimit mazdaUnit ≤ 2147483647 := by
  unfold distLimit
  split <;> decide

theorem distDefined_iff (s : Bytes) (mazdaUnit : UInt8) :
    DistDefined s mazdaUnit ↔ DistFits s mazdaUnit := by
  obtain ⟨hlimit, hlimit'⟩ := distLimit_le mazdaUnit
  unfold DistDefined DistFits
  rw [parseDist32_eq]
  by_cases hnil : intDigits (cstr s) = []
  · -- nothing to read is 0 in any unit
    rw [if_pos hnil]
    refine iff_of_true ⟨0, rfl, le_refl 0, ?_⟩ (Or.inl hnil)
    exact ⟨_, (quantizeDist32_eq (le_refl 0) (by decide) mazdaUnit).trans (if_pos hlimit),
      quantizeDist_nonneg 0 mazdaUnit⟩
  · rw [if_neg hnil, or_iff_right hnil]
    constructor
    · rintro ⟨v, hv, h0, w, hw, -⟩
      by_contra hlt
      by_cases hfit : (distNumber (cstr s) : Int) ≤ 2147483647
      · -- read, but not rounded
        rw [i32_of_le (by omega) hfit] at hv
        obtain rfl := Option.some.inj hv
        rw [quantizeDist32_eq h0 hfit, if_neg hlt] at hw
        exact absurd hw (by simp)
      · rw [i32_of_lt (by omega)] at hv
        exact absurd hv (by simp)
    · intro hle
      refine ⟨distNumber (cstr s), i32_of_le (by omega) (by omega), by omega, ?_⟩
      exact ⟨_, (quantizeDist32_eq (by omega) (by omega) mazdaUnit).trans (if_pos hle),
        quantizeDist_nonneg _ mazdaUnit⟩

/-- **There is a displayed distance exactly for the numbers with room**, and for every
decimal of one to eight digits it is one decimal place of it, rounded down. -/
theorem dist32_iff (s : Bytes) (mazdaUnit : UInt8) :
    (DistDefined s mazdaUnit ↔ DistFits s mazdaUnit) ∧
      ∀ ints fracs, 1 ≤ ints.length → ints.length ≤ 8 → Spells (cstr s) ints fracs →
        parseDist32 s = some ⌊10 * decimal ints fracs⌋ := by
  refine ⟨distDefined_iff s mazdaUnit, fun ints fracs hpos hlen h => ?_⟩
  obtain ⟨hnumber, hfit⟩ := distNumber_decimal h hlen
  have hne : intDigits (cstr s) ≠ [] := by
    rw [h.digits_eq.1]
    exact List.length_pos_iff.mp hpos
  rw [parseDist32_eq, if_neg hne, i32_of_le (by omega) (by omega), hnumber,
    Decimal.floor_ten_mul_decimal ints h.frac_lt, Nat.mul_comm]

/-- `350,7` in metres. -/
theorem dist32_iff_metres :
    (DistDefined [0x33, 0x35, 0x30, 0x2c, 0x37] 1 ↔
      DistFits [0x33, 0x35, 0x30, 0x2c, 0x37] 1) ∧
      ∀ ints fracs, 1 ≤ ints.length → ints.length ≤ 8 →
        Spells (cstr [0x33, 0x35, 0x30, 0x2c, 0x37]) ints fracs →
        parseDist32 [0x33, 0x35, 0x30, 0x2c, 0x37] = some ⌊10 * decimal ints fracs⌋ :=
  dist32_iff [0x33, 0x35, 0x30, 0x2c, 0x37] 1

/-- Nine nines are below the cap until the last of them is read, and ten times as much does
not fit. -/
theorem nine_digits_overflow :
    ¬DistDefined [0x39, 0x39, 0x39, 0x39, 0x39, 0x39, 0x39, 0x39, 0x39] 3 := by
  rw [distDefined_iff]
  decide

/-! ## The pipeline -/

theorem i32_eq_some {x y : Int} : i32 x = some y ↔
    y = x ∧ -2147483648 ≤ x ∧ x ≤ 2147483647 := by
  unfold i32
  by_cases h : -2147483648 ≤ x ∧ x ≤ 2147483647
  · rw [if_pos h, Option.some_inj]
    exact ⟨fun heq => ⟨heq.symm, h⟩, fun heq => heq.1.symm⟩
  · rw [if_neg h]
    exact iff_of_false (by simp) fun heq => h heq.2

theorem parseDistX10_eq {s : Bytes} {v : Int} (hv : parseDist32 s = some v) :
    (parseDistX10 s).toInt = v ∧ 0 ≤ v ∧ v ≤ 2147483647 := by
  rw [parseDist32, scanDist32_eq _ _ (by decide), Option.bind_eq_bind, Option.bind_some] at hv
  unfold parseDistX10
  extract_lets r
  have hr : scanDist {} (cstr s) = r := rfl
  rw [hr] at hv
  by_cases hany : r.any = true
  · rw [if_pos hany]
    rw [if_pos hany, Option.bind_eq_bind, Option.bind_eq_some_iff] at hv
    -- there is a value, so neither step left the range and the cast keeps it
    obtain ⟨tens, htens, hsum⟩ := hv
    obtain ⟨rfl, -, -⟩ := i32_eq_some.mp htens
    obtain ⟨rfl, -, hle⟩ := i32_eq_some.mp hsum
    refine ⟨?_, by omega, hle⟩
    rw [← Int32.ofInt_eq_ofNat, Int32.toInt_ofInt_of_le (by omega) (by push_cast; omega)]
    push_cast
    rfl
  · rw [if_neg hany]
    rw [if_neg hany] at hv
    obtain rfl := Option.some.inj hv
    exact ⟨rfl, le_refl 0, by decide⟩

theorem quantizeDist_le {v : Int} {mazdaUnit : UInt8} (h : v ≤ distLimit mazdaUnit) :
    quantizeDist v mazdaUnit ≤ 2147483647 := by
  unfold distLimit at h
  unfold quantizeDist
  split_ifs at h ⊢ <;> omega

/-- **Where there is a displayed distance, it is the one of the pipeline.** -/
theorem quantizeDistX10_eq {s : Bytes} {mazdaUnit : UInt8} {v w : Int}
    (hv : parseDist32 s = some v) (hw : quantizeDist32 v mazdaUnit = some w) :
    (quantizeDistX10 (parseDistX10 s) mazdaUnit).toInt = w := by
  obtain ⟨hparse, h0, hmax⟩ := parseDistX10_eq hv
  rw [quantizeDist32_eq h0 hmax] at hw
  by_cases hfit : v ≤ distLimit mazdaUnit
  · rw [if_pos hfit] at hw
    obtain rfl := Option.some.inj hw
    have hlo := quantizeDist_nonneg v mazdaUnit
    have hhi := quantizeDist_le hfit
    rw [quantizeDistX10, hparse, Int32.toInt_ofInt_of_le (by omega) (by omega)]
  · rw [if_neg hfit] at hw
    exact absurd hw (by simp)

/-! ## The figure on its way down -/

/-- The figures of the units that are rounded: finely when near, coarsely when far. -/
def steps (v : Int) : Int :=
  paste 5000 (paste 1000 (paste 200 id (nearest 50)) (nearest 100)) (nearest 500) v

theorem quantizeDist_eq_steps {v : Int} (h0 : 0 ≤ v) (mazdaUnit : UInt8) :
    quantizeDist v mazdaUnit = if mazdaUnit = 2 ∨ mazdaUnit = 3 then v else steps v := by
  unfold quantizeDist
  rw [if_neg (by omega)]
  rfl

/-- Every threshold is a multiple of the steps on both sides of it. -/
theorem steady_steps : Steady steps := by
  have hnear : Steady (paste 200 id (nearest 50)) :=
    Quantizer.steady_id.paste (Quantizer.steady_nearest (by decide)) rfl rfl
  have hmid : Steady (paste 1000 (paste 200 id (nearest 50)) (nearest 100)) :=
    hnear.paste (Quantizer.steady_nearest (by decide)) rfl rfl
  exact hmid.paste (Quantizer.steady_nearest (by decide)) rfl rfl

/-- Half of the step a distance is rounded by. -/
def halfStep (v : Int) (mazdaUnit : UInt8) : Int :=
  if mazdaUnit = 2 ∨ mazdaUnit = 3 then 0
  else if 5000 ≤ v then 250
  else if 1000 ≤ v then 50
  else if 200 ≤ v then 25
  else 0

theorem quantizeDist_close {v : Int} (h0 : 0 ≤ v) (mazdaUnit : UInt8) :
    |quantizeDist v mazdaUnit - v| ≤ halfStep v mazdaUnit := by
  rw [quantizeDist_eq_steps h0]
  unfold halfStep steps
  split_ifs with hunit hfar hmid hnear
  · rw [Int.sub_self, abs_zero]
  · rw [Quantizer.paste_of_le hfar]
    exact Quantizer.nearest_close (by decide) v
  · rw [Quantizer.paste_of_lt (by omega), Quantizer.paste_of_le hmid]
    exact Quantizer.nearest_close (by decide) v
  · rw [Quantizer.paste_of_lt (by omega), Quantizer.paste_of_lt (by omega),
      Quantizer.paste_of_le hnear]
    exact Quantizer.nearest_close (by decide) v
  · -- on the final approach nothing is rounded
    rw [Quantizer.paste_of_lt (by omega), Quantizer.paste_of_lt (by omega),
      Quantizer.paste_of_lt (by omega), id_eq, Int.sub_self, abs_zero]

theorem quantizeDist_mono {v₁ v₂ : Int} (h0 : 0 ≤ v₁) (hle : v₁ ≤ v₂) (mazdaUnit : UInt8) :
    quantizeDist v₁ mazdaUnit ≤ quantizeDist v₂ mazdaUnit := by
  rw [quantizeDist_eq_steps h0, quantizeDist_eq_steps (h0.trans hle)]
  split
  · exact hle
  · exact steady_steps.mono hle

theorem quantizeDist_idem {v : Int} (h0 : 0 ≤ v) (mazdaUnit : UInt8) :
    quantizeDist (quantizeDist v mazdaUnit) mazdaUnit = quantizeDist v mazdaUnit := by
  rw [quantizeDist_eq_steps (quantizeDist_nonneg v mazdaUnit), quantizeDist_eq_steps h0]
  split
  · rfl
  · exact steady_steps.idem v

/-- Below the limit the 32-bit result is the integer one. -/
theorem quantizeDistX10_toInt {v : Int32} {mazdaUnit : UInt8}
    (hfit : v.toInt ≤ distLimit mazdaUnit) :
    (quantizeDistX10 v mazdaUnit).toInt = quantizeDist v.toInt mazdaUnit := by
  have hlo := quantizeDist_nonneg v.toInt mazdaUnit
  have hhi := quantizeDist_le hfit
  rw [quantizeDistX10, Int32.toInt_ofInt_of_le (by omega) (by omega)]

/-- **The quantised distance is monotone, stable and close**, and no sum on the way to it
overflows. -/
theorem quantizeDistX10_steady (mazdaUnit : UInt8) (v₁ v₂ : Int32) (h0 : 0 ≤ v₁) (hle : v₁ ≤ v₂)
    (hmax : v₂ ≤ 2000000000) :
    quantizeDistX10 v₁ mazdaUnit ≤ quantizeDistX10 v₂ mazdaUnit ∧
      ∀ v, v = v₁ ∨ v = v₂ →
        quantizeDist32 v.toInt mazdaUnit = some (quantizeDistX10 v mazdaUnit).toInt ∧
        quantizeDistX10 (quantizeDistX10 v mazdaUnit) mazdaUnit = quantizeDistX10 v mazdaUnit ∧
        |(quantizeDistX10 v mazdaUnit).toInt - v.toInt| ≤ halfStep v.toInt mazdaUnit := by
  have h0' : 0 ≤ v₁.toInt := Int32.le_iff_toInt_le.mp h0
  have hle' : v₁.toInt ≤ v₂.toInt := Int32.le_iff_toInt_le.mp hle
  have hmax' : v₂.toInt ≤ 2000000000 := Int32.le_iff_toInt_le.mp hmax
  have hlimit : 2147483397 ≤ distLimit mazdaUnit := by
    unfold distLimit
    split <;> omega
  have heq : ∀ v : Int32, v = v₁ ∨ v = v₂ → 0 ≤ v.toInt ∧ v.toInt ≤ 2000000000 ∧
      (quantizeDistX10 v mazdaUnit).toInt = quantizeDist v.toInt mazdaUnit := by
    intro v hv
    have hrange : 0 ≤ v.toInt ∧ v.toInt ≤ 2000000000 := by
      rcases hv with rfl | rfl <;> omega
    exact ⟨hrange.1, hrange.2, quantizeDistX10_toInt (by omega)⟩
  constructor
  · rw [Int32.le_iff_toInt_le, (heq v₁ (.inl rfl)).2.2, (heq v₂ (.inr rfl)).2.2]
    exact quantizeDist_mono h0' hle' mazdaUnit
  · intro v hv
    obtain ⟨hlo, hhi, hq⟩ := heq v hv
    refine ⟨?_, ?_, ?_⟩
    · rw [quantizeDist32_eq hlo (by omega), if_pos (by omega), hq]
    · -- the figure is within the limit itself, half a step above the distance at most
      have hclose := abs_le.mp (quantizeDist_close hlo mazdaUnit)
      have hhalf : halfStep v.toInt mazdaUnit ≤ 250 := by
        unfold halfStep
        split_ifs <;> omega
      have hlo' := quantizeDist_nonneg v.toInt mazdaUnit
      rw [← Int32.toInt_inj, quantizeDistX10_toInt (by omega), hq,
        quantizeDist_idem hlo]
    · rw [hq]
      exact quantizeDist_close hlo mazdaUnit

/-- 99.8 m and 100.2 m: two steps meet, and both are shown as 100 m. -/
theorem quantizeDistX10_steady_seam :
    quantizeDistX10 998 1 ≤ quantizeDistX10 1002 1 ∧ quantizeDistX10 998 1 = 1000 :=
  ⟨(quantizeDistX10_steady 1 998 1002 (by decide) (by decide) (by decide)).1, by decide⟩

end OemAaMod
