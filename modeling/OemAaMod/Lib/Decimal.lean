import Mathlib.Data.Rat.Floor
import Mathlib.Algebra.Order.Field.Basic
import Mathlib.Tactic.FieldSimp
import Mathlib.Tactic.Ring
import Mathlib.Tactic.Positivity

/-!
# Decimal digits

Digits are read most significant first.

* `valueOf` — the number a list of digits spells;
* `decimal` — the rational with digits before and behind a separator;
* `floor_ten_mul_decimal` — one decimal place of it, rounded down;
* `readCapped` — a reader that takes digits only while it is below a power of ten;
* `readCapped_eq` — it stops after that many significant digits.
-/

namespace Decimal

def valueOf (ds : List Nat) : Nat := ds.foldl (fun n d => n * 10 + d) 0

@[simp] theorem valueOf_nil : valueOf [] = 0 := rfl

theorem valueOf_concat (ds : List Nat) (d : Nat) : valueOf (ds ++ [d]) = valueOf ds * 10 + d := by
  rw [valueOf, List.foldl_append]
  rfl

theorem valueOf_cons (d : Nat) (ds : List Nat) :
    valueOf (d :: ds) = d * 10 ^ ds.length + valueOf ds := by
  induction ds using List.reverseRecOn with
  | nil => simp [valueOf]
  | append_singleton ds e ih =>
    rw [← List.cons_append, valueOf_concat, valueOf_concat, ih, List.length_append,
      List.length_singleton, pow_succ]
    ring

/-- Leading zeros count for nothing. -/
theorem valueOf_dropWhile_zero (ds : List Nat) : valueOf (ds.dropWhile (· == 0)) = valueOf ds := by
  induction ds with
  | nil => rfl
  | cons d ds ih =>
    by_cases hd : d = 0
    · rw [List.dropWhile_cons_of_pos (by simpa using hd), ih, valueOf_cons, hd, Nat.zero_mul,
        Nat.zero_add]
    · rw [List.dropWhile_cons_of_neg (by simpa using hd)]

theorem valueOf_lt {ds : List Nat} (h : ∀ d ∈ ds, d < 10) : valueOf ds < 10 ^ ds.length := by
  induction ds with
  | nil => simp
  | cons d ds ih =>
    have hd : d < 10 := h d List.mem_cons_self
    have hds := ih fun e he => h e (List.mem_cons_of_mem d he)
    rw [valueOf_cons, List.length_cons, pow_succ]
    calc d * 10 ^ ds.length + valueOf ds < d * 10 ^ ds.length + 10 ^ ds.length := by omega
      _ = (d + 1) * 10 ^ ds.length := by ring
      _ ≤ 10 * 10 ^ ds.length := Nat.mul_le_mul_right _ hd
      _ = 10 ^ ds.length * 10 := Nat.mul_comm _ _

/-- A leading digit other than 0. -/
theorem pow_le_valueOf {d : Nat} (hd : d ≠ 0) (ds : List Nat) :
    10 ^ ds.length ≤ valueOf (d :: ds) := by
  rw [valueOf_cons]
  have hone : 1 * 10 ^ ds.length ≤ d * 10 ^ ds.length :=
    Nat.mul_le_mul_right _ (Nat.one_le_iff_ne_zero.mpr hd)
  omega

/-! ## One decimal place -/

def decimal (ints fracs : List Nat) : ℚ := valueOf ints + valueOf fracs / 10 ^ fracs.length

/-- **Ten times a decimal, rounded down**: the digits behind the first count for nothing. -/
theorem floor_ten_mul_decimal (ints : List Nat) {fracs : List Nat} (h : ∀ d ∈ fracs, d < 10) :
    ⌊10 * decimal ints fracs⌋ = (10 * valueOf ints + fracs.headD 0 : Nat) := by
  unfold decimal
  cases fracs with
  | nil =>
    have hint : 10 * ((valueOf ints : ℚ) + (valueOf [] : Nat) / 10 ^ ([] : List Nat).length) =
        ((10 * valueOf ints : Nat) : ℚ) := by
      push_cast
      simp
    rw [hint, Int.floor_natCast]
    simp
  | cons d ds =>
    have hlt := valueOf_lt fun e he => h e (List.mem_cons_of_mem d he)
    -- what is left over is below one
    have hsplit : 10 * ((valueOf ints : ℚ) + (valueOf (d :: ds) : Nat) / 10 ^ (d :: ds).length) =
        ((10 * valueOf ints + d : Nat) : ℚ) + (valueOf ds : ℚ) / 10 ^ ds.length := by
      rw [valueOf_cons, List.length_cons, pow_succ]
      push_cast
      field_simp
      ring
    have hrest : (valueOf ds : ℚ) / 10 ^ ds.length < 1 := by
      rw [div_lt_one (by positivity)]
      exact_mod_cast hlt
    rw [hsplit, Int.floor_eq_iff, List.headD_cons]
    constructor
    · push_cast
      have hnonneg : 0 ≤ (valueOf ds : ℚ) / 10 ^ ds.length := by positivity
      linarith
    · push_cast
      linarith

/-! ## Reading with a cap -/

/-- A digit is taken while what was read is below the cap, and skipped from then on. -/
def readCapped (cap n : Nat) (ds : List Nat) : Nat :=
  ds.foldl (fun n d => if n < cap then n * 10 + d else n) n

theorem readCapped_cons (cap n d : Nat) (ds : List Nat) :
    readCapped cap n (d :: ds) = readCapped cap (if n < cap then n * 10 + d else n) ds := rfl

/-- Behind a digit other than 0, which makes every digit of the `k` that follow count. -/
theorem readCapped_significant {k d : Nat} (hd : d ≠ 0) (hd' : d < 10) (ds : List Nat) :
    ∀ pre : List Nat, (∀ e ∈ pre, e < 10) → (∀ e ∈ ds, e < 10) → pre.length ≤ k →
      readCapped (10 ^ k) (valueOf (d :: pre)) ds =
        valueOf (d :: (pre ++ ds).take k) := by
  induction ds with
  | nil =>
    intro pre _ _ hlen
    rw [List.append_nil, List.take_of_length_le hlen]
    rfl
  | cons e ds ih =>
    intro pre hpre hds hlen
    have hds' : ∀ e' ∈ ds, e' < 10 := fun e' he' => hds e' (List.mem_cons_of_mem e he')
    rw [readCapped_cons]
    rcases Nat.lt_or_eq_of_le hlen with hlt | heq
    · -- below the cap: one more digit
      have hvalue : valueOf (d :: pre) < 10 ^ k := by
        have hdigits : ∀ e' ∈ d :: pre, e' < 10 := List.forall_mem_cons.mpr ⟨hd', hpre⟩
        calc valueOf (d :: pre) < 10 ^ (d :: pre).length := valueOf_lt hdigits
          _ ≤ 10 ^ k := Nat.pow_le_pow_right (by decide) hlt
      have hpre' : ∀ e' ∈ pre ++ [e], e' < 10 := by
        intro e' he'
        rcases List.mem_append.mp he' with he' | he'
        · exact hpre e' he'
        · rw [List.mem_singleton.mp he']
          exact hds e List.mem_cons_self
      have hlen' : (pre ++ [e]).length ≤ k := by
        rw [List.length_append, List.length_singleton]
        exact hlt
      have hnext := ih (pre ++ [e]) hpre' hds' hlen'
      rw [if_pos hvalue, ← valueOf_concat, List.cons_append, hnext, List.append_assoc,
        List.singleton_append]
    · -- at the cap: skipped
      have hvalue : ¬valueOf (d :: pre) < 10 ^ k := by
        rw [← heq]
        exact Nat.not_lt.mpr (pow_le_valueOf hd pre)
      rw [if_neg hvalue, ih pre hpre hds' hlen, List.take_append_of_le_length (Nat.le_of_eq heq.symm),
        List.take_append_of_le_length (Nat.le_of_eq heq.symm)]

/-- **A cap of `10 ^ k` leaves `k + 1` significant digits**, and all leading zeros. -/
theorem readCapped_eq (k : Nat) {ds : List Nat} (h : ∀ d ∈ ds, d < 10) :
    readCapped (10 ^ k) 0 ds = valueOf ((ds.dropWhile (· == 0)).take (k + 1)) := by
  induction ds with
  | nil => rfl
  | cons d ds ih =>
    have hpos : 0 < 10 ^ k := Nat.pow_pos (by decide)
    have hds : ∀ e ∈ ds, e < 10 := fun e he => h e (List.mem_cons_of_mem d he)
    rw [readCapped_cons, if_pos hpos, Nat.zero_mul, Nat.zero_add]
    by_cases hd : d = 0
    · rw [hd, ih hds]
      rfl
    · have hsig := readCapped_significant (k := k) hd (h d List.mem_cons_self) ds [] (by simp) hds
        (Nat.zero_le k)
      rw [List.dropWhile_cons_of_neg (by simpa using hd), List.take_succ_cons]
      rw [List.nil_append] at hsig
      rw [← hsig]
      simp [valueOf]

end Decimal
