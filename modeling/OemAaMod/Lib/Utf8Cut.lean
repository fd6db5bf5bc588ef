import OemAaMod.Lib.Utf8

/-!
# The longest prefix that fits

In an encoding the bytes `0b10xxxxxx` are those that are not at a character boundary, so
a cut can be moved back to one by looking at single bytes.

* `isCont_enc_iff` — which bytes of an encoding are continuation bytes;
* `LongestPrefix` — the longest prefix of at most so many bytes;
* `longestPrefix_of_boundary` — there is one, at the last boundary that is not too far.
-/

namespace Utf8

open CStr (Bytes)

def IsCont (b : UInt8) : Prop := b &&& 0xC0 = 0x80

instance : DecidablePred IsCont := fun b => inferInstanceAs (Decidable (b &&& 0xC0 = 0x80))

theorem isCont_ofNat : ∀ n < 64, IsCont (UInt8.ofNat (n + 0x80)) := by decide +kernel

theorem not_isCont_one : ∀ n < 128, ¬IsCont (UInt8.ofNat n) := by decide +kernel

theorem not_isCont_two : ∀ n < 32, ¬IsCont (UInt8.ofNat (n + 0xC0)) := by decide +kernel

theorem not_isCont_three : ∀ n < 16, ¬IsCont (UInt8.ofNat (n + 0xE0)) := by decide +kernel

theorem not_isCont_four : ∀ n < 8, ¬IsCont (UInt8.ofNat (n + 0xF0)) := by decide +kernel

/-- One lead byte, then continuation bytes. -/
theorem encodeChar_eq_cons (c : Char) :
    ∃ lead rest, String.utf8EncodeChar c = lead :: rest ∧ ¬IsCont lead ∧ ∀ b ∈ rest, IsCont b := by
  rcases encodeChar_shape c with ⟨hv, heq⟩ | ⟨-, hv, heq⟩ | ⟨-, hv, heq⟩ | ⟨-, hv, heq⟩
  · exact ⟨_, _, heq, not_isCont_one _ hv, fun b hb => absurd hb List.not_mem_nil⟩
  · refine ⟨_, _, heq, not_isCont_two _ (by omega), fun b hb => ?_⟩
    rw [List.mem_singleton.mp hb]
    exact isCont_ofNat _ (by omega)
  · refine ⟨_, _, heq, not_isCont_three _ (by omega), fun b hb => ?_⟩
    simp only [List.mem_cons, List.not_mem_nil, or_false] at hb
    rcases hb with rfl | rfl <;> exact isCont_ofNat _ (by omega)
  · refine ⟨_, _, heq, not_isCont_four _ (by omega), fun b hb => ?_⟩
    simp only [List.mem_cons, List.not_mem_nil, or_false] at hb
    rcases hb with rfl | rfl | rfl <;> exact isCont_ofNat _ (by omega)

theorem boundary_zero (cs : List Char) : Boundary cs 0 := ⟨[], List.nil_prefix, rfl⟩

/-- Inside the first character there is no boundary. -/
theorem not_boundary_cons {c : Char} {cs : List Char} {n : Nat} (hpos : 0 < n)
    (hlt : n < c.utf8Size) : ¬Boundary (c :: cs) n := by
  rintro ⟨pre, hpre, hwidth⟩
  cases pre with
  | nil => exact Nat.ne_of_gt hpos hwidth.symm
  | cons d pre =>
    obtain ⟨rfl, -⟩ := List.cons_prefix_cons.mp hpre
    rw [width_cons] at hwidth
    omega

/-- Behind it the boundaries are those of the other characters. -/
theorem boundary_cons_iff {c : Char} {cs : List Char} {n : Nat} (hge : c.utf8Size ≤ n) :
    Boundary (c :: cs) n ↔ Boundary cs (n - c.utf8Size) := by
  have hpos := c.utf8Size_pos
  constructor
  · rintro ⟨pre, hpre, hwidth⟩
    cases pre with
    | nil =>
      rw [width_nil] at hwidth
      omega
    | cons d pre =>
      obtain ⟨rfl, hrest⟩ := List.cons_prefix_cons.mp hpre
      rw [width_cons] at hwidth
      exact ⟨pre, hrest, by omega⟩
  · rintro ⟨pre, hpre, hwidth⟩
    exact ⟨c :: pre, List.cons_prefix_cons.mpr ⟨rfl, hpre⟩, by rw [width_cons]; omega⟩

/-- **Continuation bytes** are the bytes that are at no boundary. -/
theorem isCont_enc_iff (cs : List Char) {n : Nat} (h : n < width cs) :
    IsCont ((enc cs).getD n 0) ↔ ¬Boundary cs n := by
  induction cs generalizing n with
  | nil => exact absurd h (Nat.not_lt_zero n)
  | cons c cs ih =>
    obtain ⟨lead, rest, heq, hlead, hrest⟩ := encodeChar_eq_cons c
    have hsize : rest.length + 1 = c.utf8Size := by
      rw [← String.length_utf8EncodeChar, heq, List.length_cons]
    rw [enc_cons, List.getD_eq_getElem?_getD]
    rcases Nat.lt_or_ge n c.utf8Size with hlt | hge
    · -- the byte is one of the first character
      rw [List.getElem?_append_left (by rw [String.length_utf8EncodeChar]; exact hlt), heq]
      rcases Nat.eq_zero_or_pos n with rfl | hpos
      · exact iff_of_false hlead (not_not_intro (boundary_zero _))
      · refine iff_of_true ?_ (not_boundary_cons hpos hlt)
        obtain ⟨k, rfl⟩ : ∃ k, n = k + 1 := ⟨n - 1, by omega⟩
        have hk : k < rest.length := by omega
        rw [List.getElem?_cons_succ, List.getElem?_eq_getElem hk, Option.getD_some]
        exact hrest _ (List.getElem_mem hk)
    · rw [List.getElem?_append_right (by rw [String.length_utf8EncodeChar]; exact hge),
        String.length_utf8EncodeChar, boundary_cons_iff hge, ← List.getD_eq_getElem?_getD]
      rw [width_cons] at h
      exact ih (by omega)

/-! ## Prefixes -/

/-- Of two prefixes the one of fewer bytes is a prefix of the other. -/
theorem prefix_of_width_le {p q cs : List Char} (hp : p <+: cs) (hq : q <+: cs)
    (h : width p ≤ width q) : p <+: q := by
  rcases List.prefix_or_prefix_of_prefix hp hq with hpq | ⟨t, ht⟩
  · exact hpq
  · cases t with
    | nil =>
      rw [List.append_nil] at ht
      exact ht ▸ List.prefix_rfl
    | cons c t =>
      -- a character more is a byte more
      have hpos := c.utf8Size_pos
      have hwidth : width p = width q + (c.utf8Size + width t) := by
        rw [← ht]
        unfold width
        rw [List.map_append, List.sum_append, List.map_cons, List.sum_cons]
      omega

/-- The longest prefix of at most `max` bytes. -/
structure LongestPrefix (cs : List Char) (max : Nat) (pre : List Char) : Prop where
  isPrefix : pre <+: cs
  fits     : width pre ≤ max
  longest  : ∀ q, q <+: cs → width q ≤ max → q <+: pre

/-- All of it, where it fits. -/
theorem longestPrefix_self {cs : List Char} {max : Nat} (h : width cs ≤ max) :
    LongestPrefix cs max cs :=
  ⟨List.prefix_rfl, h, fun _ hq _ => hq⟩

/-- The last boundary that is not behind `max`. -/
theorem longestPrefix_of_boundary {cs : List Char} {max m : Nat} (hm : Boundary cs m)
    (hle : m ≤ max) (hlast : ∀ k, m < k → k ≤ max → ¬Boundary cs k) :
    ∃ pre, LongestPrefix cs max pre ∧ width pre = m := by
  obtain ⟨pre, hpre, hwidth⟩ := hm
  refine ⟨pre, ⟨hpre, by omega, fun q hq hfits => ?_⟩, hwidth⟩
  refine prefix_of_width_le hq hpre ?_
  by_contra hlong
  exact hlast (width q) (by omega) hfits ⟨q, hq, rfl⟩

end Utf8
