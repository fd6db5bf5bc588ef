import OemAaMod.Lib.CStr

/-!
# UTF-8 byte strings and where they may be cut

`Valid` is the library's validity of a byte array, on a list of bytes, and
`enc` the encoding of a list of characters.

* `valid_iff` — the valid byte strings are the encodings;
* `encodeChar_prefix` — no encoded character is the start of another one;
* `valid_take_iff` — a cut of an encoding is valid exactly when it takes
  everything or falls between two characters;
* `cstr_enc` — the C string in an encoding is the encoding of what precedes the
  first NUL character.
-/

namespace Utf8

open CStr (Bytes cstr cstr_append_of_forall_ne)

def Valid (b : Bytes) : Prop := b.toByteArray.IsValidUTF8

instance : DecidablePred Valid := fun b => inferInstanceAs (Decidable b.toByteArray.IsValidUTF8)

/-- The encoding of a list of characters. -/
def enc (cs : List Char) : Bytes := cs.flatMap String.utf8EncodeChar

@[simp] theorem enc_nil : enc [] = [] := rfl

@[simp] theorem enc_cons (c : Char) (cs : List Char) :
    enc (c :: cs) = String.utf8EncodeChar c ++ enc cs := rfl

theorem valid_iff {b : Bytes} : Valid b ↔ ∃ cs, b = enc cs := by
  constructor
  · rintro ⟨cs, hcs⟩
    exact ⟨cs, List.toByteArray_inj.mp hcs⟩
  · rintro ⟨cs, rfl⟩
    exact ⟨cs, rfl⟩

theorem valid_enc (cs : List Char) : Valid (enc cs) := valid_iff.mpr ⟨cs, rfl⟩

/-- The number of bytes of the encoding. -/
def width (cs : List Char) : Nat := (cs.map Char.utf8Size).sum

@[simp] theorem width_nil : width [] = 0 := rfl

@[simp] theorem width_cons (c : Char) (cs : List Char) : width (c :: cs) = c.utf8Size + width cs :=
  List.sum_cons

theorem length_enc (cs : List Char) : (enc cs).length = width cs := by
  induction cs with
  | nil => rfl
  | cons c cs ih => rw [enc_cons, List.length_append, String.length_utf8EncodeChar, ih, width_cons]

/-! ## Cuts -/

/-- **UTF-8 is a prefix code.** -/
theorem encodeChar_prefix {c d : Char} {x y : Bytes}
    (h : String.utf8EncodeChar c ++ x = String.utf8EncodeChar d ++ y) : c = d := by
  have hc := ByteArray.utf8DecodeChar?_utf8EncodeChar_append (b := x.toByteArray) (c := c)
  have hd := ByteArray.utf8DecodeChar?_utf8EncodeChar_append (b := y.toByteArray) (c := d)
  rw [← List.toByteArray_append] at hc hd
  rw [h, hd] at hc
  exact (Option.some_inj.mp hc).symm

theorem valid_encodeChar_append {c : Char} {b : Bytes} :
    Valid (String.utf8EncodeChar c ++ b) ↔ Valid b := by
  unfold Valid
  rw [List.toByteArray_append, ← List.utf8Encode_singleton,
    ByteArray.isValidUTF8_utf8Encode_singleton_append_iff]

theorem valid_enc_append {cs : List Char} {b : Bytes} : Valid (enc cs ++ b) ↔ Valid b := by
  induction cs with
  | nil => rfl
  | cons c cs ih => rw [enc_cons, List.append_assoc, valid_encodeChar_append, ih]

/-- A character cut short is not valid. -/
theorem not_valid_take_encodeChar {c : Char} {n : Nat} (hpos : 0 < n) (hlt : n < c.utf8Size) :
    ¬Valid ((String.utf8EncodeChar c).take n) := by
  intro hvalid
  obtain ⟨cs, hcs⟩ := valid_iff.mp hvalid
  have hlen : ((String.utf8EncodeChar c).take n).length = n := by
    rw [List.length_take, String.length_utf8EncodeChar]
    omega
  cases cs with
  | nil =>
    rw [hcs] at hlen
    exact absurd hlen (by simp; omega)
  | cons d cs =>
    -- what is left of `c` starts with a whole character, which must be `c`
    have hsplit : String.utf8EncodeChar c ++ [] =
        String.utf8EncodeChar d ++ (enc cs ++ (String.utf8EncodeChar c).drop n) := by
      rw [List.append_nil, ← List.append_assoc, ← enc_cons, ← hcs, List.take_append_drop]
    have heq : c = d := encodeChar_prefix hsplit
    rw [hcs, enc_cons, List.length_append, String.length_utf8EncodeChar, ← heq] at hlen
    omega

/-- `n` bytes into the encoding of `cs` is a character boundary. -/
def Boundary (cs : List Char) (n : Nat) : Prop := ∃ pre, pre <+: cs ∧ width pre = n

/-- **Where an encoding may be cut.** -/
theorem valid_take_iff (cs : List Char) (n : Nat) :
    Valid ((enc cs).take n) ↔ width cs ≤ n ∨ Boundary cs n := by
  induction cs generalizing n with
  | nil =>
    rw [enc_nil, List.take_nil]
    exact iff_of_true (valid_enc []) (.inl (Nat.zero_le n))
  | cons c cs ih =>
    rw [enc_cons, List.take_append, String.length_utf8EncodeChar, width_cons]
    rcases Nat.lt_or_ge n c.utf8Size with hlt | hge
    · -- the cut falls inside the first character, or before it
      rw [show n - c.utf8Size = 0 by omega, List.take_zero, List.append_nil]
      by_cases hzero : n = 0
      · rw [hzero, List.take_zero]
        exact iff_of_true (valid_enc []) (.inr ⟨[], List.nil_prefix, rfl⟩)
      · refine iff_of_false (not_valid_take_encodeChar (by omega) hlt) ?_
        rintro (hall | ⟨pre, hpre, hwidth⟩)
        · omega
        · cases pre with
          | nil => exact hzero hwidth.symm
          | cons d pre =>
            obtain ⟨rfl, -⟩ := List.cons_prefix_cons.mp hpre
            rw [width_cons] at hwidth
            omega
    · rw [List.take_of_length_le (by rw [String.length_utf8EncodeChar]; exact hge),
        valid_encodeChar_append, ih]
      apply or_congr
      · omega
      · constructor
        · rintro ⟨pre, hpre, hwidth⟩
          exact ⟨c :: pre, List.cons_prefix_cons.mpr ⟨rfl, hpre⟩, by rw [width_cons]; omega⟩
        · rintro ⟨pre, hpre, hwidth⟩
          cases pre with
          | nil =>
            have := c.utf8Size_pos
            rw [width_nil] at hwidth
            omega
          | cons d pre =>
            obtain ⟨rfl, hrest⟩ := List.cons_prefix_cons.mp hpre
            rw [width_cons] at hwidth
            exact ⟨pre, hrest, by omega⟩

/-- `p` is nothing, or the start of a character. -/
def CutChar (p : Bytes) : Prop :=
  p = [] ∨ ∃ c k, 0 < k ∧ k < c.utf8Size ∧ p = (String.utf8EncodeChar c).take k

/-- A cut encoding is whole characters and at most the start of one more. -/
theorem take_enc (cs : List Char) (n : Nat) :
    ∃ pre p, pre <+: cs ∧ CutChar p ∧ (enc cs).take n = enc pre ++ p := by
  induction cs generalizing n with
  | nil => exact ⟨[], [], List.nil_prefix, .inl rfl, List.take_nil⟩
  | cons c cs ih =>
    rw [enc_cons, List.take_append, String.length_utf8EncodeChar]
    rcases Nat.lt_or_ge n c.utf8Size with hlt | hge
    · rw [show n - c.utf8Size = 0 by omega, List.take_zero, List.append_nil]
      by_cases hzero : n = 0
      · exact ⟨[], [], List.nil_prefix, .inl rfl, by rw [hzero, List.take_zero]; rfl⟩
      · exact ⟨[], _, List.nil_prefix, .inr ⟨c, n, by omega, hlt, rfl⟩, rfl⟩
    · obtain ⟨pre, p, hpre, hp, htake⟩ := ih (n - c.utf8Size)
      refine ⟨c :: pre, p, List.cons_prefix_cons.mpr ⟨rfl, hpre⟩, hp, ?_⟩
      rw [List.take_of_length_le (by rw [String.length_utf8EncodeChar]; exact hge), htake, enc_cons,
        List.append_assoc]

theorem CutChar.length_le {p : Bytes} (h : CutChar p) : p.length ≤ 3 := by
  rcases h with rfl | ⟨c, k, -, hk, rfl⟩
  · exact Nat.zero_le 3
  · have hmax := c.utf8Size_le_four
    rw [List.length_take]
    omega

/-! ## The bytes of a character -/

/-- The encoding of `c`, by the range its code point is in. -/
theorem encodeChar_shape (c : Char) :
    (c.toNat < 0x80 ∧ String.utf8EncodeChar c = [UInt8.ofNat c.toNat]) ∨
    (0x80 ≤ c.toNat ∧ c.toNat < 0x800 ∧ String.utf8EncodeChar c =
      [UInt8.ofNat (c.toNat / 64 + 0xC0), UInt8.ofNat (c.toNat % 64 + 0x80)]) ∨
    (0x800 ≤ c.toNat ∧ c.toNat < 0x10000 ∧ String.utf8EncodeChar c =
      [UInt8.ofNat (c.toNat / 4096 + 0xE0), UInt8.ofNat (c.toNat / 64 % 64 + 0x80),
        UInt8.ofNat (c.toNat % 64 + 0x80)]) ∨
    (0x10000 ≤ c.toNat ∧ c.toNat < 0x110000 ∧ String.utf8EncodeChar c =
      [UInt8.ofNat (c.toNat / 262144 + 0xF0), UInt8.ofNat (c.toNat / 4096 % 64 + 0x80),
        UInt8.ofNat (c.toNat / 64 % 64 + 0x80), UInt8.ofNat (c.toNat % 64 + 0x80)]) := by
  have hmax : c.toNat < 0x110000 := by
    have := c.valid
    rcases this with h | ⟨-, h⟩ <;> exact Nat.lt_of_lt_of_le h (by decide)
  unfold String.utf8EncodeChar
  simp only [Char.toNat_val]
  split
  · exact .inl ⟨by omega, rfl⟩
  · split
    · refine .inr (.inl ⟨by omega, by omega, ?_⟩)
      rw [Nat.mod_eq_of_lt (show c.toNat / 64 < 32 by omega)]
    · split
      · refine .inr (.inr (.inl ⟨by omega, by omega, ?_⟩))
        rw [Nat.mod_eq_of_lt (show c.toNat / 4096 < 16 by omega)]
      · refine .inr (.inr (.inr ⟨by omega, hmax, ?_⟩))
        rw [Nat.mod_eq_of_lt (show c.toNat / 262144 < 8 by omega)]

/-! ## NUL -/

theorem encodeChar_zero : String.utf8EncodeChar '\x00' = [0] := rfl

theorem ofNat_ne_zero {n : Nat} (hpos : 0 < n) (hlt : n < 256) : UInt8.ofNat n ≠ 0 := by
  intro h
  have hn := congrArg UInt8.toNat h
  rw [UInt8.toNat_ofNat_of_lt' hlt, UInt8.toNat_zero] at hn
  omega

/-- Only the NUL character has a NUL byte in its encoding. -/
theorem ne_zero_of_mem_encodeChar {c : Char} (hc : c ≠ '\x00') :
    ∀ x ∈ String.utf8EncodeChar c, x ≠ 0 := by
  have hpos : 0 < c.toNat := by
    rcases Nat.eq_zero_or_pos c.toNat with h | h
    · exact absurd (Char.toNat_inj.mp h) hc
    · exact h
  intro x hx
  rcases encodeChar_shape c with ⟨hv, heq⟩ | ⟨-, hv, heq⟩ | ⟨-, hv, heq⟩ | ⟨-, hv, heq⟩
  all_goals
    rw [heq] at hx
    simp only [List.mem_cons, List.not_mem_nil, or_false] at hx
  · rw [hx]
    exact ofNat_ne_zero hpos (by omega)
  · rcases hx with rfl | rfl <;> exact ofNat_ne_zero (by omega) (by omega)
  · rcases hx with rfl | rfl | rfl <;> exact ofNat_ne_zero (by omega) (by omega)
  · rcases hx with rfl | rfl | rfl | rfl <;> exact ofNat_ne_zero (by omega) (by omega)

/-- The C string in an encoding ends before the first NUL character. -/
theorem cstr_enc (cs : List Char) : cstr (enc cs) = enc (cs.takeWhile (· ≠ '\x00')) := by
  induction cs with
  | nil => rfl
  | cons c cs ih =>
    by_cases hc : c = '\x00'
    · subst hc
      rw [enc_cons, encodeChar_zero]
      rfl
    · rw [List.takeWhile_cons_of_pos (by simpa using hc), enc_cons, enc_cons, ← ih]
      exact cstr_append_of_forall_ne (ne_zero_of_mem_encodeChar hc) _

end Utf8
