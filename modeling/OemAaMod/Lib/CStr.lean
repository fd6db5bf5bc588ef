import Mathlib.Data.List.Basic
import Mathlib.Tactic

/-!
# C strings in fixed-size buffers

A C string is what a reader sees of a `char` array: the bytes before the first
NUL. This module fixes that reading (`cstr`) and the two ways the modelled code
fills a buffer:

* `CharBuf.ofStrncpy` — the idiom `strncpy(dst, src, sizeof(dst) - 1);
  dst[sizeof(dst) - 1] = 0`, which pads with NULs and so leaves no stale byte;
* `CharBuf.blit` — `memcpy(dst, s, n); dst[n] = 0`, which leaves the bytes after
  the terminator as they were.

A `CharBuf cap` carries the proof that it holds exactly `cap` bytes.

Main results: `ofStrncpy_str` (what is read back is the source cut to `cap - 1`
bytes), and `blit_prefix` (what `blit` writes).
-/

namespace CStr

abbrev Bytes := List UInt8

/-- The C string stored at the start of `b`: the bytes before the first NUL. -/
def cstr (b : Bytes) : Bytes := b.takeWhile (· ≠ 0)

@[simp] theorem cstr_nil : cstr [] = [] := rfl

@[simp] theorem cstr_zero_cons (b : Bytes) : cstr (0 :: b) = [] := by
  simp [cstr]

theorem cstr_cons_of_ne {x : UInt8} (hx : x ≠ 0) (b : Bytes) :
    cstr (x :: b) = x :: cstr b := by
  simp [cstr, hx]

/-- No byte of a C string is NUL. -/
theorem ne_zero_of_mem_cstr {b : Bytes} {x : UInt8} (hx : x ∈ cstr b) : x ≠ 0 := by
  have hall : (b.takeWhile (· ≠ 0)).all (· ≠ 0) = true := List.all_takeWhile
  simpa using List.all_eq_true.mp hall x hx

theorem take_cstr_ne {b : Bytes} {n : Nat} : ∀ x ∈ (cstr b).take n, x ≠ 0 :=
  fun _ hx => ne_zero_of_mem_cstr (List.mem_of_mem_take hx)

/-- NUL-free bytes are all read before what follows them. -/
theorem cstr_append_of_forall_ne {b : Bytes} (hb : ∀ x ∈ b, x ≠ 0) (rest : Bytes) :
    cstr (b ++ rest) = b ++ cstr rest := by
  induction b with
  | nil => rfl
  | cons x b ih =>
    have hx : x ≠ 0 := hb x (List.mem_cons_self ..)
    rw [List.cons_append, cstr_cons_of_ne hx, ih fun y hy => hb y (List.mem_cons_of_mem _ hy),
      List.cons_append]

/-- A terminator right after NUL-free bytes ends the string there. -/
theorem cstr_append_zero {b : Bytes} (hb : ∀ x ∈ b, x ≠ 0) (rest : Bytes) :
    cstr (b ++ 0 :: rest) = b := by
  rw [cstr_append_of_forall_ne hb, cstr_zero_cons, List.append_nil]

/-- A terminator after any bytes: only the bytes before it are read. -/
theorem cstr_append_zero' (b rest : Bytes) : cstr (b ++ 0 :: rest) = cstr b := by
  induction b with
  | nil => simp
  | cons x b ih =>
    by_cases hx : x = 0
    · simp [hx]
    · rw [List.cons_append, cstr_cons_of_ne hx, ih, cstr_cons_of_ne hx]

/-- Cutting the memory and cutting the string read from it agree. -/
theorem cstr_take (b : Bytes) (n : Nat) : cstr (b.take n) = (cstr b).take n := by
  induction b generalizing n with
  | nil => simp
  | cons x b ih =>
    cases n with
    | zero => simp
    | succ n =>
      by_cases hx : x = 0
      · simp [hx]
      · rw [List.take_succ_cons, cstr_cons_of_ne hx, cstr_cons_of_ne hx, ih, List.take_succ_cons]

/-! ## Buffers -/

/-- A `char[cap]` array. -/
@[ext] structure CharBuf (cap : Nat) where
  bytes : Bytes
  length_eq : bytes.length = cap
deriving DecidableEq

namespace CharBuf

variable {cap : Nat}

/-- The C string the buffer holds. -/
def str (d : CharBuf cap) : Bytes := cstr d.bytes

/-- `memset(dst, 0, sizeof(dst))`. -/
def zero (cap : Nat) : CharBuf cap := ⟨List.replicate cap 0, List.length_replicate ..⟩

instance : Inhabited (CharBuf cap) := ⟨zero cap⟩

@[simp] theorem zero_str : (zero cap).str = [] := by
  cases cap <;> simp [zero, str, List.replicate_succ]

/-- `strncpy(dst, src, sizeof(dst) - 1); dst[sizeof(dst) - 1] = 0`, from the
string at `src`. Every byte of `dst` is written, so its old content is gone. -/
def ofStrncpy (cap : Nat) (src : Bytes) : CharBuf cap :=
  let s := (cstr src).take (cap - 1)
  ⟨s ++ List.replicate (cap - s.length) 0, by
    have : s.length ≤ cap := by
      simp only [s, List.length_take]
      omega
    simp only [List.length_append, List.length_replicate]
    omega⟩

/-- The bytes after the string are NULs, at least one of them. -/
theorem ofStrncpy_bytes (h : 0 < cap) (src : Bytes) :
    ∃ k, (ofStrncpy cap src).bytes = (cstr src).take (cap - 1) ++ 0 :: List.replicate k 0 := by
  set s := (cstr src).take (cap - 1) with hs
  have hlen : s.length < cap := by
    rw [hs, List.length_take]
    omega
  obtain ⟨k, hk⟩ : ∃ k, cap - s.length = k + 1 := ⟨cap - s.length - 1, by omega⟩
  refine ⟨k, ?_⟩
  show s ++ List.replicate (cap - s.length) 0 = _
  rw [hk, List.replicate_succ]

/-- What is read back is the source string cut to the room before the NUL. -/
@[simp] theorem ofStrncpy_str (h : 0 < cap) (src : Bytes) :
    (ofStrncpy cap src).str = (cstr src).take (cap - 1) := by
  obtain ⟨k, hk⟩ := ofStrncpy_bytes h src
  rw [str, hk]
  exact cstr_append_zero take_cstr_ne _

/-- `dst[0] = 0`. -/
def clearFirst (d : CharBuf cap) : CharBuf cap :=
  ⟨d.bytes.set 0 0, by rw [List.length_set, d.length_eq]⟩

@[simp] theorem clearFirst_str (d : CharBuf cap) : d.clearFirst.str = [] := by
  obtain ⟨bytes, -⟩ := d
  cases bytes <;> simp [clearFirst, str]

/-- `n = min(s.size, cap - 1); memcpy(dst, s, n); dst[n] = 0`; nothing when the
buffer has no room at all. -/
def blit (d : CharBuf cap) (s : Bytes) : CharBuf cap :=
  if h : cap = 0 then d
  else
    let n := if s.length ≥ cap then cap - 1 else s.length
    ⟨s.take n ++ 0 :: d.bytes.drop (n + 1), by
      have := d.length_eq
      simp only [List.length_append, List.length_take, List.length_cons, List.length_drop]
      simp only [n]
      split <;> omega⟩

/-- The bytes written by `blit`: the source cut to the room, then a NUL. -/
theorem blit_prefix (h : 0 < cap) (d : CharBuf cap) (s : Bytes) :
    s.take (cap - 1) ++ [0] <+: (d.blit s).bytes := by
  have hn : s.take (if s.length ≥ cap then cap - 1 else s.length) = s.take (cap - 1) := by
    split
    · rfl
    · rw [List.take_length, List.take_of_length_le (by omega)]
  unfold blit
  rw [dif_neg (by omega)]
  simp only [hn]
  exact ⟨d.bytes.drop ((if s.length ≥ cap then cap - 1 else s.length) + 1), by simp⟩

end CharBuf

end CStr
