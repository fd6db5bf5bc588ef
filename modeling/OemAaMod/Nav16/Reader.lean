import OemAaMod.Lib.Wire

/-!
# The protobuf reader of `hud_nav16.cpp`

The source reads a frame through `struct Pb { const uint8_t *p; const uint8_t *end; }`.
Here `Pb frame` is that pair as offsets into the frame, with the facts the
reader relies on carried as fields: `p ≤ stop` and `stop ≤ frame.length`. A
byte is only ever read at an offset proved to be in range, and every reader
returns a `Pb` again, so a cursor outside the frame cannot be built.

* `rdVarint`, `rdTag`, `rdBytes`, `skip` — the four primitives, by name;
* `walk` — the loop `while (rd_tag(c, f, w)) { ... else break; }` that every
  `dec_*` function is an instance of.

The second half connects the reader to the wire format of `Wire`: on bytes that
encode something, each primitive yields it and leaves the cursor exactly after
it (`rdVarint_encodes`, `rdTag_encodes`, `rdBytes_encodes`, `skip_encodes`), and
`walk_concat` turns a loop over concatenated records into a fold over them.
-/

namespace OemAaMod

open Wire

/-- `Pb`: a cursor and an end inside `frame`. -/
structure Pb (frame : List UInt8) where
  p     : Nat
  stop  : Nat
  le    : p ≤ stop
  bound : stop ≤ frame.length

namespace Pb

variable {frame : List UInt8}

/-- The view of a whole frame from byte `n` on: `Pb c{raw + n, raw + size}`. -/
def ofFrame (frame : List UInt8) (n : Nat) (h : n ≤ frame.length) : Pb frame :=
  ⟨n, frame.length, h, le_rfl⟩

/-- `c.p += n`, once `n` bytes are known to be left. -/
def advance (c : Pb frame) (n : Nat) (h : c.p + n ≤ c.stop) : Pb frame :=
  { c with p := c.p + n, le := h }

/-- `*c.p`. -/
def byte (c : Pb frame) (h : c.p < c.stop) : UInt8 :=
  frame.get ⟨c.p, lt_of_lt_of_le h c.bound⟩

end Pb

section Reader

variable {frame : List UInt8}

/-- The shifts of the varint loop: `shift = 0; shift < 64; shift += 7`. -/
def varintShifts : List Nat := (List.range 10).map (7 * ·)

/-- The loop of `rd_varint`, over the shifts still allowed. -/
def rdVarintLoop (c : Pb frame) (v : UInt64) : List Nat → Option (UInt64 × Pb frame)
  | [] => none                                  -- overlong
  | shift :: shifts =>
    if h : c.p < c.stop then
      let b := c.byte h
      let c := c.advance 1 h
      let v := v ||| ((b &&& 0x7f).toUInt64 <<< UInt64.ofNat shift)
      if b &&& 0x80 = 0 then some (v, c) else rdVarintLoop c v shifts
    else none                                   -- truncated

def rdVarint (c : Pb frame) : Option (UInt64 × Pb frame) := rdVarintLoop c 0 varintShifts

def rdTag (c : Pb frame) : Option (UInt32 × UInt32 × Pb frame) :=
  if c.p ≥ c.stop then none
  else do
    let (t, c) ← rdVarint c
    some ((t >>> 3).toUInt32, (t &&& 7).toUInt32, c)

/-- `rd_bytes`: the view `[data, data + len)` and the cursor past it. -/
def rdBytes (c : Pb frame) : Option (Pb frame × Pb frame) := do
  let (l, c) ← rdVarint c
  if h : c.stop - c.p < l.toNat then none       -- would overrun
  else
    have hle : c.p + l.toNat ≤ c.stop := by
      have := c.le
      omega
    some (⟨c.p, c.p + l.toNat, Nat.le_add_right .., le_trans hle c.bound⟩, c.advance l.toNat hle)

def skip (c : Pb frame) (wire : UInt32) : Option (Pb frame) :=
  if wire = 0 then (rdVarint c).map Prod.snd
  else if wire = 1 then if h : c.p + 8 ≤ c.stop then some (c.advance 8 h) else none
  else if wire = 2 then (rdBytes c).map Prod.snd
  else if wire = 5 then if h : c.p + 4 ≤ c.stop then some (c.advance 4 h) else none
  else none                                     -- groups: unexpected

/-- `while (rd_tag(c, f, w)) { ... }` with at most `fuel` turns. The body gets
the state, the field, the wire type and the cursor after the tag; `none` is a
`break`, which keeps the state as it was. -/
def walkFuel {σ : Type*} (handle : σ → UInt32 → UInt32 → Pb frame → Option (σ × Pb frame)) :
    Nat → σ → Pb frame → σ
  | 0, s, _ => s
  | fuel + 1, s, c =>
    match rdTag c with
    | none => s
    | some (f, w, c) =>
      match handle s f w c with
      | none => s
      | some (s, c) => walkFuel handle fuel s c

/-- The loop itself. A turn reads at least its tag, so one turn per byte left
is all it can take. -/
def walk {σ : Type*} (handle : σ → UInt32 → UInt32 → Pb frame → Option (σ × Pb frame))
    (s : σ) (c : Pb frame) : σ :=
  walkFuel handle (c.stop - c.p) s c

end Reader

/-! ## The bytes a cursor still has to read -/

namespace Pb

variable {frame : List UInt8}

/-- The bytes from the cursor to the end of its view. -/
def rest (c : Pb frame) : List UInt8 := (frame.take c.stop).drop c.p

theorem rest_length (c : Pb frame) : c.rest.length = c.stop - c.p := by
  have := c.bound
  rw [rest, List.length_drop, List.length_take]
  omega

theorem ofFrame_rest (frame : List UInt8) (n : Nat) (h : n ≤ frame.length) :
    (ofFrame frame n h).rest = frame.drop n := by
  rw [rest, ofFrame, List.take_length]

theorem advance_rest {c : Pb frame} {a t : List UInt8} (hc : c.rest = a ++ t)
    (h : c.p + a.length ≤ c.stop) : (c.advance a.length h).rest = t := by
  rw [rest] at hc ⊢
  show (frame.take c.stop).drop (c.p + a.length) = t
  rw [← List.drop_drop, hc, List.drop_left]

/-- There is room to advance over bytes that are still to be read. -/
theorem room_of_rest {c : Pb frame} {a t : List UInt8} (hc : c.rest = a ++ t) :
    c.p + a.length ≤ c.stop := by
  have hlen := c.rest_length
  have := c.le
  rw [hc, List.length_append] at hlen
  omega

theorem byte_of_rest {c : Pb frame} {b : UInt8} {t : List UInt8} (hc : c.rest = b :: t)
    (h : c.p < c.stop) : c.byte h = b := by
  have hget : (frame.take c.stop)[c.p]? = some b := by
    have : ((frame.take c.stop).drop c.p)[0]? = some b := by rw [← rest, hc]; rfl
    simpa [List.getElem?_drop] using this
  rw [List.getElem?_take_of_lt h] at hget
  have := List.getElem?_eq_some_iff.mp hget
  obtain ⟨_, hb⟩ := this
  exact hb

end Pb

/-! ## Reading what was encoded -/

variable {frame : List UInt8}

theorem and_0x80_eq_zero (b : UInt8) : b &&& 0x80 = 0 ↔ b.toNat < 128 := by
  have hall : ∀ i : Fin 256, i.val &&& 128 = 0 ↔ i.val < 128 := by decide +kernel
  rw [← UInt8.toNat_inj, UInt8.toNat_and]
  exact hall ⟨b.toNat, b.toNat_lt⟩

theorem toNat_and_0x7f (b : UInt8) : (b &&& 0x7f).toNat = b.toNat % 128 := by
  rw [UInt8.toNat_and]
  exact Nat.and_two_pow_sub_one_eq_mod b.toNat 7

/-- One turn of the varint loop: OR-ing the next digit in at its place is adding
it, since the digits below occupy only the bits below. -/
theorem or_digit {S k : Nat} (hk : k < 10) (hS : S < 2 ^ (7 * k)) (b : UInt8) :
    UInt64.ofNat S ||| ((b &&& 0x7f).toUInt64 <<< UInt64.ofNat (7 * k)) =
      UInt64.ofNat (S + 2 ^ (7 * k) * (b.toNat % 128)) := by
  apply UInt64.toNat_inj.mp
  have hshift : (UInt64.ofNat (7 * k)).toNat % 64 = 7 * k := by
    rw [UInt64.toNat_ofNat']
    omega
  rw [UInt64.toNat_or, UInt64.toNat_shiftLeft, hshift, UInt8.toNat_toUInt64, toNat_and_0x7f,
    UInt64.toNat_ofNat', UInt64.toNat_ofNat', ← Nat.or_mod_two_pow, Nat.shiftLeft_eq,
    Nat.mul_comm (b.toNat % 128), Nat.or_comm, ← Nat.two_pow_add_eq_or_of_lt hS, Nat.add_comm]

theorem rdVarintLoop_encodes {bs : List UInt8} :
    ∀ {n k S : Nat} {c : Pb frame} {t : List UInt8}, Terminated bs → bs.length ≤ n →
      k + n = 10 → S < 2 ^ (7 * k) → c.rest = bs ++ t →
      ∃ c', rdVarintLoop c (UInt64.ofNat S) ((List.range' k n).map (7 * ·)) =
        some (UInt64.ofNat (S + 2 ^ (7 * k) * digits bs), c') ∧ c'.rest = t := by
  induction bs with
  | nil => intro n k S c t ht; exact ht.elim
  | cons b bs ih =>
    intro n k S c t ht hlen hk hS hc
    obtain ⟨n, rfl⟩ : ∃ m, n = m + 1 := ⟨n - 1, by simp at hlen; omega⟩
    have hroom : c.p < c.stop := Pb.room_of_rest (a := [b]) (t := bs ++ t) (by simpa using hc)
    have hbyte : c.byte hroom = b := Pb.byte_of_rest hc hroom
    have hrest : (c.advance 1 hroom).rest = bs ++ t :=
      Pb.advance_rest (a := [b]) (by simpa using hc) hroom
    rw [List.range'_succ, List.map_cons, rdVarintLoop, dif_pos hroom]
    dsimp only
    rw [hbyte, or_digit (by omega) hS]
    cases bs with
    | nil =>
      -- the last byte: no continuation bit
      have hlast : b.toNat < 128 := ht
      rw [if_pos ((and_0x80_eq_zero b).mpr hlast)]
      exact ⟨c.advance 1 hroom, by simp [digits], by simpa using hrest⟩
    | cons b' bs' =>
      -- a continuation bit: seven bits are taken, and the loop goes on
      have hcont : 128 ≤ b.toNat := ht.1
      rw [if_neg (by rw [and_0x80_eq_zero]; omega)]
      have hS' : S + 2 ^ (7 * k) * (b.toNat % 128) < 2 ^ (7 * (k + 1)) := by
        have hd : b.toNat % 128 ≤ 127 := by omega
        have := Nat.mul_le_mul_left (2 ^ (7 * k)) hd
        rw [show 7 * (k + 1) = 7 * k + 7 by ring, Nat.pow_add]
        omega
      obtain ⟨c', hc', hrest'⟩ := ih (k := k + 1) ht.2 (by simpa using hlen) (by omega) hS' hrest
      refine ⟨c', ?_, hrest'⟩
      -- the digit at `7 * k`, and the others shifted by seven more
      have hsum : S + 2 ^ (7 * k) * (b.toNat % 128) + 2 ^ (7 * (k + 1)) * digits (b' :: bs') =
          S + 2 ^ (7 * k) * digits (b :: b' :: bs') := by
        rw [digits.eq_2 b, show 7 * (k + 1) = 7 * k + 7 by ring, Nat.pow_add]
        ring
      rw [hc', hsum]

theorem rdVarint_encodes {c : Pb frame} {v : UInt64} {bs t : List UInt8}
    (h : EncodesVarint v bs) (hc : c.rest = bs ++ t) :
    ∃ c', rdVarint c = some (v, c') ∧ c'.rest = t := by
  obtain ⟨c', hc', hrest⟩ := rdVarintLoop_encodes (n := 10) (k := 0) (S := 0) (c := c)
    h.terminated h.short rfl (by decide) hc
  refine ⟨c', ?_, hrest⟩
  rw [rdVarint, varintShifts, List.range_eq_range', ← h.value]
  simpa using hc'

/-- The tag splits back into the field number and the wire type. -/
theorem tag_split {num wire : Nat} (hnum : num < 2 ^ 29) (hwire : wire < 8) :
    (UInt64.ofNat (num * 8 + wire) >>> 3).toUInt32 = UInt32.ofNat num ∧
      (UInt64.ofNat (num * 8 + wire) &&& 7).toUInt32 = UInt32.ofNat wire := by
  have hlt : num * 8 + wire < 2 ^ 64 := by omega
  have h7 : (num * 8 + wire) &&& 7 = (num * 8 + wire) % 8 :=
    Nat.and_two_pow_sub_one_eq_mod _ 3
  constructor
  · apply UInt32.toNat_inj.mp
    rw [UInt64.toNat_toUInt32, UInt64.toNat_shiftRight, UInt64.toNat_ofNat', UInt32.toNat_ofNat',
      Nat.mod_eq_of_lt hlt, show (3 : UInt64).toNat % 64 = 3 from rfl, Nat.shiftRight_eq_div_pow]
    omega
  · apply UInt32.toNat_inj.mp
    rw [UInt64.toNat_toUInt32, UInt64.toNat_and, UInt64.toNat_ofNat', UInt32.toNat_ofNat',
      Nat.mod_eq_of_lt hlt, show (7 : UInt64).toNat = 7 from rfl, h7]
    omega

theorem payload_wire_lt (pl : Payload) : pl.wire < 8 := by
  cases pl <;> simp [Payload.wire]

theorem rdTag_encodes {c : Pb frame} {f : Field} {b t : List UInt8}
    (h : EncodesField f b) (hc : c.rest = b ++ t) :
    ∃ body c', EncodesPayload f.payload body ∧ c'.rest = body ++ t ∧
      rdTag c = some (UInt32.ofNat f.num, UInt32.ofNat f.payload.wire, c') := by
  obtain ⟨hnum, htag, hbody⟩ := h
  rename_i tag body
  rw [List.append_assoc] at hc
  obtain ⟨c', hc', hrest⟩ := rdVarint_encodes htag hc
  have hne : ¬c.p ≥ c.stop := by
    have := Pb.room_of_rest hc
    have := List.length_pos_iff.mpr (terminated_ne_nil htag.terminated)
    omega
  refine ⟨body, c', hbody, hrest, ?_⟩
  obtain ⟨hf, hw⟩ := tag_split hnum (payload_wire_lt f.payload)
  rw [rdTag, if_neg hne, hc']
  simp only [Option.bind_eq_bind, Option.bind_some, Field.tag, hf, hw]

theorem rdBytes_encodes {c : Pb frame} {d b t : List UInt8}
    (h : EncodesPayload (.bytes d) b) (hc : c.rest = b ++ t) :
    ∃ v c', rdBytes c = some (v, c') ∧ v.rest = d ∧ c'.rest = t := by
  cases h with
  | bytes hlen hn =>
    rename_i n
    rw [List.append_assoc] at hc
    obtain ⟨c₁, hc₁, hrest⟩ := rdVarint_encodes hn hc
    -- the length was encoded, so it is read back whole
    have hl : (UInt64.ofNat d.length).toNat = d.length := by
      rw [UInt64.toNat_ofNat', Nat.mod_eq_of_lt hlen]
    have hroom := Pb.room_of_rest hrest
    have hno : ¬c₁.stop - c₁.p < (UInt64.ofNat d.length).toNat := by omega
    simp only [rdBytes, hc₁, Option.bind_eq_bind, Option.bind_some, dif_neg hno]
    refine ⟨_, _, rfl, ?_, ?_⟩
    · -- the view holds exactly the content
      show (frame.take (c₁.p + (UInt64.ofNat d.length).toNat)).drop c₁.p = d
      have htake : (frame.take (c₁.p + d.length)).drop c₁.p = c₁.rest.take d.length := by
        rw [Pb.rest, List.take_drop, List.take_take, Nat.min_eq_left hroom]
      rw [hl, htake, hrest, List.take_left]
    · simp only [hl]
      exact Pb.advance_rest hrest hroom

theorem skip_encodes {c : Pb frame} {pl : Payload} {b t : List UInt8}
    (h : EncodesPayload pl b) (hc : c.rest = b ++ t) :
    ∃ c', skip c (UInt32.ofNat pl.wire) = some c' ∧ c'.rest = t := by
  cases h with
  | varint h =>
    obtain ⟨c', hc', hrest⟩ := rdVarint_encodes h hc
    exact ⟨c', by simp [skip, Payload.wire, hc'], hrest⟩
  | fixed64 h =>
    have hroom := Pb.room_of_rest hc
    have hrest := Pb.advance_rest hc hroom
    simp only [h] at hroom hrest
    exact ⟨_, by simp [skip, Payload.wire, hroom], hrest⟩
  | bytes hlen hn =>
    obtain ⟨v, c', hc', -, hrest⟩ := rdBytes_encodes (.bytes hlen hn) hc
    exact ⟨c', by simp [skip, Payload.wire, hc'], hrest⟩
  | fixed32 h =>
    have hroom := Pb.room_of_rest hc
    have hrest := Pb.advance_rest hc hroom
    simp only [h] at hroom hrest
    exact ⟨_, by simp [skip, Payload.wire, hroom], hrest⟩

/-! ## The loop over concatenated records -/

/-- At the end of its view `rd_tag` stops the loop. -/
theorem rdTag_of_rest_nil {c : Pb frame} (hc : c.rest = []) : rdTag c = none := by
  have hlen := c.rest_length
  rw [hc, List.length_nil] at hlen
  rw [rdTag, if_pos (by omega)]

/-- **The loop lemma.** If one turn of the loop takes the encoding of a record
`r` from state `s` to `eff s r`, wherever the record stands, then the loop over
the concatenation of the records `rs` is the fold of `eff` over them. -/
theorem walk_concat {σ ρ : Type*} {Enc : ρ → List UInt8 → Prop}
    {handle : σ → UInt32 → UInt32 → Pb frame → Option (σ × Pb frame)} {eff : σ → ρ → σ}
    (hne : ∀ r b, Enc r b → b ≠ [])
    (hturn : ∀ s r b t (c : Pb frame), Enc r b → c.rest = b ++ t →
      ∃ f w c₁ c', rdTag c = some (f, w, c₁) ∧ handle s f w c₁ = some (eff s r, c') ∧ c'.rest = t)
    {rs : List ρ} {b : List UInt8} (h : Concat Enc rs b) (s : σ) {c : Pb frame}
    (hc : c.rest = b) : walk handle s c = rs.foldl eff s := by
  -- any fuel of at least one turn for each byte will do
  have key : ∀ fuel s (c : Pb frame), c.rest = b → b.length ≤ fuel →
      walkFuel handle fuel s c = rs.foldl eff s := by
    clear hc c s
    induction h with
    | nil =>
      intro fuel s c hc _
      cases fuel with
      | zero => rfl
      | succ fuel => rw [walkFuel, rdTag_of_rest_nil hc]; rfl
    | cons hr hs ih =>
      rename_i r rs b bs
      intro fuel s c hc hfuel
      have hpos : 0 < b.length := List.length_pos_iff.mpr (hne r b hr)
      rw [List.length_append] at hfuel
      obtain ⟨fuel, rfl⟩ : ∃ m, fuel = m + 1 := ⟨fuel - 1, by omega⟩
      obtain ⟨f, w, c₁, c', htag, hhandle, hrest⟩ := hturn s r b bs c hr hc
      rw [walkFuel, htag]
      dsimp only
      rw [hhandle, List.foldl_cons]
      exact ih fuel _ c' hrest (by omega)
  exact key _ s c hc (by rw [← hc, c.rest_length])

end OemAaMod
