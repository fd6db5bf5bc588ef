import OemAaMod.Nav16.Decoder

/-!
# The relay between the two processes

`aap_service` swallows the navigation messages and sends them, unparsed, as
datagrams; the receiver thread of `blmjciaapa` checks the header before it feeds
the frame to the decoder.

* `swallows`, `relayFrame` — the sender's side (`navi.cpp`);
* `rxRecv` — the receiver's checks (`nav16_rx.cpp`);
* `rxRecv_relayFrame` — every relayed datagram passes them, and what is fed is the
  frame, cut to `AA_NAV16_MAX_FRAME` bytes.
-/

namespace OemAaMod

def AA_NAV16_MAGIC : UInt32 := 0x41483136
def AA_NAV16_VERSION : UInt8 := 1
def AA_NAV16_MAX_FRAME : Nat := 1024

/-- The range `hook_routeMessage` swallows. -/
def AA_NAV16_MSG_SWALLOW_FIRST : UInt32 := AA_NAV16_MSG_CLUSTER_START
def AA_NAV16_MSG_SWALLOW_LAST : UInt32 := AA_NAV16_MSG_POSITION

structure AaNav16Hdr where
  magic    : UInt32
  version  : UInt8
  reserved : UInt8
  len      : UInt16
deriving DecidableEq

/-- The header in memory; both processes run on one little-endian machine. -/
def AaNav16Hdr.bytes (h : AaNav16Hdr) : List UInt8 :=
  [h.magic.toUInt8, (h.magic >>> 8).toUInt8, (h.magic >>> 16).toUInt8, (h.magic >>> 24).toUInt8,
    h.version, h.reserved, h.len.toUInt8, (h.len >>> 8).toUInt8]

/-- The header read from the start of a buffer, and the rest of the buffer. -/
def AaNav16Hdr.read : List UInt8 → Option (AaNav16Hdr × List UInt8)
  | m₀ :: m₁ :: m₂ :: m₃ :: version :: reserved :: l₀ :: l₁ :: rest =>
    some ({
      magic := m₀.toUInt32 ||| (m₁.toUInt32 <<< 8) ||| (m₂.toUInt32 <<< 16) |||
        (m₃.toUInt32 <<< 24)
      version, reserved
      len := l₀.toUInt16 ||| (l₁.toUInt16 <<< 8) }, rest)
  | _ => none

/-- Whether `hook_routeMessage` keeps a message from the OEM endpoint. -/
def swallows (msgId : UInt32) : Prop :=
  AA_NAV16_MSG_SWALLOW_FIRST ≤ msgId &&& 0xffff ∧ msgId &&& 0xffff ≤ AA_NAV16_MSG_SWALLOW_LAST

instance (msgId : UInt32) : Decidable (swallows msgId) := inferInstanceAs (Decidable (_ ∧ _))

/-- The datagram of `relay_frame`; a short frame is skipped. -/
def relayFrame (raw : List UInt8) : Option (List UInt8) :=
  if raw.length < 2 then none
  else
    let size := if raw.length > AA_NAV16_MAX_FRAME then AA_NAV16_MAX_FRAME else raw.length
    let hdr : AaNav16Hdr := ⟨AA_NAV16_MAGIC, AA_NAV16_VERSION, 0, UInt16.ofNat size⟩
    some (hdr.bytes ++ raw.take size)

/-- The checks of `rx_main` on one datagram, and the frame fed if they pass. -/
def rxRecv (dgram : List UInt8) : Option (List UInt8) :=
  -- `recv` cuts what does not fit into the buffer
  let buf := dgram.take (8 + AA_NAV16_MAX_FRAME)
  match AaNav16Hdr.read buf with
  | none => none
  | some (hdr, payload) =>
    if hdr.magic ≠ AA_NAV16_MAGIC ∨ hdr.version ≠ AA_NAV16_VERSION then none
    else
      let len := hdr.len.toNat
      if len < 2 ∨ len > AA_NAV16_MAX_FRAME ∨ 8 + len > buf.length then none
      else some (payload.take len)

theorem len_bytes {n : Nat} (hn : n < 65536) :
    (UInt16.ofNat n).toUInt8.toUInt16 ||| ((UInt16.ofNat n >>> 8).toUInt8.toUInt16 <<< 8) =
      UInt16.ofNat n := by
  apply UInt16.toNat_inj.mp
  have hnat : (UInt16.ofNat n).toNat = n := UInt16.toNat_ofNat_of_lt' hn
  have hhi : (UInt16.ofNat n >>> 8).toNat = n / 256 := by
    rw [UInt16.toNat_shiftRight, hnat]
    exact Nat.shiftRight_eq_div_pow n 8
  have hlow : n / 256 % 256 = n / 256 := Nat.mod_eq_of_lt (by omega)
  have hshift : (n / 256) <<< 8 % 2 ^ 16 = n / 256 * 256 := by
    rw [Nat.shiftLeft_eq]
    exact Nat.mod_eq_of_lt (by omega)
  have hor : n % 256 ||| n / 256 * 256 = n / 256 * 256 + n % 256 := by
    rw [Nat.or_comm, Nat.mul_comm]
    exact (Nat.two_pow_add_eq_or_of_lt (i := 8) (by omega) (n / 256)).symm
  rw [UInt16.toNat_or, UInt16.toNat_shiftLeft, UInt8.toNat_toUInt16, UInt8.toNat_toUInt16,
    UInt16.toNat_toUInt8, UInt16.toNat_toUInt8, hhi, hnat]
  show n % 256 ||| (n / 256 % 256) <<< 8 % 2 ^ 16 = n
  rw [hlow, hshift, hor]
  omega

theorem read_bytes {size : Nat} (hsize : size < 65536) (payload : List UInt8) :
    AaNav16Hdr.read
        ((⟨AA_NAV16_MAGIC, AA_NAV16_VERSION, 0, UInt16.ofNat size⟩ : AaNav16Hdr).bytes ++ payload) =
      some (⟨AA_NAV16_MAGIC, AA_NAV16_VERSION, 0, UInt16.ofNat size⟩, payload) := by
  have hlen := len_bytes hsize
  unfold AaNav16Hdr.bytes
  simp only [List.cons_append, List.nil_append, AaNav16Hdr.read, hlen]
  rfl

/-- **A relayed datagram passes the receiver's checks** and carries the frame. -/
theorem rxRecv_relayFrame {raw dgram : List UInt8} (h : relayFrame raw = some dgram) :
    rxRecv dgram = some (raw.take AA_NAV16_MAX_FRAME) := by
  unfold relayFrame at h
  by_cases hshort : raw.length < 2
  · rw [if_pos hshort] at h
    exact absurd h (by simp)
  · rw [if_neg hshort, Option.some_inj] at h
    set size := if raw.length > AA_NAV16_MAX_FRAME then AA_NAV16_MAX_FRAME else raw.length with hsize
    have hmin : size = min AA_NAV16_MAX_FRAME raw.length := by
      rw [hsize]
      split <;> omega
    have hcut : raw.take size = raw.take AA_NAV16_MAX_FRAME := by
      rw [hmin, ← List.take_eq_take_min]
    have hmax : AA_NAV16_MAX_FRAME = 1024 := rfl
    have hpayload : (raw.take size).length = size := by
      rw [List.length_take]
      omega
    have hdgram : dgram.length = 8 + size := by
      rw [← h, List.length_append, hpayload]
      rfl
    have hbuf : dgram.take (8 + AA_NAV16_MAX_FRAME) = dgram :=
      List.take_of_length_le (by omega)
    have hsize : size < 65536 := by omega
    have hread := read_bytes hsize (raw.take size)
    rw [h] at hread
    have hlen : (UInt16.ofNat size).toNat = size :=
      UInt16.toNat_ofNat_of_lt' hsize
    unfold rxRecv
    rw [hbuf]
    simp only [hread]
    rw [if_neg (by simp), hlen, if_neg (by omega), hcut,
      List.take_of_length_le (by rw [List.length_take]; omega)]

end OemAaMod
