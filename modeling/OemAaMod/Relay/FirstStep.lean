import OemAaMod.Nav16.Cut
import OemAaMod.Nav16.Feed
import OemAaMod.Relay.Frame

/-!
# The displayed step over the relay

The sender caps the frame, the receiver checks the header, the decoder reads what
is left. The HUD shows the first step of a `NavigationState`, so what counts is
where that ends.

* `relayed` — a frame from `relay_frame` to the decoder's sink;
* `rxRecv_iff` — what `rx_main` feeds of an arbitrary datagram;
* `relay_first_step` — up to the cap the step arrives as it was sent, past it the
  sink gets an empty guidance.
-/

namespace OemAaMod

open Wire (Octets Field EncodesField)

/-- A frame on its way: `relay_frame`, the datagram, `rx_main`, `hud_nav16_feed`. -/
def relayed (sink : HudNav16Sink) (raw : List UInt8) : Option SinkCall :=
  (relayFrame raw).bind fun dgram => (rxRecv dgram).bind (hudNav16Feed sink)

/-! ## The receiver -/

/-- The checks of `rx_main`, on a datagram of any bytes. -/
structure Admitted (dgram : List UInt8) (hdr : AaNav16Hdr) : Prop where
  read    : ∃ payload, AaNav16Hdr.read dgram = some (hdr, payload)
  magic   : hdr.magic = AA_NAV16_MAGIC
  version : hdr.version = AA_NAV16_VERSION
  min     : 2 ≤ hdr.len.toNat
  max     : hdr.len.toNat ≤ AA_NAV16_MAX_FRAME
  fits    : 8 + hdr.len.toNat ≤ dgram.length

/-- The header is the first eight bytes. -/
theorem read_eq_some {b : List UInt8} {hdr : AaNav16Hdr} {payload : List UInt8}
    (h : AaNav16Hdr.read b = some (hdr, payload)) :
    payload = b.drop 8 ∧ ∀ n, AaNav16Hdr.read (b.take (8 + n)) = some (hdr, payload.take n) := by
  unfold AaNav16Hdr.read at h
  split at h
  · rename_i m₀ m₁ m₂ m₃ version reserved l₀ l₁ rest
    obtain ⟨rfl, rfl⟩ := Prod.mk.inj (Option.some_inj.mp h)
    refine ⟨rfl, fun n => ?_⟩
    rw [Nat.add_comm]
    rfl
  · exact absurd h (by simp)

theorem read_take_eq_some {b : List UInt8} {n : Nat} {hdr : AaNav16Hdr} {payload : List UInt8}
    (h : AaNav16Hdr.read (b.take (8 + n)) = some (hdr, payload)) :
    ∃ rest, AaNav16Hdr.read b = some (hdr, rest) ∧ payload = rest.take n := by
  cases hb : AaNav16Hdr.read b with
  | some r =>
    have htake := (read_eq_some hb).2 n
    rw [h] at htake
    obtain ⟨rfl, rfl⟩ := Prod.mk.inj (Option.some_inj.mp htake)
    exact ⟨r.2, rfl, rfl⟩
  | none =>
    exfalso
    have hlong : 8 ≤ (b.take (8 + n)).length := by
      unfold AaNav16Hdr.read at h
      split at h
      · rename_i heq
        rw [heq]
        simp
      · exact absurd h (by simp)
    rw [List.length_take] at hlong
    -- eight bytes and more have a header, and fewer do not become more
    match b, hb with
    | _ :: _ :: _ :: _ :: _ :: _ :: _ :: _ :: _, hb => simp [AaNav16Hdr.read] at hb
    | [], _ | [_], _ | [_, _], _ | [_, _, _], _ | [_, _, _, _], _ | [_, _, _, _, _], _
    | [_, _, _, _, _, _], _ | [_, _, _, _, _, _, _], _ => simp at hlong

/-- **What is fed** are the bytes the header announces, of an admitted datagram. -/
theorem rxRecv_iff (dgram fed : List UInt8) :
    rxRecv dgram = some fed ↔
      ∃ hdr, Admitted dgram hdr ∧ fed = (dgram.drop 8).take hdr.len.toNat := by
  have hmax : AA_NAV16_MAX_FRAME = 1024 := rfl
  unfold rxRecv
  dsimp only
  constructor
  · intro h
    split at h
    · exact absurd h (by simp)
    · rename_i hdr payload hread
      -- what `recv` cut off is behind the header
      obtain ⟨rest, hrest, rfl⟩ := read_take_eq_some hread
      obtain ⟨rfl, -⟩ := read_eq_some hrest
      split at h
      · exact absurd h (by simp)
      · rename_i hid
        split at h
        · exact absurd h (by simp)
        · rename_i hlen
          simp only [not_or, not_not, not_lt, List.length_take] at hid hlen
          obtain ⟨hmin, hcap, hfits⟩ := hlen
          refine ⟨hdr, ⟨⟨_, hrest⟩, hid.1, hid.2, hmin, hcap, by omega⟩, ?_⟩
          rw [← Option.some_inj.mp h, List.take_take, Nat.min_eq_left (by omega)]
  · rintro ⟨hdr, ⟨⟨payload, hread⟩, hmagic, hversion, hmin, hcap, hfits⟩, rfl⟩
    obtain ⟨rfl, htake⟩ := read_eq_some hread
    rw [htake AA_NAV16_MAX_FRAME]
    dsimp only
    rw [if_neg (by simp [hmagic, hversion]), if_neg, List.take_take, Nat.min_eq_left (by omega)]
    simp only [not_or, not_lt, List.length_take]
    omega

/-! ## The frame -/

/-- What arrives of a `NavigationState` frame. -/
theorem relayed_navState {sink : HudNav16Sink} (hsink : sink.onGuidance = true) (b : Octets) :
    relayed sink (0x80 :: 0x06 :: b) =
      some (.guidance (hudNav16DecodeNavstate (frameBody 0x80 0x06 (b.take 1022)))) := by
  obtain ⟨dgram, hdgram⟩ : ∃ dgram, relayFrame (0x80 :: 0x06 :: b) = some dgram :=
    ⟨_, if_neg (by simp)⟩
  unfold relayed
  rw [hdgram, Option.bind_some, rxRecv_relayFrame hdgram, Option.bind_some]
  exact feed_navState hsink (b.take 1022)

/-- Past the cap nothing of the step arrives. -/
theorem relayed_cut {sink : HudNav16Sink} (hsink : sink.onGuidance = true) {b pre step : Octets}
    (h : FirstStep b pre step) (hlong : AA_NAV16_MAX_FRAME < 2 + (pre ++ step).length) :
    relayed sink (0x80 :: 0x06 :: b) = some (.guidance {}) := by
  have hmax : AA_NAV16_MAX_FRAME = 1024 := rfl
  obtain ⟨post, hb⟩ : ∃ post, b = (pre ++ step) ++ post := by
    obtain ⟨-, -, -, post, -, -, -, rfl⟩ := h
    exact ⟨post, by simp⟩
  -- with the id in front, 1022 bytes of the body fit the datagram
  have hcut : b.take 1022 <+: pre ++ step := by
    rw [hb, List.take_append_of_le_length (by omega)]
    exact List.take_prefix ..
  have hlt : (b.take 1022).length < (pre ++ step).length := by
    rw [List.length_take]
    omega
  rw [relayed_navState hsink, navstate_cut h hcut hlt (frameBody_rest ..)]

/-- Up to the cap the step arrives. -/
theorem relayed_append {sink : HudNav16Sink} (hsink : sink.onGuidance = true) {b pre step : Octets}
    (h : FirstStep b pre step) (hfits : 2 + (pre ++ step).length ≤ AA_NAV16_MAX_FRAME) :
    ∃ g g', hudNav16OnFrame (0x80 :: 0x06 :: b) (some {}) none =
        (AA_NAV16_MSG_NAV_STATE, some g, none) ∧
      relayed sink (0x80 :: 0x06 :: b) = some (.guidance g') ∧ g'.SameStep g := by
  have hmax : AA_NAV16_MAX_FRAME = 1024 := rfl
  obtain ⟨g, hshows⟩ := navstate_append h
  obtain ⟨-, -, -, post, -, -, -, rfl⟩ := h
  rw [List.length_append] at hfits
  have hwhole := hshows _ (frameBody 0x80 0x06 (pre ++ (step ++ post))) post (frameBody_rest ..)
  -- the cut falls behind the step, among the records that are skipped
  have hcut := hshows _ (frameBody 0x80 0x06 ((pre ++ (step ++ post)).take 1022))
    (post.take (1022 - pre.length - step.length)) (by
      rw [frameBody_rest, List.take_append, List.take_of_length_le (by omega), List.take_append,
        List.take_of_length_le (by omega)])
  exact ⟨_, _, rfl, relayed_navState hsink _, hcut.trans hwhole.symm⟩

/-! ## The step -/

/-- A left turn with a cue. -/
def turnRecs (cue : Octets) : List StepRec := [.maneuver [⟨1, .varint 7⟩], .cue cue]

def turnStep (cue : Octets) : Octets :=
  Field.encode ⟨1, .bytes (Field.encode ⟨1, .varint 7⟩)⟩ ++ Field.encode ⟨4, .bytes cue⟩

theorem encode_bytes_length (n : Nat) (d : Octets) :
    d.length ≤ (Field.encode ⟨n, .bytes d⟩).length ∧
      (Field.encode ⟨n, .bytes d⟩).length ≤ d.length + 20 := by
  have htag := Wire.varintAux_length 9 (Field.tag ⟨n, .bytes d⟩).toNat
  have hlen := Wire.varintAux_length 9 (UInt64.ofNat d.length).toNat
  simp only [Field.encode, Wire.Payload.encode, Wire.varint, List.length_append]
  omega

theorem encodesStep_turnStep {cue : Octets} (hcue : cue.length < 2 ^ 64) :
    EncodesStep (turnRecs cue) (turnStep cue) := by
  have hman : EncodesFields [⟨1, .varint 7⟩] (Field.encode ⟨1, .varint 7⟩ ++ []) :=
    .cons (Wire.encodesField_encode (by decide) trivial) .nil
  rw [List.append_nil] at hman
  have hrecs : Wire.Concat EncodesStepRec (turnRecs cue)
      (Field.encode ⟨1, .bytes (Field.encode ⟨1, .varint 7⟩)⟩ ++
        (Field.encode ⟨4, .bytes cue⟩ ++ [])) :=
    .cons (Wire.nested_encode hman (by decide) (by decide))
      (.cons (Wire.encodesField_encode (by simp) hcue) .nil)
  rw [List.append_nil] at hrecs
  exact Wire.interleaved_of_concat hrecs

/-- A state of that one step. -/
def turnState (cue : Octets) : Octets := Field.encode ⟨1, .bytes (turnStep cue)⟩

theorem firstStep_turnState (cue : Octets) (hcue : cue.length ≤ 1100) :
    EncodesNavigationState ⟨[navigationStepOf (turnRecs cue)]⟩ (turnState cue) ∧
      FirstStep (turnState cue) [] (turnState cue) := by
  have hlen : (turnStep cue).length < 2 ^ 64 := by
    have hman := (encode_bytes_length 1 (Field.encode ⟨1, .varint 7⟩)).2
    have hbytes := (encode_bytes_length 4 cue).2
    have htwo : (Field.encode ⟨1, .varint 7⟩).length = 2 := by decide
    simp only [turnStep, List.length_append]
    omega
  have hstep : Wire.Nested 1 EncodesStep (turnRecs cue) (turnState cue) :=
    Wire.nested_encode (encodesStep_turnStep (by omega)) (by decide) hlen
  constructor
  · have hone : Wire.Concat (Wire.Nested 1 EncodesStep) [turnRecs cue] (turnState cue ++ []) :=
      .cons hstep .nil
    rw [List.append_nil] at hone
    exact ⟨_, Wire.interleaved_of_concat hone, rfl⟩
  · exact ⟨[], _, [], [], .nil, hstep, ⟨[], .nil, rfl⟩, by simp⟩

/-- A step that ends past the cap does not arrive. -/
theorem step_lost_past_cap : ¬∀ sink : HudNav16Sink, sink.onGuidance = true → ∀ m b,
    EncodesNavigationState m b → m.steps ≠ [] →
      ∃ g g', hudNav16OnFrame (0x80 :: 0x06 :: b) (some {}) none =
          (AA_NAV16_MSG_NAV_STATE, some g, none) ∧
        relayed sink (0x80 :: 0x06 :: b) = some (.guidance g') ∧ g'.SameStep g := by
  intro h
  -- the cue fills the frame past the cap
  obtain ⟨cue, hlen⟩ : ∃ cue : Octets, cue.length = 1100 :=
    ⟨List.replicate 1100 0x41, List.length_replicate⟩
  obtain ⟨hstate, hfirst⟩ := firstStep_turnState cue (by omega)
  have hlong : AA_NAV16_MAX_FRAME < 2 + (([] : Octets) ++ turnState cue).length := by
    have hmax : AA_NAV16_MAX_FRAME = 1024 := rfl
    have hstep := (encode_bytes_length 1 (turnStep cue)).1
    have hbytes := (encode_bytes_length 4 cue).1
    simp only [turnStep, List.length_append] at hstep
    simp only [turnState, turnStep, List.nil_append]
    omega
  obtain ⟨g, g', hwhole, hcut, hsame⟩ := h ⟨true, true, true⟩ rfl _ _ hstate (by simp)
  rw [relayed_cut rfl hfirst hlong] at hcut
  obtain rfl := SinkCall.guidance.inj (Option.some_inj.mp hcut)
  obtain ⟨g₁, hframe, hshows⟩ := onFrame_navigationState hstate {} none
  rw [hwhole] at hframe
  obtain rfl := Option.some_inj.mp (Prod.mk.inj (Prod.mk.inj hframe).2).1
  -- the whole frame has the turn, and the cut one has none
  have hseven : g.maneuverType = 7 := hshows.first.maneuverType
  have hzero : 0 = g.maneuverType := congrArg AaGuidance.maneuverType hsame
  rw [hseven] at hzero
  exact absurd hzero (by decide)

/-- **The displayed step over the relay.** A well-formed frame with a step arrives with
its first step as sent if that ends within the cap, and with nothing otherwise; and
of any datagram the decoder gets the announced bytes, if the header is right. -/
theorem relay_first_step (sink : HudNav16Sink) (hsink : sink.onGuidance = true) :
    (∀ m b, EncodesNavigationState m b → m.steps ≠ [] →
      (∃ pre step, FirstStep b pre step) ∧
      ∀ pre step, FirstStep b pre step →
        (2 + (pre ++ step).length ≤ AA_NAV16_MAX_FRAME →
          ∃ g g', hudNav16OnFrame (0x80 :: 0x06 :: b) (some {}) none =
              (AA_NAV16_MSG_NAV_STATE, some g, none) ∧
            relayed sink (0x80 :: 0x06 :: b) = some (.guidance g') ∧ g'.SameStep g) ∧
        (AA_NAV16_MAX_FRAME < 2 + (pre ++ step).length →
          relayed sink (0x80 :: 0x06 :: b) = some (.guidance {}))) ∧
    (∀ dgram fed, rxRecv dgram = some fed ↔
      ∃ hdr, Admitted dgram hdr ∧ fed = (dgram.drop 8).take hdr.len.toNat) := by
  refine ⟨fun m b hstate hsteps => ⟨exists_firstStep hstate hsteps, fun pre step hfirst => ?_⟩,
    rxRecv_iff⟩
  exact ⟨relayed_append hsink hfirst, relayed_cut hsink hfirst⟩

/-- A turn without a cue arrives. -/
theorem relay_first_step_example :
    ∃ g g', hudNav16OnFrame (0x80 :: 0x06 :: turnState []) (some {}) none =
        (AA_NAV16_MSG_NAV_STATE, some g, none) ∧
      relayed ⟨true, true, true⟩ (0x80 :: 0x06 :: turnState []) = some (.guidance g') ∧
      g'.SameStep g ∧ g.maneuverType = 7 := by
  obtain ⟨hstate, hfirst⟩ := firstStep_turnState [] (by simp)
  obtain ⟨g, g', hwhole, hrelayed, hsame⟩ :=
    (((relay_first_step ⟨true, true, true⟩ rfl).1 _ _ hstate (by simp)).2 _ _ hfirst).1 (by decide)
  refine ⟨g, g', hwhole, hrelayed, hsame, ?_⟩
  obtain ⟨g₁, hframe, hshows⟩ := onFrame_navigationState hstate {} none
  rw [hwhole] at hframe
  obtain rfl := Option.some_inj.mp (Prod.mk.inj (Prod.mk.inj hframe).2).1
  exact hshows.first.maneuverType

end OemAaMod
