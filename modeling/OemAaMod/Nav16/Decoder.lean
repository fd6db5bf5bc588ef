import OemAaMod.Lib.CStr
import OemAaMod.Nav16.Reader

/-!
# The GAL 1.6 decoder of `hud_nav16.cpp`

Every `dec_*` function of the source is one loop over the fields of a message:
some field numbers are handled when they come as a varint (`w == 0`), some when
they come length-delimited (`w == 2`), everything else is skipped. `decFields`
is that loop; each function keeps its own definition as the handlers it passes.

A length-delimited handler gets the view `[data, data + len)` as a `Pb` of its
own, which is how the source nests one loop in another.

The entry points are `hudNav16OnFrame` (the public dispatcher) and
`hudNav16ReadStatus`; the ids are those of `aa_nav16_msg.h`.
-/

namespace OemAaMod

open CStr (CharBuf)

/-! ## Message ids -/

def AA_NAV16_MSG_CLUSTER_START : UInt32 := 0x8001
def AA_NAV16_MSG_CLUSTER_STOP : UInt32 := 0x8002
def AA_NAV16_MSG_STATUS : UInt32 := 0x8003
def AA_NAV16_MSG_NEXT_TURN : UInt32 := 0x8004
def AA_NAV16_MSG_NEXT_TURN_DIST : UInt32 := 0x8005
def AA_NAV16_MSG_NAV_STATE : UInt32 := 0x8006
def AA_NAV16_MSG_POSITION : UInt32 := 0x8007

/-! ## Decoded values -/

/-- `AaLane`: bit `s` set iff a direction with shape `s` was seen. -/
structure AaLane where
  presentMask   : UInt16 := 0
  highlightMask : UInt16 := 0
deriving DecidableEq, Repr

/-- The count of an empty `lanes` array. -/
def noLanes : Fin 9 := 0

/-- `AaGuidance`, as `memset` leaves it. -/
structure AaGuidance where
  haveManeuver         : Bool := false
  maneuverType         : UInt32 := 0
  roundaboutExitNumber : Int32 := 0
  roundaboutExitAngle  : Int32 := 0
  road                 : CharBuf 64 := .zero 64
  nSteps               : Nat := 0
  nLanes               : Fin 9 := noLanes
  lanes                : Vector AaLane 8 := .replicate 8 {}
deriving DecidableEq

/-- `AaPosition`, as `memset` leaves it. -/
structure AaPosition where
  haveStep    : Bool := false
  stepMeters  : Int32 := 0
  stepDisplay : CharBuf 16 := .zero 16
  stepUnits   : UInt32 := 0
  haveDest    : Bool := false
  destMeters  : Int32 := 0
  destDisplay : CharBuf 16 := .zero 16
  destUnits   : UInt32 := 0
  eta         : CharBuf 16 := .zero 16
deriving DecidableEq

/-! ## One loop for all messages -/

variable {frame : List UInt8}

/-- One turn: a handled varint, a handled length-delimited field, or a skip. A
read that fails is the `break`. -/
def decTurn {σ : Type} (onVarint : UInt32 → Option (σ → UInt64 → σ))
    (onBytes : UInt32 → Option (σ → Pb frame → σ)) (s : σ) (f w : UInt32) (c : Pb frame) :
    Option (σ × Pb frame) :=
  match if w = 0 then onVarint f else none, if w = 2 then onBytes f else none with
  | some k, _ => (rdVarint c).map fun (v, c) => (k s v, c)
  | none, some k => (rdBytes c).map fun (d, c) => (k s d, c)
  | none, none => (skip c w).map fun c => (s, c)

/-- The loop of a `dec_*` function over the view `c`. -/
def decFields {σ : Type} (onVarint : UInt32 → Option (σ → UInt64 → σ))
    (onBytes : UInt32 → Option (σ → Pb frame → σ)) (s : σ) (c : Pb frame) : σ :=
  walk (decTurn onVarint onBytes) s c

/-! ## The messages, innermost first -/

/-- The three out-parameters of `dec_distance`. -/
structure DistanceOut where
  meters : Int32
  disp   : CharBuf 16
  units  : UInt32

def decDistance (b : Pb frame) (o : DistanceOut) : DistanceOut :=
  decFields
    (fun f =>
      if f = 1 then some fun o v => { o with meters := v.toUInt32.toInt32 }
      else if f = 3 then some fun o v => { o with units := v.toUInt32 }
      else none)
    (fun f => if f = 2 then some fun o d => { o with disp := o.disp.blit d.rest } else none)
    o b

def decRoadName (b : Pb frame) (dst : CharBuf 64) : CharBuf 64 :=
  decFields (fun _ => none)
    (fun f => if f = 1 then some fun dst d => dst.blit d.rest else none) dst b

/-- The locals of `dec_lane_direction`: `shape` (unset until `have_shape`), `hi`. -/
structure DirectionLocals where
  shape : Option UInt64 := none
  hi    : Bool := false

/-- `mask |= (uint16_t)(1u << shape)`. -/
def setShape (mask : UInt16) (shape : UInt64) : UInt16 := mask ||| ((1 : UInt16) <<< shape.toUInt16)

/-- What `dec_lane_direction` does to the lane once its loop is over. -/
def AaLane.addDirection (lane : AaLane) (l : DirectionLocals) : AaLane :=
  match l.shape with
  | some shape =>
    if shape ≤ 9 then
      { presentMask := setShape lane.presentMask shape
        highlightMask :=
          if l.hi then setShape lane.highlightMask shape else lane.highlightMask }
    else lane
  | none => lane

def decDirectionLocals (b : Pb frame) : DirectionLocals :=
  decFields
    (fun f =>
      if f = 1 then some fun l v => { l with shape := some v }
      else if f = 2 then some fun l v => { l with hi := v != 0 }
      else none)
    (fun _ => none) {} b

def decLaneDirection (b : Pb frame) (lane : AaLane) : AaLane :=
  lane.addDirection (decDirectionLocals b)

def decLane (b : Pb frame) (lane : AaLane) : AaLane :=
  decFields (fun _ => none)
    (fun f => if f = 1 then some fun lane d => decLaneDirection d lane else none) lane b

def decManeuver (b : Pb frame) (g : AaGuidance) : AaGuidance :=
  decFields
    (fun f =>
      if f = 1 then some fun g v => { g with maneuverType := v.toUInt32, haveManeuver := true }
      else if f = 2 then some fun g v => { g with roundaboutExitNumber := v.toUInt32.toInt32 }
      else if f = 3 then some fun g v => { g with roundaboutExitAngle := v.toUInt32.toInt32 }
      else none)
    (fun _ => none) g b

/-- `if (g.n_lanes < MAX) { dec_lane(.., g.lanes[g.n_lanes]); g.n_lanes++; }` -/
def AaGuidance.pushLane (g : AaGuidance) (upd : AaLane → AaLane) : AaGuidance :=
  if h : g.nLanes.val < 8 then
    { g with
      lanes := g.lanes.set g.nLanes.val (upd g.lanes[g.nLanes.val])
      nLanes := ⟨g.nLanes.val + 1, by omega⟩ }
  else g

/-- Here every length-delimited field is read first and dispatched afterwards;
field 4 (cue) and unknown ones are dropped. -/
def decStep (b : Pb frame) (g : AaGuidance) : AaGuidance :=
  decFields (fun _ => none)
    (fun f => some fun g d =>
      if f = 1 then decManeuver d g
      else if f = 2 then { g with road := decRoadName d g.road }
      else if f = 3 then g.pushLane (decLane d)
      else g) g b

def AaPosition.setStep (p : AaPosition) (o : DistanceOut) : AaPosition :=
  { p with stepMeters := o.meters, stepDisplay := o.disp, stepUnits := o.units, haveStep := true }

def decStepDistance (b : Pb frame) (p : AaPosition) : AaPosition :=
  decFields (fun _ => none)
    (fun f =>
      if f = 1 then some fun p d =>
        p.setStep (decDistance d ⟨p.stepMeters, p.stepDisplay, p.stepUnits⟩)
      else none) p b

def AaPosition.setDest (p : AaPosition) (o : DistanceOut) : AaPosition :=
  { p with destMeters := o.meters, destDisplay := o.disp, destUnits := o.units, haveDest := true }

def decDestDistance (b : Pb frame) (p : AaPosition) : AaPosition :=
  decFields (fun _ => none)
    (fun f =>
      if f = 1 then some fun p d =>
        p.setDest (decDistance d ⟨p.destMeters, p.destDisplay, p.destUnits⟩)
      else if f = 2 then some fun p d => { p with eta := p.eta.blit d.rest }
      else none) p b

/-- `hud_nav16_decode_navstate`: the output and `got_step` are the loop's state. -/
def hudNav16DecodeNavstate (c : Pb frame) : AaGuidance :=
  (decFields (fun _ => none)
    (fun f =>
      if f = 1 then some fun (out, gotStep) d =>
        let out := { out with nSteps := out.nSteps + 1 }
        if gotStep then (out, gotStep) else (decStep d out, true)
      else none) (({}, false) : AaGuidance × Bool) c).1

/-- `hud_nav16_decode_position`: the output and `got_dest` are the loop's state. -/
def hudNav16DecodePosition (c : Pb frame) : AaPosition :=
  (decFields (fun _ => none)
    (fun f =>
      if f = 1 then some fun (out, gotDest) d => (decStepDistance d out, gotDest)
      else if f = 2 then some fun (out, gotDest) d =>
        if gotDest then (out, gotDest) else (decDestDistance d out, true)
      else none) (({}, false) : AaPosition × Bool) c).1

/-! ## Whole frames -/

/-- `((uint32_t)raw[0] << 8) | raw[1]`. -/
def msgId (b₀ b₁ : UInt8) : UInt32 := (b₀.toUInt32 <<< 8) ||| b₁.toUInt32

/-- The view of a frame after its two id bytes. -/
def frameBody (b₀ b₁ : UInt8) (body : List UInt8) : Pb (b₀ :: b₁ :: body) :=
  .ofFrame _ 2 (by simp)

/-- `hud_nav16_on_frame`. The out-pointers may be null; one that is not written
keeps what it points to. -/
def hudNav16OnFrame (raw : List UInt8) (g : Option AaGuidance) (p : Option AaPosition) :
    UInt32 × Option AaGuidance × Option AaPosition :=
  match raw with
  | b₀ :: b₁ :: body =>
    let id := msgId b₀ b₁
    if id = AA_NAV16_MSG_NAV_STATE ∧ g.isSome then
      (id, some (hudNav16DecodeNavstate (frameBody b₀ b₁ body)), p)
    else if id = AA_NAV16_MSG_POSITION ∧ p.isSome then
      (id, g, some (hudNav16DecodePosition (frameBody b₀ b₁ body)))
    else (id, g, p)
  | _ => (0, g, p)

/-- The loop of `hud_nav16_read_status`: the first status varint ends it, any
failed read ends it with nothing. -/
def readStatusFuel : Nat → Pb frame → Option Int32
  | 0, _ => none
  | fuel + 1, c => do
    let (f, w, c) ← rdTag c
    if f = 1 ∧ w = 0 then
      let (v, _) ← rdVarint c
      some v.toUInt32.toInt32
    else
      let c ← skip c w
      readStatusFuel fuel c

/-- `hud_nav16_read_status`: `*status_out` when it returns true. -/
def hudNav16ReadStatus (raw : List UInt8) : Option Int32 :=
  match raw with
  | b₀ :: b₁ :: body => readStatusFuel body.length (frameBody b₀ b₁ body)
  | _ => none

/-! ## The loop on an encoded message -/

/-- What one turn does on the field `f`: a length-delimited handler may use
nothing of its view but the bytes in it. -/
def Acts {σ : Type} (onVarint : UInt32 → Option (σ → UInt64 → σ))
    (onBytes : UInt32 → Option (σ → Pb frame → σ)) (f : Wire.Field) (s s' : σ) : Prop :=
  match f.payload with
  | .varint v => (onVarint (UInt32.ofNat f.num)).elim s (fun k => k s v) = s'
  | .bytes d => ∀ c : Pb frame, c.rest = d →
      (onBytes (UInt32.ofNat f.num)).elim s (fun k => k s c) = s'
  | _ => s = s'

theorem decTurn_encodes {σ : Type} {onVarint : UInt32 → Option (σ → UInt64 → σ)}
    {onBytes : UInt32 → Option (σ → Pb frame → σ)} {f : Wire.Field} {b t : List UInt8}
    {s s' : σ} {c : Pb frame} (henc : Wire.EncodesField f b)
    (hacts : Acts onVarint onBytes f s s') (hc : c.rest = b ++ t) :
    ∃ F w c₁ c', rdTag c = some (F, w, c₁) ∧
      decTurn onVarint onBytes s F w c₁ = some (s', c') ∧ c'.rest = t := by
  obtain ⟨body, c₁, hbody, hrest, htag⟩ := rdTag_encodes henc hc
  rw [Acts] at hacts
  -- the tag is read; what is left is the payload, by its wire type
  suffices h : ∃ c', decTurn onVarint onBytes s (UInt32.ofNat f.num) (UInt32.ofNat f.payload.wire)
      c₁ = some (s', c') ∧ c'.rest = t from
    h.elim fun c' hc' => ⟨_, _, c₁, c', htag, hc'⟩
  cases hpl : f.payload with
  | varint v =>
    rw [hpl] at hacts hbody
    -- a number without a handler is skipped
    cases hk : onVarint (UInt32.ofNat f.num) with
    | none =>
      obtain ⟨c', hskip, hrest'⟩ := skip_encodes hbody hrest
      refine ⟨c', ?_, hrest'⟩
      simp only [hk, Option.elim_none] at hacts
      simp [decTurn, Wire.Payload.wire, hk, hacts] at hskip ⊢
      exact hskip
    | some k =>
      obtain ⟨h⟩ := hbody
      obtain ⟨c', hread, hrest'⟩ := rdVarint_encodes h hrest
      refine ⟨c', ?_, hrest'⟩
      simp only [hk, Option.elim_some] at hacts
      simp [decTurn, Wire.Payload.wire, hk, hread, hacts]
  | bytes d =>
    rw [hpl] at hacts hbody
    obtain ⟨v, c', hread, hview, hrest'⟩ := rdBytes_encodes hbody hrest
    have hacts := hacts v hview
    refine ⟨c', ?_, hrest'⟩
    cases hk : onBytes (UInt32.ofNat f.num) with
    | none =>
      simp only [hk, Option.elim_none] at hacts
      simp [decTurn, Wire.Payload.wire, hk, skip, hread, hacts]
    | some k =>
      simp only [hk, Option.elim_some] at hacts
      simp [decTurn, Wire.Payload.wire, hk, hread, hacts]
  | fixed64 d =>
    rw [hpl] at hacts hbody
    obtain ⟨c', hskip, hrest'⟩ := skip_encodes hbody hrest
    refine ⟨c', ?_, hrest'⟩
    simp [decTurn, Wire.Payload.wire, show s = s' from hacts] at hskip ⊢
    exact hskip
  | fixed32 d =>
    rw [hpl] at hacts hbody
    obtain ⟨c', hskip, hrest'⟩ := skip_encodes hbody hrest
    refine ⟨c', ?_, hrest'⟩
    simp [decTurn, Wire.Payload.wire, show s = s' from hacts] at hskip ⊢
    exact hskip

/-- **The message lemma.** When every record of a message is one field on which a
turn has the effect `eff`, the loop folds `eff` over the records. -/
theorem decFields_concat {σ ρ : Type} {Enc : ρ → List UInt8 → Prop}
    {onVarint : UInt32 → Option (σ → UInt64 → σ)} {onBytes : UInt32 → Option (σ → Pb frame → σ)}
    {eff : σ → ρ → σ}
    (hrec : ∀ r b, Enc r b →
      ∃ f, Wire.EncodesField f b ∧ ∀ s, Acts onVarint onBytes f s (eff s r))
    {rs : List ρ} {b : List UInt8} (h : Wire.Concat Enc rs b) (s : σ) {c : Pb frame}
    (hc : c.rest = b) : decFields onVarint onBytes s c = rs.foldl eff s := by
  refine walk_concat ?_ ?_ h s hc
  · intro r b hr
    obtain ⟨f, hf, -⟩ := hrec r b hr
    exact hf.ne_nil
  · intro s r b t c hr hc
    obtain ⟨f, hf, hacts⟩ := hrec r b hr
    exact decTurn_encodes hf (hacts s) hc

/-- The message lemma for records among unknown fields, on which the loop only
moves the cursor. -/
theorem decFields_interleaved {σ κ : Type} {Enc : κ → List UInt8 → Prop}
    {Unknown : Wire.Field → Prop} {onVarint : UInt32 → Option (σ → UInt64 → σ)}
    {onBytes : UInt32 → Option (σ → Pb frame → σ)} {eff : σ → κ → σ}
    (hunknown : ∀ f, f.num < 2 ^ 29 → Unknown f → ∀ s, Acts onVarint onBytes f s s)
    (hknown : ∀ k b, Enc k b →
      ∃ f, Wire.EncodesField f b ∧ ∀ s, Acts onVarint onBytes f s (eff s k))
    {ks : List κ} {b : List UInt8} (h : Wire.Interleaved Enc Unknown ks b) (s : σ) {c : Pb frame}
    (hc : c.rest = b) : decFields onVarint onBytes s c = ks.foldl eff s := by
  obtain ⟨rs, hrs, rfl⟩ := h
  rw [List.foldl_filterMap]
  refine decFields_concat ?_ hrs s hc
  intro r b hr
  cases r with
  | known k => exact hknown k b hr
  -- an unknown field acts as if it were not there
  | unknown f =>
    obtain ⟨hf, henc⟩ := hr
    refine ⟨f, henc, hunknown f ?_ hf⟩
    obtain ⟨hnum, -, -⟩ := henc
    exact hnum

/-- The number the loop compares is the field's: no number is cut. -/
theorem ofNat_num_eq_iff {n : Nat} (hn : n < 2 ^ 29) (k : UInt32) :
    UInt32.ofNat n = k ↔ n = k.toNat := by
  rw [← UInt32.toNat_inj, UInt32.toNat_ofNat', Nat.mod_eq_of_lt (by omega)]

end OemAaMod
