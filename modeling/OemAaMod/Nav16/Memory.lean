import OemAaMod.Lib.Logged
import OemAaMod.Nav16.Feed

/-!
# The decoder in memory

`hud_nav16.cpp` once more, as it reads memory: a cursor is a pair of addresses, a
length-delimited field is an address and a length, and nothing keeps a read inside the
frame but the checks of the source. Every load is noted, and so are the cursor a reader
leaves and the views it hands on (`Access`); the loops run on fuel.

The definitions are those of `Nav16.Reader` and `Nav16.Decoder`, function by function;
`Nav16.Safety` connects the two.
-/

namespace OemAaMod.Memory

open CStr (CharBuf)
open Logged (Comp note loop)

/-! ## The reader -/

abbrev Mem := Nat → UInt8

/-- What a reader does: a load, the cursor it leaves, a view it takes from the cursor. -/
inductive Access
  | load (addr : Nat)
  | cursor (p stop : Nat)
  | view (p stop data len : Nat)
deriving DecidableEq, Repr

abbrev Reader := Comp Access

/-- `struct Pb { const uint8_t *p; const uint8_t *end; }` -/
structure Pb where
  p    : Nat
  stop : Nat
deriving DecidableEq, Repr

variable (mem : Mem)

def load (addr : Nat) : Reader UInt8 := do
  note (.load addr)
  pure (mem addr)

/-- A reader's result, with the cursor it leaves. -/
def leave {α : Type} (a : α) (c : Pb) : Reader (α × Pb) := do
  note (.cursor c.p c.stop)
  pure (a, c)

/-- `c.end - c.p`, a signed difference. -/
def Pb.left (c : Pb) : Int := (c.stop : Int) - c.p

def rdVarintLoop (c : Pb) (v : UInt64) : List Nat → Reader (Option UInt64 × Pb)
  | [] => leave none c
  | shift :: shifts =>
    if c.p < c.stop then do
      let b ← load mem c.p
      let c := { c with p := c.p + 1 }
      let v := v ||| ((b &&& 0x7f).toUInt64 <<< UInt64.ofNat shift)
      if b &&& 0x80 = 0 then leave (some v) c else rdVarintLoop c v shifts
    else leave none c

def rdVarint (c : Pb) : Reader (Option UInt64 × Pb) := rdVarintLoop mem c 0 varintShifts

def rdTag (c : Pb) : Reader (Option (UInt32 × UInt32) × Pb) :=
  if c.p ≥ c.stop then leave none c
  else do
    let (t, c) ← rdVarint mem c
    leave (t.map fun t : UInt64 => ((t >>> 3).toUInt32, (t &&& 7).toUInt32)) c

def rdBytes (c : Pb) : Reader (Option (Nat × Nat) × Pb) := do
  let (l, c) ← rdVarint mem c
  match l with
  | none => leave none c
  | some l =>
    -- `(uint64_t)(c.end - c.p) < l`
    if UInt64.ofInt c.left < l then leave none c
    else do
      note (.view c.p c.stop c.p l.toNat)
      leave (some (c.p, l.toNat)) { c with p := c.p + l.toNat }

def skip (c : Pb) (wire : UInt32) : Reader (Bool × Pb) :=
  if wire = 0 then do
    let (v, c) ← rdVarint mem c
    leave v.isSome c
  else if wire = 1 then
    if c.left < 8 then leave false c else leave true { c with p := c.p + 8 }
  else if wire = 2 then do
    let (d, c) ← rdBytes mem c
    leave d.isSome c
  else if wire = 5 then
    if c.left < 4 then leave false c else leave true { c with p := c.p + 4 }
  else leave false c

def loads (addr : Nat) : Nat → Reader (List UInt8)
  | 0 => pure []
  | n + 1 => do
    let b ← load mem addr
    let bs ← loads (addr + 1) n
    pure (b :: bs)

/-- `copy_str` into a buffer of `cap` bytes. -/
def copyStr {cap : Nat} (dst : CharBuf cap) (s n : Nat) : Reader (CharBuf cap) :=
  if cap = 0 then pure dst
  else do
    let bytes ← loads mem s (if n ≥ cap then cap - 1 else n)
    pure (dst.blit bytes)

/-! ## One loop for all messages -/

section Fields

variable {σ : Type} (onVarint : UInt32 → Option (σ → UInt64 → σ))
  (onBytes : UInt32 → Option (σ → Nat → Nat → Reader σ))

/-- One turn; no state is the `break`. -/
def decTurn (s : σ) (f w : UInt32) (c : Pb) : Reader (Option σ × Pb) :=
  match if w = 0 then onVarint f else none, if w = 2 then onBytes f else none with
  | some k, _ => do
    let (v, c) ← rdVarint mem c
    pure (v.map (k s), c)
  | none, some k => do
    let (d, c) ← rdBytes mem c
    match d with
    | some (data, len) => do
      let s ← k s data len
      pure (some s, c)
    | none => pure (none, c)
  | none, none => do
    let (ok, c) ← skip mem c w
    pure (if ok then some s else none, c)

/-- The body of `while (rd_tag(c, f, w))`. -/
def decBody (s : σ × Pb) : Reader ((σ × Pb) ⊕ σ) := do
  let (t, c) ← rdTag mem s.2
  match t with
  | none => pure (.inr s.1)
  | some (f, w) => do
    let (r, c) ← decTurn mem onVarint onBytes s.1 f w c
    match r with
    | none => pure (.inr s.1)
    | some s' => pure (.inl (s', c))

/-- The loop of a `dec_*` function over the `n` bytes at `b`. -/
def decFields (fuel : Nat) (s : σ) (b n : Nat) : Reader σ :=
  loop (decBody mem onVarint onBytes) fuel (s, ⟨b, b + n⟩)

end Fields

/-! ## The messages -/

variable (fuel : Nat)

def decDistance (b n : Nat) (o : DistanceOut) : Reader DistanceOut :=
  decFields mem
    (fun f =>
      if f = 1 then some fun o v => { o with meters := v.toUInt32.toInt32 }
      else if f = 3 then some fun o v => { o with units := v.toUInt32 }
      else none)
    (fun f =>
      if f = 2 then some fun o d l => do
        let disp ← copyStr mem o.disp d l
        pure { o with disp }
      else none) fuel o b n

def decRoadName (b n : Nat) (dst : CharBuf 64) : Reader (CharBuf 64) :=
  decFields mem (fun _ => none)
    (fun f => if f = 1 then some fun dst d l => copyStr mem dst d l else none) fuel dst b n

def decDirectionLocals (b n : Nat) : Reader DirectionLocals :=
  decFields mem
    (fun f =>
      if f = 1 then some fun l v => { l with shape := some v }
      else if f = 2 then some fun l v => { l with hi := v != 0 }
      else none)
    (fun _ => none) fuel {} b n

def decLaneDirection (b n : Nat) (lane : AaLane) : Reader AaLane := do
  let l ← decDirectionLocals mem fuel b n
  pure (lane.addDirection l)

def decLane (b n : Nat) (lane : AaLane) : Reader AaLane :=
  decFields mem (fun _ => none)
    (fun f => if f = 1 then some fun lane d l => decLaneDirection mem fuel d l lane else none)
    fuel lane b n

def decManeuver (b n : Nat) (g : AaGuidance) : Reader AaGuidance :=
  decFields mem
    (fun f =>
      if f = 1 then some fun g v => { g with maneuverType := v.toUInt32, haveManeuver := true }
      else if f = 2 then some fun g v => { g with roundaboutExitNumber := v.toUInt32.toInt32 }
      else if f = 3 then some fun g v => { g with roundaboutExitAngle := v.toUInt32.toInt32 }
      else none)
    (fun _ => none) fuel g b n

/-- The lane at `g.n_lanes`, decoded in place, if there is room for one more. -/
def pushLane (d l : Nat) (g : AaGuidance) : Reader AaGuidance :=
  if h : g.nLanes.val < 8 then do
    let lane ← decLane mem fuel d l g.lanes[g.nLanes.val]
    pure (g.pushLane fun _ => lane)
  else pure g

def decStep (b n : Nat) (g : AaGuidance) : Reader AaGuidance :=
  decFields mem (fun _ => none)
    (fun f => some fun g d l =>
      if f = 1 then decManeuver mem fuel d l g
      else if f = 2 then do
        let road ← decRoadName mem fuel d l g.road
        pure { g with road }
      else if f = 3 then pushLane mem fuel d l g
      else pure g) fuel g b n

def decStepDistance (b n : Nat) (p : AaPosition) : Reader AaPosition :=
  decFields mem (fun _ => none)
    (fun f =>
      if f = 1 then some fun p d l => do
        let o ← decDistance mem fuel d l ⟨p.stepMeters, p.stepDisplay, p.stepUnits⟩
        pure (p.setStep o)
      else none) fuel p b n

def decDestDistance (b n : Nat) (p : AaPosition) : Reader AaPosition :=
  decFields mem (fun _ => none)
    (fun f =>
      if f = 1 then some fun p d l => do
        let o ← decDistance mem fuel d l ⟨p.destMeters, p.destDisplay, p.destUnits⟩
        pure (p.setDest o)
      else if f = 2 then some fun p d l => do
        let eta ← copyStr mem p.eta d l
        pure { p with eta }
      else none) fuel p b n

/-- `hud_nav16_decode_navstate`, on the `len` bytes at `proto`. -/
def hudNav16DecodeNavstate (proto len : Nat) : Reader AaGuidance := do
  let r ← decFields mem (fun _ => none)
    (fun f =>
      if f = 1 then some fun s d l =>
        let out := { s.1 with nSteps := s.1.nSteps + 1 }
        if s.2 then pure (out, s.2)
        else do
          let out ← decStep mem fuel d l out
          pure (out, true)
      else none) fuel (({}, false) : AaGuidance × Bool) proto len
  pure r.1

/-- `hud_nav16_decode_position`, on the `len` bytes at `proto`. -/
def hudNav16DecodePosition (proto len : Nat) : Reader AaPosition := do
  let r ← decFields mem (fun _ => none)
    (fun f =>
      if f = 1 then some fun s d l => do
        let out ← decStepDistance mem fuel d l s.1
        pure (out, s.2)
      else if f = 2 then some fun s d l =>
        if s.2 then pure s
        else do
          let out ← decDestDistance mem fuel d l s.1
          pure (out, true)
      else none) fuel (({}, false) : AaPosition × Bool) proto len
  pure r.1

/-! ## Whole frames -/

/-- `((uint32_t)raw[0] << 8) | raw[1]`. -/
def loadId (raw : Nat) : Reader UInt32 := do
  let b₀ ← load mem raw
  let b₁ ← load mem (raw + 1)
  pure (msgId b₀ b₁)

/-- `hud_nav16_on_frame`; any of the pointers may be null. -/
def hudNav16OnFrame (raw : Option Nat) (size : Int32) (g : Option AaGuidance)
    (p : Option AaPosition) : Reader (UInt32 × Option AaGuidance × Option AaPosition) :=
  match raw with
  | none => pure (0, g, p)
  | some raw =>
    if size < 2 then pure (0, g, p)
    else do
      let id ← loadId mem raw
      let body := raw + 2
      let blen := (size - 2).toNatClampNeg
      if id = AA_NAV16_MSG_NAV_STATE ∧ g.isSome then do
        let g ← hudNav16DecodeNavstate mem fuel body blen
        pure (id, some g, p)
      else if id = AA_NAV16_MSG_POSITION ∧ p.isSome then do
        let p ← hudNav16DecodePosition mem fuel body blen
        pure (id, g, some p)
      else pure (id, g, p)

/-- The body of the loop of `hud_nav16_read_status`. -/
def statusBody (c : Pb) : Reader (Pb ⊕ Option Int32) := do
  let (t, c) ← rdTag mem c
  match t with
  | none => pure (.inr none)
  | some (f, w) =>
    if f = 1 ∧ w = 0 then do
      let (v, _) ← rdVarint mem c
      pure (.inr (v.map fun v => v.toUInt32.toInt32))
    else do
      let (ok, c) ← skip mem c w
      pure (if ok then .inl c else .inr none)

/-- `hud_nav16_read_status`: `*status_out` when it returns true. -/
def hudNav16ReadStatus (raw : Option Nat) (size : Int32) : Reader (Option Int32) :=
  match raw with
  | none => pure none
  | some raw =>
    if size < 2 then pure none
    else loop (statusBody mem) fuel ⟨raw + 2, raw + size.toNatClampNeg⟩

/-- `hud_nav16_feed`: the callback it calls. -/
def hudNav16Feed (sink : HudNav16Sink) (frame : Option Nat) (len : Int32) :
    Reader (Option SinkCall) :=
  match frame with
  | none => pure none
  | some raw =>
    if len < 2 then pure none
    else do
      let id ← loadId mem raw
      if id = AA_NAV16_MSG_NAV_STATE then
        if sink.onGuidance then do
          let r ← hudNav16OnFrame mem fuel (some raw) len (some {}) none
          pure (r.2.1.map .guidance)
        else pure none
      else if id = AA_NAV16_MSG_POSITION then
        if sink.onPosition then do
          let r ← hudNav16OnFrame mem fuel (some raw) len none (some {})
          pure (r.2.2.map .position)
        else pure none
      else if id = AA_NAV16_MSG_STATUS then
        if sink.onStatus then do
          let status ← hudNav16ReadStatus mem fuel (some raw) len
          pure (some (.status { navStatus := status.getD (-1) }))
        else pure none
      else if id = AA_NAV16_MSG_CLUSTER_STOP then
        pure (if sink.onStatus then some (.status { clusterStop := true }) else none)
      else pure none

end OemAaMod.Memory
