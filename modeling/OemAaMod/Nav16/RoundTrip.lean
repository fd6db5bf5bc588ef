import OemAaMod.Nav16.Decoder

/-!
# Decoding undoes encoding

The two GAL 1.6 messages as a phone sees them (`NavigationState`,
`NavigationCurrentPosition`), what bytes encode them, and what the decoder makes
of those bytes.

A message is read off its records by the merge rules of the format: repeated
scalars keep their last value, a repeated submessage contributes its fields to
one merged submessage, lanes, directions, steps and destinations are lists. The
encodings admit fields in any order, unknown fields at every level, and varints
in any form (`Wire.Concat`, `Wire.Interleaved`, `Wire.EncodesVarint`).

Main result:

* `hudNav16OnFrame_encodes` — on the two id bytes and an encoding of a message,
  `hudNav16OnFrame` yields exactly what the display uses of it
  (`AaGuidance.Shows`, `AaPosition.Shows`).

The effect of each `dec_*` function on its records (`decManeuver_eff` …
`hudNav16DecodePosition_eff`) is a fold; the remaining lemmas read each
component off the fold.
-/

namespace OemAaMod

open CStr (CharBuf)
open Wire (Octets Field lastOf Concat Nested Interleaved EncodesField)

/-! ## The messages -/

structure LaneDirection where
  shape       : Option UInt64
  highlighted : Bool

structure NavigationStep where
  maneuverType : Option UInt32 := none
  exitNumber   : Option Int32 := none
  exitAngle    : Option Int32 := none
  road         : Option Octets := none
  lanes        : List (List LaneDirection) := []
  cue          : Option Octets := none

structure NavigationState where
  steps : List NavigationStep

structure NavigationDistance where
  meters       : Option Int32 := none
  displayValue : Option Octets := none
  displayUnits : Option UInt32 := none

structure DestinationDistance where
  distance : Option NavigationDistance := none
  eta      : Option Octets := none

structure NavigationCurrentPosition where
  stepDistance : Option NavigationDistance
  destinations : List DestinationDistance

/-! ## What encodes them -/

/-- A plain list of fields, known or not. -/
abbrev EncodesFields (fs : List Field) (b : Octets) : Prop := Concat EncodesField fs b

def laneDirectionOf (fs : List Field) : LaneDirection where
  shape := lastOf (Field.varint? 1) fs
  highlighted := ((lastOf (Field.varint? 2) fs).map (· != 0)).getD false

def EncodesDirection (d : LaneDirection) (b : Octets) : Prop :=
  ∃ fs, EncodesFields fs b ∧ laneDirectionOf fs = d

def EncodesLane (ds : List LaneDirection) (b : Octets) : Prop :=
  Interleaved (Nested 1 EncodesDirection) (fun f => f.bytes? 1 = none) ds b

/-- What the reader of a step can meet. -/
inductive StepRec
  | maneuver (fs : List Field)
  | road (fs : List Field)
  | lane (ds : List LaneDirection)
  | cue (content : Octets)

def EncodesStepRec : StepRec → Octets → Prop
  | .maneuver fs, b => Nested 1 EncodesFields fs b
  | .road fs, b => Nested 2 EncodesFields fs b
  | .lane ds, b => Nested 3 EncodesLane ds b
  | .cue content, b => EncodesField ⟨4, .bytes content⟩ b

def EncodesStep (rs : List StepRec) (b : Octets) : Prop :=
  Interleaved EncodesStepRec
    (fun f => f.bytes? 1 = none ∧ f.bytes? 2 = none ∧ f.bytes? 3 = none ∧ f.bytes? 4 = none) rs b

namespace StepRec

def maneuverFields : StepRec → List Field
  | maneuver fs => fs
  | _ => []

def roadFields : StepRec → List Field
  | road fs => fs
  | _ => []

def lane? : StepRec → Option (List LaneDirection)
  | lane ds => some ds
  | _ => none

def cue? : StepRec → Option Octets
  | cue content => some content
  | _ => none

end StepRec

/-- The low 32 bits, which is what a 32-bit field is on the wire. -/
def int32Of (v : UInt64) : Int32 := v.toUInt32.toInt32

def navigationStepOf (rs : List StepRec) : NavigationStep where
  maneuverType := (lastOf (Field.varint? 1) (rs.flatMap StepRec.maneuverFields)).map (·.toUInt32)
  exitNumber := (lastOf (Field.varint? 2) (rs.flatMap StepRec.maneuverFields)).map int32Of
  exitAngle := (lastOf (Field.varint? 3) (rs.flatMap StepRec.maneuverFields)).map int32Of
  road := lastOf (Field.bytes? 1) (rs.flatMap StepRec.roadFields)
  lanes := rs.filterMap StepRec.lane?
  cue := match rs.filterMap StepRec.cue? with
    | [] => none
    | cs => some cs.flatten

/-- `b` is an encoding of the message `m`. -/
def EncodesNavigationState (m : NavigationState) (b : Octets) : Prop :=
  ∃ steps, Interleaved (Nested 1 EncodesStep) (fun f => f.bytes? 1 = none) steps b ∧
    m = ⟨steps.map navigationStepOf⟩

def navigationDistanceOf : List (List Field) → Option NavigationDistance
  | [] => none
  | fs => some {
      meters := (lastOf (Field.varint? 1) fs.flatten).map int32Of
      displayValue := lastOf (Field.bytes? 2) fs.flatten
      displayUnits := (lastOf (Field.varint? 3) fs.flatten).map (·.toUInt32) }

/-- A step distance is a list of `distance` submessages, merged into one. -/
def EncodesStepDistance (ds : List (List Field)) (b : Octets) : Prop :=
  Interleaved (Nested 1 EncodesFields) (fun f => f.bytes? 1 = none) ds b

inductive DestRec
  | distance (fs : List Field)
  | eta (s : Octets)

def EncodesDestRec : DestRec → Octets → Prop
  | .distance fs, b => Nested 1 EncodesFields fs b
  | .eta s, b => EncodesField ⟨2, .bytes s⟩ b

def EncodesDest (rs : List DestRec) (b : Octets) : Prop :=
  Interleaved EncodesDestRec (fun f => f.bytes? 1 = none ∧ f.bytes? 2 = none) rs b

def DestRec.distance? : DestRec → Option (List Field)
  | distance fs => some fs
  | eta _ => none

def DestRec.eta? : DestRec → Option Octets
  | eta s => some s
  | distance _ => none

def destinationDistanceOf (rs : List DestRec) : DestinationDistance where
  distance := navigationDistanceOf (rs.filterMap DestRec.distance?)
  eta := lastOf DestRec.eta? rs

inductive PosRec
  | stepDistance (ds : List (List Field))
  | destination (rs : List DestRec)

def EncodesPosRec : PosRec → Octets → Prop
  | .stepDistance ds, b => Nested 1 EncodesStepDistance ds b
  | .destination rs, b => Nested 2 EncodesDest rs b

def PosRec.distances : PosRec → List (List Field)
  | stepDistance ds => ds
  | destination _ => []

def PosRec.destination? : PosRec → Option (List DestRec)
  | destination rs => some rs
  | stepDistance _ => none

/-- `b` is an encoding of the message `m`. -/
def EncodesNavigationCurrentPosition (m : NavigationCurrentPosition) (b : Octets) : Prop :=
  ∃ rs, Interleaved EncodesPosRec (fun f => f.bytes? 1 = none ∧ f.bytes? 2 = none) rs b ∧
    m = ⟨navigationDistanceOf (rs.flatMap PosRec.distances),
      (rs.filterMap PosRec.destination?).map destinationDistanceOf⟩

/-! ## What the decoder has to make of them -/

/-- `buf` holds `s` cut to the room before the terminator. -/
def Holds {cap : Nat} (buf : CharBuf cap) (s : Octets) : Prop :=
  s.take (cap - 1) ++ [0] <+: buf.bytes

/-- The bit of a shape is set iff one of the directions has it. -/
structure AaLane.Shows (l : AaLane) (ds : List LaneDirection) : Prop where
  present : ∀ s < 16, l.presentMask.toNat.testBit s = true ↔
    s ≤ 9 ∧ ∃ d ∈ ds, d.shape = some (UInt64.ofNat s)
  highlight : ∀ s < 16, l.highlightMask.toNat.testBit s = true ↔
    s ≤ 9 ∧ ∃ d ∈ ds, d.shape = some (UInt64.ofNat s) ∧ d.highlighted = true

structure AaGuidance.ShowsStep (g : AaGuidance) (m : NavigationStep) : Prop where
  haveManeuver : g.haveManeuver = m.maneuverType.isSome
  maneuverType : g.maneuverType = m.maneuverType.getD 0
  exitNumber   : g.roundaboutExitNumber = m.exitNumber.getD 0
  exitAngle    : g.roundaboutExitAngle = m.exitAngle.getD 0
  road         : Holds g.road (m.road.getD [])
  nLanes       : g.nLanes.val = min m.lanes.length 8
  lanes        : ∀ i (h : i < 8), g.lanes[i].Shows (m.lanes[i]?.getD [])

/-- The step count, and the first step only. -/
structure AaGuidance.Shows (g : AaGuidance) (m : NavigationState) : Prop where
  nSteps : g.nSteps = m.steps.length
  first  : g.ShowsStep (m.steps.headD {})

structure AaPosition.Shows (p : AaPosition) (m : NavigationCurrentPosition) : Prop where
  haveStep    : p.haveStep = m.stepDistance.isSome
  stepMeters  : p.stepMeters = (m.stepDistance.bind (·.meters)).getD 0
  stepDisplay : Holds p.stepDisplay ((m.stepDistance.bind (·.displayValue)).getD [])
  stepUnits   : p.stepUnits = (m.stepDistance.bind (·.displayUnits)).getD 0
  haveDest    : p.haveDest = (m.destinations.headD {}).distance.isSome
  destMeters  : p.destMeters = ((m.destinations.headD {}).distance.bind (·.meters)).getD 0
  destDisplay : Holds p.destDisplay
    (((m.destinations.headD {}).distance.bind (·.displayValue)).getD [])
  destUnits   : p.destUnits = ((m.destinations.headD {}).distance.bind (·.displayUnits)).getD 0
  eta         : Holds p.eta ((m.destinations.headD {}).eta.getD [])

/-! ## The effect of each loop -/

variable {frame : List UInt8}

/-- A length-delimited field whose number is not among the handled ones. -/
theorem acts_unknown {σ : Type} {onBytes : UInt32 → Option (σ → Pb frame → σ)} {f : Field}
    (h : ∀ d, f.payload = .bytes d → ∀ s (c : Pb frame),
      (onBytes (UInt32.ofNat f.num)).elim s (fun k => k s c) = s) (s : σ) :
    Acts (fun _ => none) onBytes f s s := by
  rw [Acts]
  split
  · rfl
  · rename_i d hpl
    exact fun c _ => h d hpl s c
  · rfl

theorem bytes?_eq_none {n : Nat} {f : Field} {d : Octets} (hpl : f.payload = .bytes d)
    (h : f.bytes? n = none) : f.num ≠ n := by
  rintro rfl
  simp [Field.bytes?, hpl] at h

/-- `dec_distance`, per field. -/
def DistanceOut.eff (o : DistanceOut) (f : Field) : DistanceOut where
  meters := ((f.varint? 1).map int32Of).getD o.meters
  disp := ((f.bytes? 2).map o.disp.blit).getD o.disp
  units := ((f.varint? 3).map (·.toUInt32)).getD o.units

theorem decDistance_eff {fs : List Field} {b : Octets} (h : EncodesFields fs b) (o : DistanceOut)
    {c : Pb frame} (hc : c.rest = b) : decDistance c o = fs.foldl DistanceOut.eff o := by
  refine decFields_concat ?_ h o hc
  intro f b hf
  refine ⟨f, hf, fun o => ?_⟩
  obtain ⟨hnum, -, -⟩ := hf
  rcases f with ⟨num, pl⟩
  have heq := ofNat_num_eq_iff hnum
  simp only [Acts, DistanceOut.eff, Field.varint?, Field.bytes?, heq]
  cases pl with
  | varint v => by_cases h1 : num = 1 <;> by_cases h3 : num = 3 <;> simp_all [int32Of]
  | bytes d => by_cases h2 : num = 2 <;> simp_all
  | fixed64 d => rfl
  | fixed32 d => rfl

/-- `dec_road_name`, per field. -/
def roadEff (dst : CharBuf 64) (f : Field) : CharBuf 64 := ((f.bytes? 1).map dst.blit).getD dst

theorem decRoadName_eff {fs : List Field} {b : Octets} (h : EncodesFields fs b) (dst : CharBuf 64)
    {c : Pb frame} (hc : c.rest = b) : decRoadName c dst = fs.foldl roadEff dst := by
  refine decFields_concat ?_ h dst hc
  intro f b hf
  refine ⟨f, hf, fun dst => ?_⟩
  obtain ⟨hnum, -, -⟩ := hf
  rcases f with ⟨num, pl⟩
  have heq := ofNat_num_eq_iff hnum
  simp only [Acts, roadEff, Field.bytes?, heq]
  cases pl with
  | bytes d => by_cases h1 : num = 1 <;> simp_all
  | varint v => rfl
  | fixed64 d => rfl
  | fixed32 d => rfl

/-- The locals of `dec_lane_direction`, per field. -/
def DirectionLocals.eff (l : DirectionLocals) (f : Field) : DirectionLocals where
  shape := ((f.varint? 1).map some).getD l.shape
  hi := ((f.varint? 2).map (· != 0)).getD l.hi

theorem decDirectionLocals_eff {fs : List Field} {b : Octets} (h : EncodesFields fs b)
    {c : Pb frame} (hc : c.rest = b) :
    decDirectionLocals c = fs.foldl DirectionLocals.eff {} := by
  refine decFields_concat ?_ h _ hc
  intro f b hf
  refine ⟨f, hf, fun l => ?_⟩
  obtain ⟨hnum, -, -⟩ := hf
  rcases f with ⟨num, pl⟩
  have heq := ofNat_num_eq_iff hnum
  simp only [Acts, DirectionLocals.eff, Field.varint?, heq]
  cases pl with
  | varint v => by_cases h1 : num = 1 <;> by_cases h2 : num = 2 <;> simp_all
  | bytes d => exact fun _ _ => rfl
  | fixed64 d => rfl
  | fixed32 d => rfl

/-- A direction reaches the lane as what it says, however it was encoded. -/
theorem decLaneDirection_eff {d : LaneDirection} {b : Octets} (h : EncodesDirection d b)
    (lane : AaLane) {c : Pb frame} (hc : c.rest = b) :
    decLaneDirection c lane = lane.addDirection ⟨d.shape, d.highlighted⟩ := by
  obtain ⟨fs, hfs, rfl⟩ := h
  have hshape : (fs.foldl DirectionLocals.eff {}).shape = lastOf (Field.varint? 1) fs := by
    rw [Wire.foldl_slot DirectionLocals.shape (fun f => (f.varint? 1).map some) fun _ _ => rfl,
      Wire.lastOf_map]
    cases lastOf (Field.varint? 1) fs <;> rfl
  have hhi : (fs.foldl DirectionLocals.eff {}).hi =
      ((lastOf (Field.varint? 2) fs).map (· != 0)).getD false := by
    rw [Wire.foldl_slot DirectionLocals.hi (fun f => (f.varint? 2).map (· != 0)) fun _ _ => rfl,
      Wire.lastOf_map]
  rw [decLaneDirection, decDirectionLocals_eff hfs hc, laneDirectionOf, ← hshape, ← hhi]

/-- A lane's effect, per direction. -/
def AaLane.eff (lane : AaLane) (d : LaneDirection) : AaLane :=
  lane.addDirection ⟨d.shape, d.highlighted⟩

theorem decLane_eff {ds : List LaneDirection} {b : Octets} (h : EncodesLane ds b) (lane : AaLane)
    {c : Pb frame} (hc : c.rest = b) : decLane c lane = ds.foldl AaLane.eff lane := by
  refine decFields_interleaved ?_ ?_ h lane hc
  · intro f hnum hf
    refine acts_unknown fun d hpl s c => ?_
    have := bytes?_eq_none hpl hf
    simp [ofNat_num_eq_iff hnum, this]
  · rintro d b ⟨body, hd, hf⟩
    refine ⟨_, hf, fun lane c hc => ?_⟩
    simpa [AaLane.eff] using decLaneDirection_eff hd lane hc

/-- `dec_maneuver`, per field. -/
def AaGuidance.maneuverEff (g : AaGuidance) (f : Field) : AaGuidance :=
  { g with
    haveManeuver := ((f.varint? 1).map fun _ => true).getD g.haveManeuver
    maneuverType := ((f.varint? 1).map (·.toUInt32)).getD g.maneuverType
    roundaboutExitNumber := ((f.varint? 2).map int32Of).getD g.roundaboutExitNumber
    roundaboutExitAngle := ((f.varint? 3).map int32Of).getD g.roundaboutExitAngle }

theorem decManeuver_eff {fs : List Field} {b : Octets} (h : EncodesFields fs b) (g : AaGuidance)
    {c : Pb frame} (hc : c.rest = b) : decManeuver c g = fs.foldl AaGuidance.maneuverEff g := by
  refine decFields_concat ?_ h g hc
  intro f b hf
  refine ⟨f, hf, fun g => ?_⟩
  obtain ⟨hnum, -, -⟩ := hf
  -- type, exit number and exit angle are varints; anything else is skipped
  rcases f with ⟨num, pl⟩
  have heq := ofNat_num_eq_iff hnum
  simp only [Acts, AaGuidance.maneuverEff, Field.varint?, heq]
  cases pl with
  | varint v =>
    by_cases h1 : num = 1
    · simp_all
    · by_cases h2 : num = 2
      · simp_all [int32Of]
      · by_cases h3 : num = 3 <;> simp_all [int32Of]
  | bytes d => exact fun _ _ => rfl
  | fixed64 d => rfl
  | fixed32 d => rfl

/-- `dec_step`, per record. -/
def AaGuidance.stepEff (g : AaGuidance) : StepRec → AaGuidance
  | .maneuver fs => fs.foldl AaGuidance.maneuverEff g
  | .road fs => { g with road := fs.foldl roadEff g.road }
  | .lane ds => g.pushLane fun lane => ds.foldl AaLane.eff lane
  | .cue _ => g

theorem pushLane_congr {g : AaGuidance} {u v : AaLane → AaLane} (h : ∀ lane, u lane = v lane) :
    g.pushLane u = g.pushLane v := by
  rw [funext h]

theorem decStep_eff {rs : List StepRec} {b : Octets} (h : EncodesStep rs b) (g : AaGuidance)
    {c : Pb frame} (hc : c.rest = b) : decStep c g = rs.foldl AaGuidance.stepEff g := by
  refine decFields_interleaved ?_ ?_ h g hc
  · -- a field the step handler does not know
    rintro f hnum ⟨h1, h2, h3, -⟩
    refine acts_unknown fun d hpl s c => ?_
    have h1 := bytes?_eq_none hpl h1
    have h2 := bytes?_eq_none hpl h2
    have h3 := bytes?_eq_none hpl h3
    simp [ofNat_num_eq_iff hnum, h1, h2, h3]
  · intro r b hr
    cases r with
    | maneuver fs =>
      obtain ⟨body, hfs, hf⟩ := hr
      refine ⟨_, hf, fun g c hc => ?_⟩
      simpa [AaGuidance.stepEff] using decManeuver_eff hfs g hc
    | road fs =>
      obtain ⟨body, hfs, hf⟩ := hr
      refine ⟨_, hf, fun g c hc => ?_⟩
      simp [AaGuidance.stepEff, decRoadName_eff hfs g.road hc]
    | lane ds =>
      obtain ⟨body, hds, hf⟩ := hr
      refine ⟨_, hf, fun g c hc => ?_⟩
      simpa [AaGuidance.stepEff] using pushLane_congr fun lane => decLane_eff hds lane hc
    | cue content =>
      refine ⟨_, hr, fun g c hc => ?_⟩
      simp [AaGuidance.stepEff]

/-- `dec_step_distance`, per distance submessage. -/
def AaPosition.stepEff (p : AaPosition) (fs : List Field) : AaPosition :=
  p.setStep (fs.foldl DistanceOut.eff ⟨p.stepMeters, p.stepDisplay, p.stepUnits⟩)

theorem decStepDistance_eff {ds : List (List Field)} {b : Octets} (h : EncodesStepDistance ds b)
    (p : AaPosition) {c : Pb frame} (hc : c.rest = b) :
    decStepDistance c p = ds.foldl AaPosition.stepEff p := by
  refine decFields_interleaved ?_ ?_ h p hc
  · intro f hnum hf
    refine acts_unknown fun d hpl s c => ?_
    have := bytes?_eq_none hpl hf
    simp [ofNat_num_eq_iff hnum, this]
  · rintro fs b ⟨body, hfs, hf⟩
    refine ⟨_, hf, fun p c hc => ?_⟩
    simp [AaPosition.stepEff, decDistance_eff hfs _ hc]

/-- `dec_dest_distance`, per record. -/
def AaPosition.destEff (p : AaPosition) : DestRec → AaPosition
  | .distance fs =>
    p.setDest (fs.foldl DistanceOut.eff ⟨p.destMeters, p.destDisplay, p.destUnits⟩)
  | .eta s => { p with eta := p.eta.blit s }

theorem decDestDistance_eff {rs : List DestRec} {b : Octets} (h : EncodesDest rs b)
    (p : AaPosition) {c : Pb frame} (hc : c.rest = b) :
    decDestDistance c p = rs.foldl AaPosition.destEff p := by
  refine decFields_interleaved ?_ ?_ h p hc
  · rintro f hnum ⟨h1, h2⟩
    refine acts_unknown fun d hpl s c => ?_
    have h1 := bytes?_eq_none hpl h1
    have h2 := bytes?_eq_none hpl h2
    simp [ofNat_num_eq_iff hnum, h1, h2]
  · intro r b hr
    cases r with
    | distance fs =>
      obtain ⟨body, hfs, hf⟩ := hr
      refine ⟨_, hf, fun p c hc => ?_⟩
      simp [AaPosition.destEff, decDistance_eff hfs _ hc]
    | eta s =>
      refine ⟨_, hr, fun p c hc => ?_⟩
      simp [AaPosition.destEff, hc]

/-- `hud_nav16_decode_navstate`, per step: all are counted, the first is decoded. -/
def navstateEff (s : AaGuidance × Bool) (rs : List StepRec) : AaGuidance × Bool :=
  let out := { s.1 with nSteps := s.1.nSteps + 1 }
  if s.2 then (out, true) else (rs.foldl AaGuidance.stepEff out, true)

theorem hudNav16DecodeNavstate_eff {steps : List (List StepRec)} {b : Octets}
    (h : Interleaved (Nested 1 EncodesStep) (fun f => f.bytes? 1 = none) steps b)
    {c : Pb frame} (hc : c.rest = b) :
    hudNav16DecodeNavstate c = (steps.foldl navstateEff ({}, false)).1 := by
  refine congrArg Prod.fst (decFields_interleaved ?_ ?_ h _ hc)
  · intro f hnum hf
    refine acts_unknown fun d hpl s c => ?_
    have := bytes?_eq_none hpl hf
    simp [ofNat_num_eq_iff hnum, this]
  · rintro rs b ⟨body, hrs, hf⟩
    refine ⟨_, hf, fun s c hc => ?_⟩
    rcases s with ⟨out, _ | _⟩
    · simp [navstateEff, decStep_eff hrs _ hc]
    · simp [navstateEff]

/-- `hud_nav16_decode_position`, per record: one destination is decoded. -/
def positionEff (s : AaPosition × Bool) : PosRec → AaPosition × Bool
  | .stepDistance ds => (ds.foldl AaPosition.stepEff s.1, s.2)
  | .destination rs => if s.2 then s else (rs.foldl AaPosition.destEff s.1, true)

theorem hudNav16DecodePosition_eff {rs : List PosRec} {b : Octets}
    (h : Interleaved EncodesPosRec (fun f => f.bytes? 1 = none ∧ f.bytes? 2 = none) rs b)
    {c : Pb frame} (hc : c.rest = b) :
    hudNav16DecodePosition c = (rs.foldl positionEff ({}, false)).1 := by
  refine congrArg Prod.fst (decFields_interleaved ?_ ?_ h _ hc)
  · rintro f hnum ⟨h1, h2⟩
    refine acts_unknown fun d hpl s c => ?_
    have h1 := bytes?_eq_none hpl h1
    have h2 := bytes?_eq_none hpl h2
    simp [ofNat_num_eq_iff hnum, h1, h2]
  · intro r b hr
    cases r with
    | stepDistance ds =>
      obtain ⟨body, hds, hf⟩ := hr
      refine ⟨_, hf, fun s c hc => ?_⟩
      simp [positionEff, decStepDistance_eff hds _ hc]
    | destination rs =>
      obtain ⟨body, hrs, hf⟩ := hr
      refine ⟨_, hf, fun s c hc => ?_⟩
      -- only the first destination is read
      rcases s with ⟨out, _ | _⟩
      · simp [positionEff, decDestDistance_eff hrs _ hc]
      · simp [positionEff]

/-! ## Strings: the last copy is what the buffer starts with -/

theorem holds_zero {cap : Nat} (h : 0 < cap) : Holds (CharBuf.zero cap) [] := by
  obtain ⟨n, rfl⟩ : ∃ n, cap = n + 1 := ⟨cap - 1, by omega⟩
  exact ⟨List.replicate n 0, by simp [CharBuf.zero, List.replicate_succ]⟩

/-- Copying at every hit leaves the last hit at the start of the buffer. -/
theorem holds_foldl_blit {cap : Nat} (h : 0 < cap) {α : Type} (p : α → Option Octets)
    (l : List α) {buf : CharBuf cap} {s : Octets} (hbuf : Holds buf s) :
    Holds (l.foldl (fun buf a => ((p a).map buf.blit).getD buf) buf) ((lastOf p l).getD s) := by
  induction l generalizing buf s with
  | nil => exact hbuf
  | cons a l ih =>
    rw [List.foldl_cons, Wire.lastOf_cons_getD]
    apply ih
    cases p a with
    | none => exact hbuf
    | some v => exact CharBuf.blit_prefix h buf v

/-! ## Lanes -/

/-- A mask has sixteen bits. -/
theorem lt_of_testBit_mask {mask : UInt16} {s : Nat} (h : mask.toNat.testBit s = true) :
    s < 16 := by
  have hle : 2 ^ s ≤ mask.toNat := Nat.ge_two_pow_of_testBit h
  have hlt : 2 ^ s < 2 ^ 16 := Nat.lt_of_le_of_lt hle mask.toNat_lt
  exact (Nat.pow_lt_pow_iff_right (by decide)).mp hlt

theorem mask_ext {mask mask' : UInt16}
    (h : ∀ s < 16, mask.toNat.testBit s = true ↔ mask'.toNat.testBit s = true) :
    mask = mask' := by
  rw [← UInt16.toNat_inj]
  refine Nat.eq_of_testBit_eq fun s => Bool.eq_iff_iff.mpr ⟨fun hs => ?_, fun hs => ?_⟩
  · exact (h s (lt_of_testBit_mask hs)).mp hs
  · exact (h s (lt_of_testBit_mask hs)).mpr hs

theorem testBit_setShape (mask : UInt16) {shape : UInt64} (hshape : shape ≤ 9) {s : Nat}
    (hs : s < 16) :
    (setShape mask shape).toNat.testBit s = true ↔
      mask.toNat.testBit s = true ∨ shape = UInt64.ofNat s := by
  have hle : shape.toNat ≤ 9 := hshape
  have hshift : shape.toUInt16.toNat % 16 = shape.toNat := by
    rw [UInt64.toNat_toUInt16]
    omega
  have heq : shape = UInt64.ofNat s ↔ shape.toNat = s := by
    rw [← UInt64.toNat_inj, UInt64.toNat_ofNat', Nat.mod_eq_of_lt (by omega)]
  rw [setShape, UInt16.toNat_or, Nat.testBit_or, UInt16.toNat_shiftLeft, hshift, heq,
    Nat.testBit_mod_two_pow, show (1 : UInt16).toNat = 1 from rfl, Nat.one_shiftLeft,
    Nat.testBit_two_pow]
  simp [hs]

theorem ofNat_le_nine {s : Nat} (hs : s < 16) : UInt64.ofNat s ≤ 9 ↔ s ≤ 9 := by
  rw [UInt64.le_iff_toNat_le, UInt64.toNat_ofNat', Nat.mod_eq_of_lt (by omega)]
  rfl

theorem eff_present (lane : AaLane) (d : LaneDirection) {s : Nat} (hs : s < 16) :
    (lane.eff d).presentMask.toNat.testBit s = true ↔
      lane.presentMask.toNat.testBit s = true ∨ (s ≤ 9 ∧ d.shape = some (UInt64.ofNat s)) := by
  rw [← ofNat_le_nine hs]
  unfold AaLane.eff AaLane.addDirection
  cases hshape : d.shape with
  | none => simp
  | some shape =>
    by_cases hle : shape ≤ 9
    · simp only [if_pos hle, testBit_setShape _ hle hs, Option.some.injEq]
      constructor
      · rintro (h | rfl)
        · exact .inl h
        · exact .inr ⟨hle, rfl⟩
      · rintro (h | ⟨-, h⟩)
        · exact .inl h
        · exact .inr h
    · simp only [if_neg hle, Option.some.injEq]
      constructor
      · exact .inl
      · rintro (h | ⟨h, rfl⟩)
        · exact h
        · exact absurd h hle

theorem eff_highlight (lane : AaLane) (d : LaneDirection) {s : Nat} (hs : s < 16) :
    (lane.eff d).highlightMask.toNat.testBit s = true ↔
      lane.highlightMask.toNat.testBit s = true ∨
        (s ≤ 9 ∧ d.shape = some (UInt64.ofNat s) ∧ d.highlighted = true) := by
  rw [← ofNat_le_nine hs]
  unfold AaLane.eff AaLane.addDirection
  cases hshape : d.shape with
  | none => simp
  | some shape =>
    by_cases hle : shape ≤ 9
    · cases hhi : d.highlighted with
      | false => simp [hle]
      | true =>
        simp only [if_pos hle, if_true, testBit_setShape _ hle hs, Option.some.injEq]
        constructor
        · rintro (h | rfl)
          · exact .inl h
          · exact .inr ⟨hle, rfl, trivial⟩
        · rintro (h | ⟨-, h, -⟩)
          · exact .inl h
          · exact .inr h
    · simp only [if_neg hle, Option.some.injEq]
      constructor
      · exact .inl
      · rintro (h | ⟨h, rfl, -⟩)
        · exact h
        · exact absurd h hle

/-- A lane shows the union of the directions it was given. -/
theorem foldl_eff_shows (ds : List LaneDirection) : (ds.foldl AaLane.eff {}).Shows ds := by
  induction ds using List.reverseRecOn with
  | nil =>
    constructor <;> intro s hs <;> simp
  | append_singleton ds d ih =>
    rw [List.foldl_append, List.foldl_cons, List.foldl_nil]
    constructor
    · intro s hs
      rw [eff_present _ d hs, ih.present s hs]
      grind
    · intro s hs
      rw [eff_highlight _ d hs, ih.highlight s hs]
      grind

theorem pushLane_lanes (g : AaGuidance) (upd : AaLane → AaLane) (i : Nat) (h : i < 8) :
    (g.pushLane upd).lanes[i] = if i = g.nLanes.val then upd g.lanes[i] else g.lanes[i] := by
  unfold AaGuidance.pushLane
  by_cases hn : g.nLanes.val < 8
  · simp only [dif_pos hn]
    rw [Vector.getElem_set]
    by_cases hi : g.nLanes.val = i
    · subst hi
      simp
    · rw [if_neg hi, if_neg (Ne.symm hi)]
  · simp only [dif_neg hn]
    rw [if_neg (by omega)]

theorem pushLane_nLanes (g : AaGuidance) (upd : AaLane → AaLane) :
    (g.pushLane upd).nLanes.val = min (g.nLanes.val + 1) 8 := by
  unfold AaGuidance.pushLane
  by_cases hn : g.nLanes.val < 8
  · simp only [dif_pos hn]
    omega
  · simp only [dif_neg hn]
    omega

/-- Pushing the lanes one after the other fills the slots in order and stops at
the eighth; a slot not reached keeps its value. -/
theorem foldl_pushLane (ls : List (List LaneDirection)) {g : AaGuidance} (hn : g.nLanes = 0)
    (hlanes : ∀ i (h : i < 8), g.lanes[i] = ({} : AaLane)) :
    let g' := ls.foldl (fun g ds => g.pushLane fun lane => ds.foldl AaLane.eff lane) g
    g'.nLanes.val = min ls.length 8 ∧
      ∀ i (h : i < 8), g'.lanes[i] = (ls[i]?.getD []).foldl AaLane.eff {} := by
  induction ls using List.reverseRecOn with
  | nil => exact ⟨by simp [hn], fun i h => by simp [hlanes i h]⟩
  | append_singleton ls ds ih =>
    dsimp only at ih ⊢
    rw [List.foldl_append, List.foldl_cons, List.foldl_nil]
    obtain ⟨hlen, hget⟩ := ih
    constructor
    · rw [pushLane_nLanes, hlen, List.length_append, List.length_singleton]
      omega
    · intro i hi
      rw [pushLane_lanes, hlen, hget i hi]
      -- a slot filled before, the one filled now, or one still empty
      by_cases hlt : i < ls.length
      · rw [if_neg (by omega), List.getElem?_append_left hlt]
      · by_cases heq : i = ls.length
        · subst heq
          rw [if_pos (by omega), List.getElem?_eq_none (le_refl _)]
          simp
        · have hge : ls.length + 1 ≤ i := by omega
          rw [if_neg (by omega), List.getElem?_eq_none (by omega),
            List.getElem?_eq_none (by simpa using hge)]

/-! ## Steps -/

theorem maneuverEff_foldl_frame (fs : List Field) (g : AaGuidance) :
    let g' := fs.foldl AaGuidance.maneuverEff g
    g'.road = g.road ∧ g'.nSteps = g.nSteps ∧ g'.nLanes = g.nLanes ∧ g'.lanes = g.lanes := by
  induction fs generalizing g with
  | nil => exact ⟨rfl, rfl, rfl, rfl⟩
  | cons f fs ih => exact ih (g.maneuverEff f)

theorem pushLane_frame (g : AaGuidance) (upd : AaLane → AaLane) :
    let g' := g.pushLane upd
    g'.haveManeuver = g.haveManeuver ∧ g'.maneuverType = g.maneuverType ∧
      g'.roundaboutExitNumber = g.roundaboutExitNumber ∧
      g'.roundaboutExitAngle = g.roundaboutExitAngle ∧ g'.road = g.road ∧
      g'.nSteps = g.nSteps := by
  unfold AaGuidance.pushLane
  by_cases hn : g.nLanes.val < 8 <;> simp [hn]

theorem foldl_stepEff_nSteps (rs : List StepRec) (g : AaGuidance) :
    (rs.foldl AaGuidance.stepEff g).nSteps = g.nSteps := by
  induction rs generalizing g with
  | nil => rfl
  | cons r rs ih =>
    rw [List.foldl_cons, ih]
    cases r with
    | maneuver fs => exact (maneuverEff_foldl_frame fs g).2.1
    | road fs => rfl
    | lane ds => exact (pushLane_frame g _).2.2.2.2.2
    | cue content => rfl

/-- A component that only maneuver fields change is the fold over those fields. -/
theorem foldl_stepEff_maneuver {α : Type} (proj : AaGuidance → α) (upd : α → Field → α)
    (hman : ∀ g f, upd (proj g) f = proj (g.maneuverEff f))
    (hroad : ∀ g road, proj { g with road := road } = proj g)
    (hlane : ∀ g u, proj (AaGuidance.pushLane g u) = proj g) (rs : List StepRec) (g : AaGuidance) :
    proj (rs.foldl AaGuidance.stepEff g) =
      (rs.flatMap StepRec.maneuverFields).foldl upd (proj g) := by
  induction rs generalizing g with
  | nil => rfl
  | cons r rs ih =>
    rw [List.foldl_cons, ih, List.flatMap_cons, List.foldl_append]
    congr 1
    cases r with
    | maneuver fs => exact (List.foldl_hom proj hman).symm
    | road fs => exact hroad g _
    | lane ds => exact hlane g fun lane => ds.foldl AaLane.eff lane
    | cue content => rfl

theorem foldl_stepEff_road (rs : List StepRec) (g : AaGuidance) :
    (rs.foldl AaGuidance.stepEff g).road = (rs.flatMap StepRec.roadFields).foldl roadEff g.road := by
  induction rs generalizing g with
  | nil => rfl
  | cons r rs ih =>
    rw [List.foldl_cons, ih, List.flatMap_cons, List.foldl_append]
    congr 1
    cases r with
    | maneuver fs => exact (maneuverEff_foldl_frame fs g).1
    | road fs => rfl
    | lane ds => exact (pushLane_frame g _).2.2.2.2.1
    | cue content => rfl

/-- Two guidances with the same lanes keep the same lanes through a step. -/
theorem foldl_stepEff_lanes (rs : List StepRec) {g h : AaGuidance} (hn : g.nLanes = h.nLanes)
    (hl : g.lanes = h.lanes) :
    let g' := rs.foldl AaGuidance.stepEff g
    let h' := (rs.filterMap StepRec.lane?).foldl
      (fun g ds => g.pushLane fun lane => ds.foldl AaLane.eff lane) h
    g'.nLanes = h'.nLanes ∧ g'.lanes = h'.lanes := by
  induction rs generalizing g h with
  | nil => exact ⟨hn, hl⟩
  | cons r rs ih =>
    cases r with
    | maneuver fs =>
      obtain ⟨-, -, hn', hl'⟩ := maneuverEff_foldl_frame fs g
      exact ih (hn'.trans hn) (hl'.trans hl)
    | road fs => exact ih hn hl
    -- both count up, and write the same lane at the same index
    | lane ds =>
      apply ih
      · rw [Fin.ext_iff, AaGuidance.stepEff, pushLane_nLanes, pushLane_nLanes, hn]
      · ext i hi : 1
        rw [AaGuidance.stepEff, pushLane_lanes, pushLane_lanes, hn, hl]
    | cue content => exact ih hn hl

/-- **A decoded step shows its message**, whatever the count was. -/
theorem foldl_stepEff_shows (rs : List StepRec) (n : Nat) :
    (rs.foldl AaGuidance.stepEff { nSteps := n }).ShowsStep (navigationStepOf rs) where
  haveManeuver := by
    rw [foldl_stepEff_maneuver AaGuidance.haveManeuver
      (fun acc f => ((f.varint? 1).map fun _ => true).getD acc) (fun _ _ => rfl) (fun _ _ => rfl)
      (fun g u => (pushLane_frame g u).1), Wire.foldl_lastOf, Wire.lastOf_map, navigationStepOf]
    cases lastOf (Field.varint? 1) (rs.flatMap StepRec.maneuverFields) <;> rfl
  maneuverType := by
    rw [foldl_stepEff_maneuver AaGuidance.maneuverType
      (fun acc f => ((f.varint? 1).map (·.toUInt32)).getD acc) (fun _ _ => rfl) (fun _ _ => rfl)
      (fun g u => (pushLane_frame g u).2.1), Wire.foldl_lastOf, Wire.lastOf_map, navigationStepOf]
  exitNumber := by
    rw [foldl_stepEff_maneuver AaGuidance.roundaboutExitNumber
      (fun acc f => ((f.varint? 2).map int32Of).getD acc) (fun _ _ => rfl) (fun _ _ => rfl)
      (fun g u => (pushLane_frame g u).2.2.1), Wire.foldl_lastOf, Wire.lastOf_map,
      navigationStepOf]
  exitAngle := by
    rw [foldl_stepEff_maneuver AaGuidance.roundaboutExitAngle
      (fun acc f => ((f.varint? 3).map int32Of).getD acc) (fun _ _ => rfl) (fun _ _ => rfl)
      (fun g u => (pushLane_frame g u).2.2.2.1), Wire.foldl_lastOf, Wire.lastOf_map,
      navigationStepOf]
  road := by
    rw [foldl_stepEff_road]
    exact holds_foldl_blit (by decide) _ _ (holds_zero (by decide))
  nLanes := by
    have hfold := foldl_stepEff_lanes rs (g := { nSteps := n }) (h := { nSteps := n }) rfl rfl
    rw [hfold.1]
    exact (foldl_pushLane _ rfl (by simp)).1
  lanes := by
    intro i hi
    have hfold := foldl_stepEff_lanes rs (g := { nSteps := n }) (h := { nSteps := n }) rfl rfl
    have hget := (foldl_pushLane (rs.filterMap StepRec.lane?) (g := { nSteps := n }) rfl
      (by simp)).2 i hi
    simp only [hfold.2, hget]
    exact foldl_eff_shows _

theorem foldl_navstateEff_got (steps : List (List StepRec)) (g : AaGuidance) :
    (steps.foldl navstateEff (g, true)).1 = { g with nSteps := g.nSteps + steps.length } := by
  induction steps generalizing g with
  | nil => rfl
  | cons rs steps ih =>
    rw [List.foldl_cons, navstateEff, if_pos rfl, ih, List.length_cons]
    simp only [Nat.add_assoc, Nat.add_comm 1]

/-- Counting further steps changes nothing a step shows. -/
theorem ShowsStep.of_nSteps {g : AaGuidance} {m : NavigationStep} (h : g.ShowsStep m) (n : Nat) :
    ({ g with nSteps := n } : AaGuidance).ShowsStep m :=
  { h with }

theorem navstate_shows (steps : List (List StepRec)) :
    (steps.foldl navstateEff ({}, false)).1.Shows ⟨steps.map navigationStepOf⟩ := by
  cases steps with
  | nil => exact ⟨rfl, foldl_stepEff_shows [] 0⟩
  -- the first step is decoded, the others are counted
  | cons rs steps =>
    rw [List.foldl_cons, navstateEff, if_neg (by simp), foldl_navstateEff_got]
    constructor
    · simp only [foldl_stepEff_nSteps, List.map_cons, List.length_cons, List.length_map]
      omega
    · exact ShowsStep.of_nSteps (foldl_stepEff_shows rs 1) _

/-! ## Distances -/

theorem foldl_distanceEff_meters (fs : List Field) (o : DistanceOut) :
    (fs.foldl DistanceOut.eff o).meters =
      ((lastOf (Field.varint? 1) fs).map int32Of).getD o.meters := by
  rw [Wire.foldl_slot DistanceOut.meters (fun f => (f.varint? 1).map int32Of) fun _ _ => rfl,
    Wire.lastOf_map]

theorem foldl_distanceEff_units (fs : List Field) (o : DistanceOut) :
    (fs.foldl DistanceOut.eff o).units =
      ((lastOf (Field.varint? 3) fs).map (·.toUInt32)).getD o.units := by
  rw [Wire.foldl_slot DistanceOut.units (fun f => (f.varint? 3).map (·.toUInt32)) fun _ _ => rfl,
    Wire.lastOf_map]

theorem foldl_distanceEff_disp (fs : List Field) (o : DistanceOut) :
    (fs.foldl DistanceOut.eff o).disp =
      fs.foldl (fun buf f => ((f.bytes? 2).map buf.blit).getD buf) o.disp := by
  induction fs generalizing o with
  | nil => rfl
  | cons f fs ih => exact ih (o.eff f)

/-- What a distance triple shows of a merged distance message. -/
structure DistanceOut.Shows (o : DistanceOut) (m : Option NavigationDistance) : Prop where
  meters : o.meters = (m.bind (·.meters)).getD 0
  disp   : Holds o.disp ((m.bind (·.displayValue)).getD [])
  units  : o.units = (m.bind (·.displayUnits)).getD 0

def DistanceOut.zero : DistanceOut := ⟨0, .zero 16, 0⟩

/-- Decoding the distance submessages one after the other is decoding the merged
one, also when there is none. -/
theorem foldl_distance_shows (ds : List (List Field)) :
    (ds.flatten.foldl DistanceOut.eff .zero).Shows (navigationDistanceOf ds) := by
  cases ds with
  | nil => exact ⟨rfl, holds_zero (by decide), rfl⟩
  | cons fs ds =>
    constructor
    · exact foldl_distanceEff_meters _ _
    · rw [foldl_distanceEff_disp]
      exact holds_foldl_blit (by decide) _ _ (holds_zero (by decide))
    · exact foldl_distanceEff_units _ _

theorem navigationDistanceOf_isSome (ds : List (List Field)) :
    (navigationDistanceOf ds).isSome = !ds.isEmpty := by
  cases ds <;> rfl

/-! ## Positions -/

/-- The step triple of a position. -/
def AaPosition.stepOut (p : AaPosition) : DistanceOut := ⟨p.stepMeters, p.stepDisplay, p.stepUnits⟩

/-- The destination triple of a position. -/
def AaPosition.destOut (p : AaPosition) : DistanceOut := ⟨p.destMeters, p.destDisplay, p.destUnits⟩

/-- Step distances change the step triple and its flag only. -/
theorem foldl_positionStepEff (ds : List (List Field)) (p : AaPosition) :
    let p' := ds.foldl AaPosition.stepEff p
    p'.stepOut = ds.flatten.foldl DistanceOut.eff p.stepOut ∧
      p'.haveStep = (p.haveStep || !ds.isEmpty) ∧ p'.destOut = p.destOut ∧
      p'.haveDest = p.haveDest ∧ p'.eta = p.eta := by
  induction ds generalizing p with
  | nil => simp
  | cons fs ds ih =>
    obtain ⟨hstep, hhave, hdest, hhaved, heta⟩ := ih (p.stepEff fs)
    refine ⟨?_, ?_, hdest, hhaved, heta⟩
    · rw [List.foldl_cons, hstep, List.flatten_cons, List.foldl_append]
      rfl
    · rw [List.foldl_cons, hhave]
      simp [AaPosition.stepEff, AaPosition.setStep]

/-- A destination changes the destination part only. -/
theorem foldl_destEff (rs : List DestRec) (p : AaPosition) :
    let p' := rs.foldl AaPosition.destEff p
    p'.destOut = (rs.filterMap DestRec.distance?).flatten.foldl DistanceOut.eff p.destOut ∧
      p'.haveDest = (p.haveDest || !(rs.filterMap DestRec.distance?).isEmpty) ∧
      p'.eta = rs.foldl (fun buf r => ((DestRec.eta? r).map buf.blit).getD buf) p.eta ∧
      p'.stepOut = p.stepOut ∧ p'.haveStep = p.haveStep := by
  induction rs generalizing p with
  | nil => simp
  | cons r rs ih =>
    obtain ⟨hdest, hhave, heta, hstep, hhaves⟩ := ih (p.destEff r)
    cases r with
    | distance fs =>
      have hsome : DestRec.distance? (.distance fs) = some fs := rfl
      refine ⟨?_, ?_, heta, hstep, hhaves⟩
      · rw [List.foldl_cons, hdest, List.filterMap_cons_some hsome, List.flatten_cons,
          List.foldl_append]
        rfl
      · rw [List.foldl_cons, hhave, List.filterMap_cons_some hsome]
        simp [AaPosition.destEff, AaPosition.setDest]
    | eta s => exact ⟨hdest, hhave, heta, hstep, hhaves⟩

/-- Every step distance reaches the step part. -/
theorem foldl_positionEff_step (rs : List PosRec) (s : AaPosition × Bool) :
    let p' := (rs.foldl positionEff s).1
    p'.stepOut = (rs.flatMap PosRec.distances).flatten.foldl DistanceOut.eff s.1.stepOut ∧
      p'.haveStep = (s.1.haveStep || !(rs.flatMap PosRec.distances).isEmpty) := by
  induction rs generalizing s with
  | nil => simp
  | cons r rs ih =>
    obtain ⟨hstep, hhave⟩ := ih (positionEff s r)
    cases r with
    | stepDistance ds =>
      obtain ⟨hout, hflag, -⟩ := foldl_positionStepEff ds s.1
      dsimp only
      rw [List.foldl_cons, hstep, hhave, List.flatMap_cons, List.flatten_append,
        List.foldl_append]
      simp only [positionEff, PosRec.distances, hout, hflag]
      cases s.1.haveStep <;> cases ds <;> simp
    -- a destination leaves the step part alone, decoded or passed over
    | destination rs' =>
      have hsame : (positionEff s (.destination rs')).1.stepOut = s.1.stepOut ∧
          (positionEff s (.destination rs')).1.haveStep = s.1.haveStep := by
        rcases s with ⟨p, _ | _⟩
        · obtain ⟨-, -, -, hout, hflag⟩ := foldl_destEff rs' p
          exact ⟨hout, hflag⟩
        · exact ⟨rfl, rfl⟩
      dsimp only
      rw [List.foldl_cons, hstep, hhave, hsame.1, hsame.2]
      exact ⟨rfl, rfl⟩

/-- The records the destination part is decoded from: the first destination's,
unless one was decoded before. -/
def firstDestination (rs : List PosRec) (got : Bool) : List DestRec :=
  if got then [] else ((rs.filterMap PosRec.destination?).head?).getD []

theorem foldl_positionEff_dest (rs : List PosRec) (s : AaPosition × Bool) :
    let p' := (rs.foldl positionEff s).1
    let first := firstDestination rs s.2
    let ds := first.filterMap DestRec.distance?
    p'.destOut = ds.flatten.foldl DistanceOut.eff s.1.destOut ∧
      p'.haveDest = (s.1.haveDest || !ds.isEmpty) ∧
      p'.eta = first.foldl (fun buf r => ((DestRec.eta? r).map buf.blit).getD buf) s.1.eta := by
  induction rs generalizing s with
  | nil => cases s.2 <;> simp [firstDestination]
  | cons r rs ih =>
    have hrest := ih (positionEff s r)
    cases r with
    | stepDistance ds =>
      obtain ⟨-, -, hout, hflag, heta⟩ := foldl_positionStepEff ds s.1
      simp only [positionEff, hout, hflag, heta] at hrest
      exact hrest
    | destination rs' =>
      rcases s with ⟨p, _ | _⟩
      · -- the first destination: the rest of the list changes nothing more
        obtain ⟨hout, hflag, heta, -⟩ := foldl_destEff rs' p
        rw [positionEff, if_neg Bool.false_ne_true] at hrest
        simp only [firstDestination, if_true, hout, hflag, heta] at hrest
        simpa [firstDestination, positionEff, PosRec.destination?] using hrest
      · simpa [positionEff, firstDestination] using hrest

/-- **A decoded position shows its message.** -/
theorem position_shows (rs : List PosRec) :
    (rs.foldl positionEff ({}, false)).1.Shows
      ⟨navigationDistanceOf (rs.flatMap PosRec.distances),
        (rs.filterMap PosRec.destination?).map destinationDistanceOf⟩ := by
  obtain ⟨hstep, hhave⟩ := foldl_positionEff_step rs ({}, false)
  obtain ⟨hdest, hhaved, heta⟩ := foldl_positionEff_dest rs ({}, false)
  -- without a destination, the first one is the empty message
  have hfirst : ((rs.filterMap PosRec.destination?).map destinationDistanceOf).headD {} =
      destinationDistanceOf (firstDestination rs false) := by
    cases h : rs.filterMap PosRec.destination? with
    | nil => simp [firstDestination, h, destinationDistanceOf, navigationDistanceOf, lastOf]
    | cons d ds => simp [firstDestination, h]
  have hsteps := foldl_distance_shows (rs.flatMap PosRec.distances)
  have hdests := foldl_distance_shows ((firstDestination rs false).filterMap DestRec.distance?)
  rw [show DistanceOut.zero = ({} : AaPosition).stepOut from rfl, ← hstep] at hsteps
  rw [show DistanceOut.zero = ({} : AaPosition).destOut from rfl, ← hdest] at hdests
  constructor
  · rw [hhave, navigationDistanceOf_isSome, Bool.false_or]
  · exact hsteps.meters
  · exact hsteps.disp
  · exact hsteps.units
  · rw [hhaved, hfirst, destinationDistanceOf, navigationDistanceOf_isSome, Bool.false_or]
  · rw [hfirst]
    exact hdests.meters
  · rw [hfirst]
    exact hdests.disp
  · rw [hfirst]
    exact hdests.units
  · rw [heta, hfirst]
    exact holds_foldl_blit (by decide) DestRec.eta? _ (holds_zero (by decide))

/-! ## Whole frames -/

theorem frameBody_rest (b₀ b₁ : UInt8) (body : List UInt8) :
    (frameBody b₀ b₁ body).rest = body :=
  Pb.ofFrame_rest ..

theorem onFrame_navigationState {m : NavigationState} {b : Octets}
    (h : EncodesNavigationState m b) (g : AaGuidance) (p : Option AaPosition) :
    ∃ g', hudNav16OnFrame (0x80 :: 0x06 :: b) (some g) p = (AA_NAV16_MSG_NAV_STATE, some g', p) ∧
      g'.Shows m := by
  obtain ⟨steps, henc, rfl⟩ := h
  refine ⟨_, rfl, ?_⟩
  rw [hudNav16DecodeNavstate_eff henc (frameBody_rest ..)]
  exact navstate_shows steps

theorem onFrame_position {m : NavigationCurrentPosition} {b : Octets}
    (h : EncodesNavigationCurrentPosition m b) (g : Option AaGuidance) (p : AaPosition) :
    ∃ p', hudNav16OnFrame (0x80 :: 0x07 :: b) g (some p) = (AA_NAV16_MSG_POSITION, g, some p') ∧
      p'.Shows m := by
  obtain ⟨rs, henc, rfl⟩ := h
  refine ⟨_, rfl, ?_⟩
  rw [hudNav16DecodePosition_eff henc (frameBody_rest ..)]
  exact position_shows rs

/-- **Decoding undoes encoding, for both messages.** Whatever the out-parameters
held before. -/
theorem hudNav16OnFrame_encodes :
    (∀ m b, EncodesNavigationState m b → ∀ g p, ∃ g',
      hudNav16OnFrame (0x80 :: 0x06 :: b) (some g) p = (AA_NAV16_MSG_NAV_STATE, some g', p) ∧
        g'.Shows m) ∧
    (∀ m b, EncodesNavigationCurrentPosition m b → ∀ g p, ∃ p',
      hudNav16OnFrame (0x80 :: 0x07 :: b) g (some p) = (AA_NAV16_MSG_POSITION, g, some p') ∧
        p'.Shows m) := by
  constructor
  · intro m b h g p
    exact onFrame_navigationState h g p
  · intro m b h g p
    exact onFrame_position h g p

/-- The first two frames of the host test: a `DEPART` onto `ROAD A`, and a
position 120 m before the step. -/
theorem hudNav16OnFrame_encodes_host_test :
    (∃ g', hudNav16OnFrame
        [0x80, 0x06, 0x0a, 0x0e, 0x0a, 0x02, 0x08, 0x01, 0x12, 0x08, 0x0a, 0x06, 0x52, 0x4f, 0x41,
          0x44, 0x20, 0x41] (some {}) none = (AA_NAV16_MSG_NAV_STATE, some g', none) ∧
      g'.Shows ⟨[{ maneuverType := some 1, road := some [0x52, 0x4f, 0x41, 0x44, 0x20, 0x41] }]⟩) ∧
    (∃ p', hudNav16OnFrame
        [0x80, 0x07, 0x0a, 0x0b, 0x0a, 0x09, 0x08, 0x78, 0x12, 0x03, 0x31, 0x32, 0x30, 0x18, 0x01]
          none (some {}) = (AA_NAV16_MSG_POSITION, none, some p') ∧
      p'.Shows ⟨some ⟨some 120, some [0x31, 0x32, 0x30], some 1⟩, []⟩) := by
  have hfields : ∀ fs : List Field, (∀ f ∈ fs, f.num < 2 ^ 29 ∧ f.payload.Fits) →
      EncodesFields fs (fs.flatMap Field.encode) := fun fs h =>
    Wire.concat_flatMap fun f hf => Wire.encodesField_encode (h f hf).1 (h f hf).2
  constructor
  · have hman := hfields [⟨1, .varint 1⟩] (by simp [Wire.Payload.Fits])
    have hroad := hfields [⟨1, .bytes [0x52, 0x4f, 0x41, 0x44, 0x20, 0x41]⟩]
      (by simp [Wire.Payload.Fits])
    have hstep : EncodesStep [.maneuver _, .road _] _ := Wire.interleaved_of_concat
      (.cons (Wire.nested_encode hman (by decide) (by decide))
        (.cons (Wire.nested_encode hroad (by decide) (by decide)) .nil))
    exact hudNav16OnFrame_encodes.1 _ _ ⟨_, Wire.interleaved_of_concat
      (.cons (Wire.nested_encode hstep (by decide) (by decide)) .nil), rfl⟩ {} none
  · have hdist := hfields [⟨1, .varint 120⟩, ⟨2, .bytes [0x31, 0x32, 0x30]⟩, ⟨3, .varint 1⟩]
      (by simp [Wire.Payload.Fits])
    have hstep : EncodesStepDistance [_] _ := Wire.interleaved_of_concat
      (.cons (Wire.nested_encode hdist (by decide) (by decide)) .nil)
    have hpos : EncodesPosRec (.stepDistance _) _ :=
      Wire.nested_encode hstep (by decide) (by decide)
    exact hudNav16OnFrame_encodes.2 _ _ ⟨_, Wire.interleaved_of_concat
      (.cons hpos .nil), rfl⟩ none {}

end OemAaMod
