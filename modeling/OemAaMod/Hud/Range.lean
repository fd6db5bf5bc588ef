import OemAaMod.Hud.Pipeline

/-!
# What the phone can put on the HUD

The receiver takes datagrams from anyone, so a guidance, a position and a status can hold
anything.

* `View.InRange`, `HudMsg.InRange` — what a transport and the OEM side are made for;
* `oemLaneCodeForAa_le` — every pair of masks has a code;
* `in_range_of_reach` — nothing else is ever sent, whatever the callbacks get.
-/

namespace OemAaMod

open CStr (Bytes CharBuf cstr)

/-- The glyphs, units and lane codes that there are, and a street that fits the snapshot. -/
structure View.InRange (v : View) : Prop where
  glyph : v.glyph ≤ 60
  road  : v.road.length ≤ 63
  unit  : v.unit ≤ 5
  lanes : ∀ code ∈ v.lanes.toList, code ≤ 70

/-- The fields that index something on the OEM side are in its tables. -/
def HudMsg.InRange : HudMsg → Prop
  | guidance icon _ unit street _ _ lanes =>
    (0 ≤ icon ∧ icon ≤ 60) ∧ (0 ≤ unit ∧ unit ≤ 5) ∧ street.length ≤ 63 ∧ lanes.length = 8 ∧
      ∀ code ∈ lanes, 0 ≤ code ∧ code ≤ 70
  | display disp => disp.nextManeuverInfo ≤ 60 ∧ disp.distanceUnit ≤ 5
  | strip msg2 => ∃ road, msg2.guidancePointName = some road ∧ road.length ≤ 63
  | recommLane wire => wire.length = 8 ∧ ∀ b ∈ wire, b = kVbsLaneHidden ∨ (1 ≤ b ∧ b ≤ 35)

variable {v : View} {s s' : PipeState} {hudFoldLatin : Bool} {b : Backend} {a : PipeAction}

/-! ## Lane codes -/

theorem oemBaseCodeForDirs_le (d : UInt32) : oemBaseCodeForDirs d ≤ 22 := by
  have hif : ∀ (p : Prop) [Decidable p] (x y : UInt8), x ≤ 22 → y ≤ 22 →
      (if p then x else y) ≤ 22 := fun p _ x y hx hy => by
    split
    · exact hx
    · exact hy
  unfold oemBaseCodeForDirs
  repeat' first | exact hif .. | refine hif _ _ _ (by decide) ?_
  decide

theorem detailCodes_le (base : UInt8) : (detailCodes base).all (fun e => e.2 ≤ 48) = true := by
  have hif : ∀ (p : Prop) [Decidable p] (x y : List (UInt32 × UInt8)),
      x.all (fun e => e.2 ≤ 48) = true → y.all (fun e => e.2 ≤ 48) = true →
      (if p then x else y).all (fun e => e.2 ≤ 48) = true := fun p _ x y hx hy => by
    split
    · exact hx
    · exact hy
  unfold detailCodes
  repeat' refine hif _ _ _ rfl ?_
  rfl

theorem oemDetailCode_le (base : UInt8) (hl : UInt32) : oemDetailCode base hl ≤ 48 := by
  unfold oemDetailCode
  cases hlookup : (detailCodes base).lookup hl with
  | none => decide
  | some code =>
    obtain ⟨l₁, l₂, heq, -⟩ := List.lookup_eq_some_iff.mp hlookup
    have hmem : (hl, code) ∈ detailCodes base := by rw [heq]; simp
    exact of_decide_eq_true (List.all_eq_true.mp (detailCodes_le base) (hl, code) hmem)

/-- Whatever the masks say, the code is one of the cluster's. -/
theorem oemLaneCodeForAa_le (presentShapes highlightShapes : UInt16) :
    oemLaneCodeForAa presentShapes highlightShapes ≤ 70 := by
  have htrans {x y : UInt8} (hx : x ≤ y) (hy : y ≤ 70) : x ≤ 70 := UInt8.le_trans hx hy
  -- a picture, also where the single arrow stands in for a missing one
  have hbase : ∀ base pick : UInt32, (if oemBaseCodeForDirs base = OEM_LANE_NONE then
      if oemBaseCodeForDirs pick = OEM_LANE_NONE then OEM_LANE_STRAIGHT else oemBaseCodeForDirs pick
      else oemBaseCodeForDirs base) ≤ 22 := by
    intro base pick
    by_cases hnone : oemBaseCodeForDirs base = OEM_LANE_NONE
    · rw [if_pos hnone]
      by_cases hsingle : oemBaseCodeForDirs pick = OEM_LANE_NONE
      · rw [if_pos hsingle]
        decide
      · rw [if_neg hsingle]
        exact oemBaseCodeForDirs_le pick
    · rw [if_neg hnone]
      exact oemBaseCodeForDirs_le base
  unfold oemLaneCodeForAa
  extract_lets present hl recommended base oneHl detail pick single picture
  by_cases hpresent : present = 0
  · rw [if_pos hpresent]
    decide
  rw [if_neg hpresent]
  by_cases hdetail : recommended ∧ oneHl ∧ detail ≠ OEM_LANE_NONE
  · rw [if_pos hdetail]
    exact htrans (oemDetailCode_le base hl) (by decide)
  rw [if_neg hdetail]
  have hpicture : picture ≤ 22 := hbase present pick
  by_cases hrec : recommended
  · rw [if_pos hrec]
    exact htrans hpicture (by decide)
  · rw [if_neg hrec]
    -- the greyed pictures are the last of the table
    have hnat : picture.toNat ≤ 22 := UInt8.le_iff_toNat_le.mp hpicture
    rw [UInt8.le_iff_toNat_le, UInt8.toNat_add]
    show (picture.toNat + 48) % 2 ^ 8 ≤ 70
    omega

/-- A code of the cluster has a picture, unless the lane is hidden. -/
theorem vbsLane_inRange {code : UInt8} (hcode : code ≤ 70) :
    vbsLane code = kVbsLaneHidden ∨ (1 ≤ vbsLane code ∧ vbsLane code ≤ 35) := by
  -- the codes there are, run through the table
  have hall : ((List.range 71).all fun n => vbsLane (UInt8.ofNat n) = kVbsLaneHidden ∨
      (1 ≤ vbsLane (UInt8.ofNat n) ∧ vbsLane (UInt8.ofNat n) ≤ 35)) = true := by decide +kernel
  have hnat : code.toNat ≤ 70 := UInt8.le_iff_toNat_le.mp hcode
  have hlane := List.all_eq_true.mp hall code.toNat (List.mem_range.mpr (by omega))
  rw [UInt8.ofNat_toNat] at hlane
  exact of_decide_eq_true hlane

/-! ## A message that shows a view in range -/

theorem ofNat_inRange {x n : ℕ} (hx : x ≤ n) (hn : n < 2 ^ 31) :
    0 ≤ Int32.ofNat x ∧ Int32.ofNat x ≤ Int32.ofNat n := by
  have hto : (Int32.ofNat x).toInt = x := Int32.toInt_ofNat_of_lt (Nat.lt_of_le_of_lt hx hn)
  have hto' : (Int32.ofNat n).toInt = n := Int32.toInt_ofNat_of_lt hn
  constructor
  · rw [Int32.le_iff_toInt_le, hto, Int32.toInt_zero]
    exact Int.natCast_nonneg x
  · rw [Int32.le_iff_toInt_le, hto, hto']
    exact Int.ofNat_le.mpr hx

/-- Nothing is lost from the view to the message. -/
theorem HudMsg.Shows.inRange {m : HudMsg} (hshows : m.Shows v) (hv : v.InRange) : m.InRange := by
  have hglyph : v.glyph.toNat ≤ 60 := UInt32.le_iff_toNat_le.mp hv.glyph
  have hunit : v.unit.toNat ≤ 5 := UInt8.le_iff_toNat_le.mp hv.unit
  cases m with
  | guidance icon dist unit street speedLimit speedUnit lanes =>
    obtain ⟨hicon, -, hunit', hstreet, hlanes⟩ := hshows
    have hicon : icon = Int32.ofNat v.glyph.toNat := by
      rw [hicon, ← UInt32.toInt32_ofNat', UInt32.ofNat_toNat]
    refine ⟨?_, ?_, ?_, ?_, fun code hcode => ?_⟩
    · rw [hicon]
      exact ofNat_inRange hglyph (by decide)
    · rw [hunit']
      exact ofNat_inRange hunit (by decide)
    · rw [hstreet]
      exact hv.road
    · rw [hlanes, List.length_map, Vector.length_toList]
    · rw [hlanes] at hcode
      obtain ⟨lane, hlane, rfl⟩ := List.mem_map.mp hcode
      exact ofNat_inRange (UInt8.le_iff_toNat_le.mp (hv.lanes lane hlane)) (by decide)
  | display disp =>
    obtain ⟨hicon, -, hunit'⟩ := hshows
    refine ⟨?_, ?_⟩
    · rw [hicon]
      exact hv.glyph
    · rw [hunit']
      exact hv.unit
  | strip msg2 => exact ⟨v.road, hshows, hv.road⟩
  | recommLane wire =>
    have hwire : wire = v.lanes.toList.map vbsLane := hshows
    rw [hwire]
    refine ⟨by rw [List.length_map, Vector.length_toList], fun b hb => ?_⟩
    obtain ⟨lane, hlane, rfl⟩ := List.mem_map.mp hb
    exact vbsLane_inRange (hv.lanes lane hlane)

/-! ## The accumulator -/

/-- What the callbacks clamp. -/
structure AaNav16HudState.InRange (acc : AaNav16HudState) : Prop where
  glyph : acc.glyph ≤ 60
  unit  : acc.distUnit ≤ 5

theorem AaNav16HudState.inRange_zero : AaNav16HudState.InRange {} := ⟨by decide, by decide⟩

theorem guidanceGlyph_le (g : AaGuidance) : guidanceGlyph g ≤ 60 := by
  unfold guidanceGlyph
  extract_lets glyph
  by_cases hgt : glyph > 60
  · rw [if_pos hgt]
    decide
  · rw [if_neg hgt]
    exact UInt32.not_lt.mp hgt

theorem positionUnit_le (p : AaPosition) : positionUnit p ≤ 5 := by
  unfold positionUnit
  extract_lets unit
  by_cases hgt : unit > 5
  · rw [if_pos hgt]
    decide
  · rw [if_neg hgt]
    exact UInt8.not_lt.mp hgt

theorem nav16OnGuidance_inRange {acc : AaNav16HudState} (hacc : acc.InRange) (g : AaGuidance) :
    (nav16OnGuidance hudFoldLatin acc g).InRange := by
  refine ⟨guidanceGlyph_le g, ?_⟩
  unfold nav16OnGuidance
  dsimp only
  -- another maneuver starts without a distance, the same one keeps its own
  split
  · decide
  · exact hacc.unit

theorem nav16OnPosition_inRange {acc acc' : AaNav16HudState} (hacc : acc.InRange) {p : AaPosition}
    (hp : nav16OnPosition acc p = some acc') : acc'.InRange := by
  unfold nav16OnPosition at hp
  rw [Option.ite_none_right_eq_some, Option.some_inj] at hp
  obtain ⟨-, rfl⟩ := hp
  exact ⟨hacc.glyph, positionUnit_le p⟩

theorem nav16EncodeLaneCodes_le (lanes : Vector AaLane 8) (n : Fin 9) :
    ∀ code ∈ (nav16EncodeLaneCodes lanes n).toList, code ≤ 70 := by
  intro code hcode
  rw [Vector.mem_toList_iff] at hcode
  obtain ⟨i, hi, rfl⟩ := Vector.mem_iff_getElem.mp hcode
  unfold nav16EncodeLaneCodes
  rw [Vector.getElem_ofFn]
  split
  · exact oemLaneCodeForAa_le _ _
  · decide

theorem AaNav16HudState.InRange.view {acc : AaNav16HudState} (hacc : acc.InRange) :
    acc.view.InRange :=
  ⟨hacc.glyph, Nat.le_of_lt_succ acc.road_terminated, hacc.unit, nav16EncodeLaneCodes_le _ _⟩

/-! ## The pipeline -/

theorem View.inRange_blank : View.blank.InRange := by
  refine ⟨by decide, by decide, by decide, fun code hcode => ?_⟩
  have hnone : code = OEM_LANE_NONE := List.eq_of_mem_replicate hcode
  rw [hnone]
  decide

/-- The three calls of an update and the clear write what is in range, each its part. -/
structure RangeInv (s : PipeState) : Prop where
  acc  : s.gate.acc.InRange
  view : s.tx.snapshot.view.InRange
  sent : ∀ msgs ∈ s.sent, ∀ m ∈ msgs, m.InRange

theorem rangeInv_init : RangeInv {} := by
  refine ⟨AaNav16HudState.inRange_zero, ?_, fun _ h => absurd h (by simp)⟩
  show ({} : NaviSnapshot).view.InRange
  rw [view_zero]
  exact View.inRange_blank

/-- A call with its part in range, live or dropped. -/
theorem call_inRange {t : Tx} {c : TxCall} (ht : t.snapshot.view.InRange)
    (hc : (c.apply t.snapshot.view).InRange) : (t.call c).snapshot.view.InRange := by
  cases hactive : t.active with
  | true =>
    rw [Tx.call_view t c hactive]
    exact hc
  | false =>
    rw [Tx.call_inactive t c hactive]
    exact ht

theorem rangeInv_advance (hinv : RangeInv s) (hstep : s.advance = some s') : RangeInv s' := by
  obtain ⟨hacc, hview, hsent⟩ := hinv
  have hnew : s.gate.acc.view.InRange := hacc.view
  cases callbackStep_of_advance hstep with
  | nextTurn =>
    refine ⟨hacc, call_inRange hview ?_, hsent⟩
    rw [apply_nextTurnCall]
    exact ⟨hnew.glyph, hnew.road, hview.unit, hview.lanes⟩
  | distance =>
    refine ⟨hacc, call_inRange hview ?_, hsent⟩
    rw [apply_distanceCall]
    exact ⟨hview.glyph, hview.road, hnew.unit, hview.lanes⟩
  | lanes =>
    refine ⟨hacc, call_inRange hview ?_, hsent⟩
    rw [apply_lanesCall]
    exact ⟨hview.glyph, hview.road, hview.unit, hnew.lanes⟩
  | record => exact ⟨hacc, hview, hsent⟩
  | clear => exact ⟨hacc, call_inRange hview View.inRange_blank, hsent⟩
  | reset => exact ⟨AaNav16HudState.inRange_zero, hview, hsent⟩

/-- **Step lemma.** -/
theorem rangeInv_step (hinv : RangeInv s) (hstep : pipeStep hudFoldLatin b s a = some s') :
    RangeInv s' := by
  cases pipeSteps_of_pipeStep hstep with
  | guidance => exact ⟨nav16OnGuidance_inRange hinv.acc _, hinv.view, hinv.sent⟩
  | position _ hp => exact ⟨nav16OnPosition_inRange hinv.acc hp, hinv.view, hinv.sent⟩
  | positionIgnored | statusIgnored => exact hinv
  | clears => exact ⟨hinv.acc, hinv.view, hinv.sent⟩
  | rx hadvance => exact rangeInv_advance hinv hadvance
  | activate => exact ⟨hinv.acc, hinv.view, hinv.sent⟩
  | @iterate sender hudAbsent hsender =>
    refine ⟨hinv.acc, hinv.view, ?_⟩
    -- what is sent is the snapshot, as it is now
    have hnew : ∀ m ∈ (sender.iterate b hudAbsent s.tx).2, m.InRange := fun m hm =>
      (iterate_shows b hudAbsent s.tx sender m hm).inRange hinv.view
    dsimp only
    split
    · intro msgs hmsgs
      rcases List.mem_append.mp hmsgs with hmsgs | hmsgs
      · exact hinv.sent msgs hmsgs
      · rw [List.mem_singleton.mp hmsgs]
        exact hnew
    · exact hinv.sent

/-- **Nothing out of range reaches the OEM side**, whatever the callbacks are given and
whenever they run, also when the pipeline is torn down. A session starts with what the one
before has left in the accumulator and the snapshot, and they stay in range for the next. -/
theorem in_range_of_reach (hudFoldLatin : Bool) (b : Backend) (s₀ s : PipeState)
    (hacc : s₀.gate.acc.InRange) (hview : s₀.tx.snapshot.view.InRange) (hsent : s₀.sent = [])
    (h : Run.Reach (pipeStep hudFoldLatin b) (fun _ _ => True) s₀ s) :
    (∀ msgs ∈ s.sent, ∀ m ∈ msgs, m.InRange) ∧
      (∀ hudAbsent, ∀ m ∈ teardownMsgs b hudAbsent, m.InRange) ∧
        s.gate.acc.InRange ∧ s.tx.snapshot.view.InRange := by
  have hstart : RangeInv s₀ := ⟨hacc, hview, fun msgs hmsgs => by simp [hsent] at hmsgs⟩
  have hinv : RangeInv s :=
    Run.Reach.invariant hstart (fun _ _ _ hi _ hs => rangeInv_step hi hs) h
  exact ⟨hinv.sent, fun hudAbsent m hm =>
    (teardownMsgs_shows b hudAbsent m hm).inRange View.inRange_blank, hinv.acc, hinv.view⟩

/-- A maneuver there is no glyph for, with all the arrows there are on one lane. -/
def unheardOf : AaGuidance :=
  { maneuverType := 4000000000, nLanes := ⟨1, by decide⟩
    lanes := .replicate 8 { presentMask := 0xFFFF, highlightMask := 0xFFFF } }

theorem in_range_of_reach_unheardOf : ∃ s,
    Run.Reach (pipeStep true .vbs) (fun _ _ => True) {} s ∧ (∃ msgs ∈ s.sent, msgs ≠ []) ∧
      ∀ msgs ∈ s.sent, ∀ m ∈ msgs, m.InRange := by
  obtain ⟨s, hreach, hsent⟩ : ∃ s, Run.Reach (pipeStep true .vbs) (fun _ _ => True) {} s ∧
      ∃ msgs ∈ s.sent, msgs ≠ [] :=
    Run.Reach.exists_of_replay
      [.activate, .guidance unheardOf, .rx, .rx, .rx, .rx, .iterate false] (by decide +kernel)
  exact ⟨s, hreach, hsent,
    (in_range_of_reach true .vbs {} s rangeInv_init.acc rangeInv_init.view rfl hreach).1⟩

end OemAaMod
