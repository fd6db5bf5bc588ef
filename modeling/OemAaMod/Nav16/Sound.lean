import OemAaMod.Nav16.Safety

/-!
# What the decoder leaves

On any bytes at all: no more lanes than there is room for, strings that end within their
buffers, and lane masks of the shapes 0 to 9 in which whatever is highlighted is present.

* `AaGuidance.Sound`, `AaPosition.Sound` — that, of the two structs;
* `decStep_sound` … `hudNav16DecodePosition_sound` — every message keeps it;
* `decoder_safe` — the entry points in memory: every access in the frame, a result, and a
  sound one.
-/

namespace OemAaMod

open CStr (CharBuf)

/-! ## Strings and lanes -/

/-- `char` array with a string in it. -/
def NulTerminated {cap : Nat} (b : CharBuf cap) : Prop := 0 ∈ b.bytes

theorem nulTerminated_zero {cap : Nat} (h : 0 < cap) : NulTerminated (CharBuf.zero cap) :=
  List.mem_replicate.mpr ⟨Nat.ne_of_gt h, rfl⟩

theorem nulTerminated_blit {cap : Nat} (h : 0 < cap) (dst : CharBuf cap) (s : List UInt8) :
    NulTerminated (dst.blit s) :=
  (CharBuf.blit_prefix h dst s).subset (List.mem_append_right _ (List.mem_singleton.mpr rfl))

structure AaLane.Sound (lane : AaLane) : Prop where
  /-- what is highlighted is present -/
  highlighted : ∀ s, lane.highlightMask.toNat.testBit s = true →
    lane.presentMask.toNat.testBit s = true
  present     : ∀ s, lane.presentMask.toNat.testBit s = true → s ≤ 9

/-- The highlighted shapes are 0 to 9 as well. -/
theorem AaLane.Sound.highlight {lane : AaLane} (h : lane.Sound) {s : Nat}
    (hs : lane.highlightMask.toNat.testBit s = true) : s ≤ 9 :=
  h.present s (h.highlighted s hs)

theorem AaLane.empty_sound : ({} : AaLane).Sound := by
  constructor <;> intro s hs <;> simp at hs

theorem AaLane.addDirection_sound {lane : AaLane} (h : lane.Sound) (l : DirectionLocals) :
    (lane.addDirection l).Sound := by
  unfold AaLane.addDirection
  cases l.shape with
  | none => exact h
  | some shape =>
    dsimp only
    split
    case isFalse => exact h
    case isTrue hshape =>
    have hle : shape.toNat ≤ 9 := hshape
    constructor
    · intro s hs
      have hlt := lt_of_testBit_mask hs
      dsimp only at hs ⊢
      rw [testBit_setShape _ hshape hlt]
      -- a highlighted shape was highlighted before, or is the new one
      split at hs
      · rcases (testBit_setShape _ hshape hlt).mp hs with hs | hs
        · exact .inl (h.highlighted s hs)
        · exact .inr hs
      · exact .inl (h.highlighted s hs)
    · -- present before, or the new shape, which was checked
      intro s hs
      have hlt := lt_of_testBit_mask hs
      rcases (testBit_setShape _ hshape hlt).mp hs with hs | rfl
      · exact h.present s hs
      · rw [UInt64.toNat_ofNat', Nat.mod_eq_of_lt (by omega)] at hle
        exact hle

/-! ## The messages -/

variable {frame : List UInt8}

theorem decFields_keeps {σ : Type} {onVarint : UInt32 → Option (σ → UInt64 → σ)}
    {onBytes : UInt32 → Option (σ → Pb frame → σ)} {P : σ → Prop}
    (hvarint : ∀ f k s v, onVarint f = some k → P s → P (k s v))
    (hbytes : ∀ f k s d, onBytes f = some k → P s → P (k s d)) {s : σ} (hs : P s)
    (c : Pb frame) : P (decFields onVarint onBytes s c) :=
  walkFuel_keeps hvarint hbytes _ s c hs

/-- The handler of the one number that is handled. -/
theorem eq_of_ite_some {α : Type} {p : Prop} [Decidable p] {a k : α}
    (h : (if p then some a else none) = some k) : a = k := by
  split at h
  · exact Option.some_inj.mp h
  · exact absurd h (by simp)

theorem decDistance_sound (b : Pb frame) {o : DistanceOut} (h : NulTerminated o.disp) :
    NulTerminated (decDistance b o).disp := by
  refine decFields_keeps (P := fun o : DistanceOut => NulTerminated o.disp) ?_ ?_ h b
  · -- a number leaves the string alone
    intro f k s v hk hs
    split at hk
    · rw [← Option.some_inj.mp hk]
      exact hs
    · rw [← eq_of_ite_some hk]
      exact hs
  · intro f k s d hk _
    rw [← eq_of_ite_some hk]
    exact nulTerminated_blit (by decide) s.disp d.rest

theorem decRoadName_sound (b : Pb frame) {dst : CharBuf 64} (h : NulTerminated dst) :
    NulTerminated (decRoadName b dst) := by
  refine decFields_keeps (fun _ _ _ _ hk => absurd hk (by simp)) ?_ h b
  intro f k s d hk _
  rw [← eq_of_ite_some hk]
  exact nulTerminated_blit (by decide) s d.rest

theorem decLane_sound (b : Pb frame) {lane : AaLane} (h : lane.Sound) : (decLane b lane).Sound := by
  refine decFields_keeps (fun _ _ _ _ hk => absurd hk (by simp)) ?_ h b
  intro f k s d hk hs
  rw [← eq_of_ite_some hk]
  exact AaLane.addDirection_sound hs _

structure AaGuidance.Sound (g : AaGuidance) : Prop where
  count : g.nLanes.val ≤ 8
  road  : NulTerminated g.road
  lanes : ∀ lane ∈ g.lanes.toList, lane.Sound

theorem AaGuidance.empty_sound : ({} : AaGuidance).Sound where
  count := Nat.zero_le 8
  road  := nulTerminated_zero (by decide)
  lanes := by
    intro lane hlane
    have hmem : lane ∈ List.replicate 8 ({} : AaLane) := hlane
    rw [List.eq_of_mem_replicate hmem]
    exact AaLane.empty_sound

theorem AaGuidance.pushLane_sound {g : AaGuidance} (h : g.Sound) {upd : AaLane → AaLane}
    (hupd : ∀ lane, lane.Sound → (upd lane).Sound) : (g.pushLane upd).Sound := by
  unfold AaGuidance.pushLane
  split
  · rename_i hroom
    refine ⟨Nat.succ_le_of_lt hroom, h.road, fun lane hlane => ?_⟩
    rw [Vector.toList_set] at hlane
    -- one of the lanes before, or the one that was decoded in place
    rcases List.mem_or_eq_of_mem_set hlane with hlane | rfl
    · exact h.lanes lane hlane
    · exact hupd _ (h.lanes _ (by simp))
  · exact h

theorem decManeuver_sound (b : Pb frame) {g : AaGuidance} (h : g.Sound) :
    (decManeuver b g).Sound := by
  refine decFields_keeps ?_ (fun _ _ _ _ hk => absurd hk (by simp)) h b
  -- no field of a maneuver is one of the three
  intro f k s v hk hs
  split at hk
  · rw [← Option.some_inj.mp hk]
    exact ⟨hs.count, hs.road, hs.lanes⟩
  split at hk
  · rw [← Option.some_inj.mp hk]
    exact ⟨hs.count, hs.road, hs.lanes⟩
  · rw [← eq_of_ite_some hk]
    exact ⟨hs.count, hs.road, hs.lanes⟩

theorem decStep_sound (b : Pb frame) {g : AaGuidance} (h : g.Sound) : (decStep b g).Sound := by
  refine decFields_keeps (fun _ _ _ _ hk => absurd hk (by simp)) ?_ h b
  intro f k s d hk hs
  rw [← Option.some_inj.mp hk]
  dsimp only
  split
  · exact decManeuver_sound d hs
  split
  · exact ⟨hs.count, decRoadName_sound d hs.road, hs.lanes⟩
  split
  · exact AaGuidance.pushLane_sound hs fun _ => decLane_sound d
  · exact hs

theorem hudNav16DecodeNavstate_sound (c : Pb frame) : (hudNav16DecodeNavstate c).Sound := by
  rw [hudNav16DecodeNavstate_eq]
  refine decFields_keeps (P := fun s : AaGuidance × Bool => s.1.Sound)
    (fun _ _ _ _ hk => absurd hk (by simp)) ?_ AaGuidance.empty_sound c
  rintro f k ⟨out, gotStep⟩ d hk hs
  rw [← eq_of_ite_some hk]
  -- the count of steps is no part of soundness
  have hcounted : ({ out with nSteps := out.nSteps + 1 } : AaGuidance).Sound :=
    ⟨hs.count, hs.road, hs.lanes⟩
  cases gotStep with
  | true => exact hcounted
  | false => exact decStep_sound d hcounted

structure AaPosition.Sound (p : AaPosition) : Prop where
  step : NulTerminated p.stepDisplay
  dest : NulTerminated p.destDisplay
  eta  : NulTerminated p.eta

theorem AaPosition.empty_sound : ({} : AaPosition).Sound :=
  ⟨nulTerminated_zero (by decide), nulTerminated_zero (by decide), nulTerminated_zero (by decide)⟩

theorem decStepDistance_sound (b : Pb frame) {p : AaPosition} (h : p.Sound) :
    (decStepDistance b p).Sound := by
  refine decFields_keeps (fun _ _ _ _ hk => absurd hk (by simp)) ?_ h b
  intro f k s d hk hs
  rw [← eq_of_ite_some hk]
  exact ⟨decDistance_sound d hs.step, hs.dest, hs.eta⟩

theorem decDestDistance_sound (b : Pb frame) {p : AaPosition} (h : p.Sound) :
    (decDestDistance b p).Sound := by
  refine decFields_keeps (fun _ _ _ _ hk => absurd hk (by simp)) ?_ h b
  intro f k s d hk hs
  split at hk
  · rw [← Option.some_inj.mp hk]
    exact ⟨hs.step, decDistance_sound d hs.dest, hs.eta⟩
  · rw [← eq_of_ite_some hk]
    exact ⟨hs.step, hs.dest, nulTerminated_blit (by decide) s.eta d.rest⟩

theorem hudNav16DecodePosition_sound (c : Pb frame) : (hudNav16DecodePosition c).Sound := by
  rw [Memory.hudNav16DecodePosition_eq]
  refine decFields_keeps (P := fun s : AaPosition × Bool => s.1.Sound)
    (fun _ _ _ _ hk => absurd hk (by simp)) ?_ AaPosition.empty_sound c
  rintro f k ⟨out, gotDest⟩ d hk hs
  unfold Memory.positionBytes at hk
  split at hk
  · rw [← Option.some_inj.mp hk]
    exact decStepDistance_sound d hs
  · rw [← eq_of_ite_some hk]
    cases gotDest with
    -- a second destination is passed over
    | true => exact hs
    | false => exact decDestDistance_sound d hs

/-! ## Whole frames -/

/-- What `hud_nav16_on_frame` leaves in its out-parameters: a sound struct where the id
and the pointer select one, and the struct it was given everywhere else. -/
structure OnFrameSound (g : Option AaGuidance) (p : Option AaPosition)
    (r : UInt32 × Option AaGuidance × Option AaPosition) : Prop where
  guidance : if r.1 = AA_NAV16_MSG_NAV_STATE ∧ g.isSome then ∃ g', r.2.1 = some g' ∧ g'.Sound
    else r.2.1 = g
  position : if r.1 = AA_NAV16_MSG_POSITION ∧ p.isSome then ∃ p', r.2.2 = some p' ∧ p'.Sound
    else r.2.2 = p

theorem zero_ne_state : (0 : UInt32) ≠ AA_NAV16_MSG_NAV_STATE := by decide

theorem zero_ne_position : (0 : UInt32) ≠ AA_NAV16_MSG_POSITION := by decide

theorem onFrameSound_short (g : Option AaGuidance) (p : Option AaPosition) :
    OnFrameSound g p (0, g, p) where
  guidance := by rw [if_neg fun h => zero_ne_state h.1]
  position := by rw [if_neg fun h => zero_ne_position h.1]

theorem hudNav16OnFrame_sound (raw : List UInt8) (g : Option AaGuidance) (p : Option AaPosition) :
    OnFrameSound g p (hudNav16OnFrame raw g p) := by
  match raw with
  | [] => exact onFrameSound_short g p
  | [_] => exact onFrameSound_short g p
  | b₀ :: b₁ :: body =>
    unfold hudNav16OnFrame
    dsimp only
    split
    · rename_i h
      constructor
      · rw [if_pos h]
        exact ⟨_, rfl, hudNav16DecodeNavstate_sound _⟩
      · -- the two ids differ
        rw [if_neg (fun h' => absurd (h.1.symm.trans h'.1) (by decide))]
    · rename_i hstate
      split
      · rename_i h
        constructor
        · rw [if_neg hstate]
        · -- a position fills the other struct
          rw [if_pos h]
          exact ⟨_, rfl, hudNav16DecodePosition_sound _⟩
      · -- another id, or no struct for it: both are left as they were
        rename_i hpos
        constructor
        · rw [if_neg hstate]
        · rw [if_neg hpos]

theorem hudNav16OnFrame_id (b₀ b₁ : UInt8) (body : List UInt8) (g : Option AaGuidance)
    (p : Option AaPosition) : (hudNav16OnFrame (b₀ :: b₁ :: body) g p).1 = msgId b₀ b₁ := by
  unfold hudNav16OnFrame
  dsimp only
  split
  · rfl
  split
  · rfl
  · rfl

/-- A callback gets a sound struct. -/
def SinkCall.Sound : SinkCall → Prop
  | .guidance g => g.Sound
  | .position p => p.Sound
  | .status _ => True

theorem hudNav16Feed_sound (sink : HudNav16Sink) (raw : List UInt8) :
    ∀ call, hudNav16Feed sink raw = some call → call.Sound := by
  intro call hcall
  match raw with
  | [] => exact absurd hcall (by simp [hudNav16Feed])
  | [_] => exact absurd hcall (by simp [hudNav16Feed])
  | b₀ :: b₁ :: body =>
    have hid := hudNav16OnFrame_id b₀ b₁ body
    have hsound := hudNav16OnFrame_sound (b₀ :: b₁ :: body)
    unfold hudNav16Feed at hcall
    dsimp only at hcall
    split at hcall
    · -- the id has the struct filled
      rename_i hstate
      have hcall := (Option.ite_none_right_eq_some.mp hcall).2
      obtain ⟨g, hg, rfl⟩ := Option.map_eq_some_iff.mp hcall
      have hfilled := (hsound (some {}) none).guidance
      rw [if_pos ⟨(hid _ _).trans hstate, rfl⟩] at hfilled
      obtain ⟨g', hg', hs⟩ := hfilled
      obtain rfl := Option.some_inj.mp (hg.symm.trans hg')
      exact hs
    split at hcall
    · rename_i hpos
      have hcall := (Option.ite_none_right_eq_some.mp hcall).2
      obtain ⟨p, hp, rfl⟩ := Option.map_eq_some_iff.mp hcall
      have hfilled := (hsound none (some {})).position
      rw [if_pos ⟨(hid _ _).trans hpos, rfl⟩] at hfilled
      obtain ⟨p', hp', hs⟩ := hfilled
      obtain rfl := Option.some_inj.mp (hp.symm.trans hp')
      exact hs
    split at hcall
    · rw [← eq_of_ite_some hcall]
      exact trivial
    split at hcall
    · rw [← eq_of_ite_some hcall]
      exact trivial
    · exact absurd hcall (by simp)

/-! ## The entry points in memory -/

namespace Memory

open Logged (Meets)

/-- The `n` bytes at `raw`. -/
def bytesAt (mem : Mem) (raw n : Nat) : List UInt8 := (List.range n).map fun i => mem (raw + i)

theorem inMemory_bytesAt (mem : Mem) (raw : Nat) {n : Nat} (h : n < 2 ^ 63) :
    InMemory mem raw (bytesAt mem raw n) where
  bytes := by
    intro i hi
    simp [bytesAt]
  small := by
    rw [bytesAt, List.length_map, List.length_range]
    exact h

/-- Nothing is read behind a null pointer, and nothing outside the frame. -/
def Access.InFrame (raw : Option Nat) (size : Int32) (e : Access) : Prop :=
  ∃ base, raw = some base ∧ e.Inside base size.toNatClampNeg

theorem meets_inFrame {α : Type} {m : Reader α} {Q : α → Prop} {base : Nat} {size : Int32}
    (h : Meets (Access.Inside base size.toNatClampNeg) m Q) :
    Meets (Access.InFrame (some base) size) m Q :=
  ⟨fun e he => ⟨base, rfl, h.1 e he⟩, h.2⟩

/-- **The decoder is safe on arbitrary bytes.** Whatever stands in memory, every entry
point returns, touches no byte outside the frame, keeps its cursors and views inside, and
leaves sound structs. -/
theorem decoder_safe (mem : Mem) (raw : Option Nat) (size : Int32) (fuel : Nat)
    (hfuel : size.toNatClampNeg < fuel) (sink : HudNav16Sink) (g : Option AaGuidance)
    (p : Option AaPosition) :
    Meets (Access.InFrame raw size) (hudNav16OnFrame mem fuel raw size g p)
        (OnFrameSound g p) ∧
      Meets (Access.InFrame raw size) (hudNav16ReadStatus mem fuel raw size) (fun _ => True) ∧
      Meets (Access.InFrame raw size) (hudNav16Feed mem fuel sink raw size)
        (fun r => ∀ call, r = some call → call.Sound) := by
  cases raw with
  | none =>
    -- a null pointer is read by none of them
    exact ⟨.pure (onFrameSound_short g p), .pure trivial,
      .pure fun call hcall => absurd hcall (by simp)⟩
  | some base =>
    have hlen : (bytesAt mem base size.toNatClampNeg).length = size.toNatClampNeg := by
      rw [bytesAt, List.length_map, List.length_range]
    have hsmall : size.toNatClampNeg < 2 ^ 63 := by
      have := size.toInt_lt
      rw [Int32.toNatClampNeg]
      omega
    have hm := inMemory_bytesAt mem base hsmall
    have hfuel' : (bytesAt mem base size.toNatClampNeg).length < fuel := by rwa [hlen]
    -- the bounded decoder on those bytes
    have hframe := hudNav16OnFrame_meets hm hfuel' hlen.symm g p
    have hstatus := hudNav16ReadStatus_meets hm hfuel' hlen.symm
    have hfeed := hudNav16Feed_meets hm hfuel' hlen.symm sink
    rw [hlen] at hframe hstatus hfeed
    refine ⟨meets_inFrame (hframe.mono ?_), meets_inFrame (hstatus.mono fun _ _ => trivial),
      meets_inFrame (hfeed.mono ?_)⟩
    · rintro _ rfl
      exact hudNav16OnFrame_sound _ g p
    · rintro _ rfl
      exact hudNav16Feed_sound sink _

/-- A frame of four bytes in front of a varint that never ends. -/
theorem decoder_safe_truncated :
    Meets (Access.InFrame (some 100) 4)
        (hudNav16OnFrame (fun a => if a = 100 then 0x80 else if a = 101 then 0x06 else 0xff) 5
          (some 100) 4 (some {}) none)
        (OnFrameSound (some {}) none) ∧
      Meets (Access.InFrame (some 100) 4)
        (hudNav16ReadStatus (fun a => if a = 100 then 0x80 else if a = 101 then 0x06 else 0xff) 5
          (some 100) 4) (fun _ => True) ∧
      Meets (Access.InFrame (some 100) 4)
        (hudNav16Feed (fun a => if a = 100 then 0x80 else if a = 101 then 0x06 else 0xff) 5
          hudSink (some 100) 4)
        (fun r => ∀ call, r = some call → call.Sound) :=
  decoder_safe _ (some 100) 4 5 (by decide) hudSink (some {}) none

end Memory

end OemAaMod
