import Mathlib.Data.Nat.Bitwise
import OemAaMod.Hud.Lane
import OemAaMod.Nav16.RoundTrip

/-!
# What a lane code says

A lane code is a picture: the arrows it draws, and for some codes one arrow of them that
it singles out. A lane message says which directions the lane has and which of them are
highlighted.

* `drawn`, `singledOut` — the codes 0 to 70, by the comments of `OemLaneCode`;
* `Tells` — the picture is of that lane;
* `FallsBack` — several highlighted directions, no picture of them all, and a first arrow
  that is not highlighted;
* `laneCode_neverMisleads_iff` — the code of a decoded lane tells the lane, but there.
-/

namespace OemAaMod

open Wire (Octets)

/-! ## Pictures -/

inductive Direction
  | straight
  | slightRight
  | right
  | sharpRight
  | slightLeft
  | left
  | sharpLeft
deriving DecidableEq, Repr

namespace Direction

def all : List Direction :=
  [straight, slightRight, right, sharpRight, slightLeft, left, sharpLeft]

instance : Fintype Direction := ⟨⟨all, by decide⟩, by intro dir; cases dir <;> decide⟩

/-- The `OD_*` bit. -/
def bit : Direction → UInt32
  | straight => OD_STRAIGHT
  | slightRight => OD_SLIGHT_R
  | right => OD_RIGHT
  | sharpRight => OD_SHARP_R
  | slightLeft => OD_SLIGHT_L
  | left => OD_LEFT
  | sharpLeft => OD_SHARP_L

end Direction

/-- The arrows of the codes 0 to 22. -/
def arrows : List (List Direction) :=
  [[], [.straight], [.slightRight], [.right], [.sharpRight], [.slightLeft], [.left], [.sharpLeft],
    [.straight, .slightRight], [.straight, .slightLeft], [.slightLeft, .straight, .slightRight],
    [.straight, .right], [.straight, .left], [.left, .straight, .right],
    [.slightRight, .sharpRight], [.slightLeft, .sharpLeft], [.slightLeft, .slightRight],
    [.straight, .right], [.straight, .left], [.left, .right], [], [], []]

/-- The codes 23 to 48: the arrows they draw, and the one to take. -/
def details : List (Nat × Direction) :=
  [(8, .straight), (8, .slightRight), (9, .straight), (9, .slightLeft),
    (10, .straight), (10, .slightLeft), (10, .slightRight), (11, .straight), (11, .right),
    (12, .straight), (12, .left), (13, .straight), (13, .left), (13, .right),
    (14, .slightRight), (14, .sharpRight), (15, .slightLeft), (15, .sharpLeft),
    (16, .slightLeft), (16, .slightRight), (17, .straight), (17, .right),
    (18, .straight), (18, .left), (19, .left), (19, .right)]

def drawn (code : UInt8) : List Direction :=
  let n := code.toNat
  if n ≤ 22 then arrows.getD n []
  else if n ≤ 48 then ((details[n - 23]?).map fun d => arrows.getD d.1 []).getD []
  else arrows.getD (n - 48) []

/-- The direction of a single arrow, or of a detail code. -/
def singledOut (code : UInt8) : Option Direction :=
  let n := code.toNat
  if 1 ≤ n ∧ n ≤ 7 then (arrows.getD n []).head?
  else if 23 ≤ n ∧ n ≤ 48 then (details[n - 23]?).map Prod.snd
  else none

/-! ## Lanes -/

section Tells

variable (present highlighted : Direction → Prop)

/-- The code is a picture of the lane. -/
structure Tells (code : UInt8) : Prop where
  none        : code = OEM_LANE_NONE ↔ ∀ dir, ¬present dir
  recommended : (1 ≤ code ∧ code ≤ 48) ↔ ∃ dir, highlighted dir
  neighbour   : (49 ≤ code ∧ code ≤ 70) ↔ (∃ dir, present dir) ∧ ∀ dir, ¬highlighted dir
  draws       : ∀ dir ∈ drawn code, present dir
  singles     : (∃ dir, highlighted dir) →
    ∀ dir, singledOut code = some dir → highlighted dir

/-- Several directions are highlighted, no code draws the lane, and its first arrow is
not one of the highlighted ones. -/
structure FallsBack : Prop where
  several  : ∃ dir dir', highlighted dir ∧ highlighted dir' ∧ dir ≠ dir'
  aside    : ∃ dir, present dir ∧ ¬highlighted dir ∧
    ∀ dir' : Direction, dir'.bit < dir.bit → ¬present dir'
  noPicture : ∀ n ∈ List.range 23, ¬∀ dir, dir ∈ arrows.getD n [] ↔ present dir

variable {present highlighted}

instance [DecidablePred present] [DecidablePred highlighted] (code : UInt8) :
    Decidable (Tells present highlighted code) :=
  decidable_of_iff
    ((code = OEM_LANE_NONE ↔ ∀ dir, ¬present dir) ∧
      ((1 ≤ code ∧ code ≤ 48) ↔ ∃ dir, highlighted dir) ∧
      ((49 ≤ code ∧ code ≤ 70) ↔ (∃ dir, present dir) ∧ ∀ dir, ¬highlighted dir) ∧
      (∀ dir ∈ drawn code, present dir) ∧
      ((∃ dir, highlighted dir) → ∀ dir, singledOut code = some dir → highlighted dir))
    ⟨fun ⟨h₁, h₂, h₃, h₄, h₅⟩ => ⟨h₁, h₂, h₃, h₄, h₅⟩,
      fun ⟨h₁, h₂, h₃, h₄, h₅⟩ => ⟨h₁, h₂, h₃, h₄, h₅⟩⟩

instance [DecidablePred present] [DecidablePred highlighted] :
    Decidable (FallsBack present highlighted) :=
  decidable_of_iff
    ((∃ dir dir', highlighted dir ∧ highlighted dir' ∧ dir ≠ dir') ∧
      (∃ dir, present dir ∧ ¬highlighted dir ∧
        ∀ dir' : Direction, dir'.bit < dir.bit → ¬present dir') ∧
      ∀ n ∈ List.range 23, ¬∀ dir, dir ∈ arrows.getD n [] ↔ present dir)
    ⟨fun ⟨h₁, h₂, h₃⟩ => ⟨h₁, h₂, h₃⟩, fun ⟨h₁, h₂, h₃⟩ => ⟨h₁, h₂, h₃⟩⟩

end Tells

/-! ## Codes of direction sets -/

/-- `oem_lane_code_for_aa`, once the shapes are direction bits. -/
def codeForDirs (present hl : UInt32) : UInt8 :=
  if present = 0 then OEM_LANE_NONE
  else
    let recommended := hl ≠ 0
    let base := oemBaseCodeForDirs present
    let oneHl := hl ≠ 0 ∧ hl &&& (hl - 1) = 0
    let detail := oemDetailCode base hl
    if recommended ∧ oneHl ∧ detail ≠ OEM_LANE_NONE then detail
    else
      let base :=
        if base = OEM_LANE_NONE then
          let pick := if oneHl then hl else present &&& (0 - present)
          let single := oemBaseCodeForDirs pick
          if single = OEM_LANE_NONE then OEM_LANE_STRAIGHT else single
        else base
      if recommended then base else base + OEM_LANE_NONREC_OFFSET

theorem oemLaneCodeForAa_eq (presentShapes highlightShapes : UInt16) :
    oemLaneCodeForAa presentShapes highlightShapes =
      codeForDirs (dirsOfMask presentShapes) (dirsOfMask highlightShapes) := rfl

/-- A direction of a set of direction bits. -/
def Has (dirs : UInt32) (dir : Direction) : Prop := dirs &&& dir.bit ≠ 0

instance (dirs : UInt32) : DecidablePred (Has dirs) := fun _ => inferInstanceAs (Decidable (_ ≠ _))

/-- What holds of the 128 direction sets. -/
theorem forall_dirs {q : UInt32 → Prop} [DecidablePred q]
    (h : ((List.range 128).all fun n => decide (q (UInt32.ofNat n))) = true) {dirs : UInt32}
    (hdirs : dirs < 128) : q dirs := by
  have hmem : dirs.toNat ∈ List.range 128 := List.mem_range.mpr (UInt32.lt_iff_toNat_lt.mp hdirs)
  have hq := of_decide_eq_true (List.all_eq_true.mp h _ hmem)
  rwa [UInt32.ofNat_toNat] at hq

/-- What the bit operations of the source make of a set. -/
def SetFacts (dirs : UInt32) : Prop :=
  (dirs ≠ 0 ↔ ∃ dir, Has dirs dir) ∧
  ((dirs ≠ 0 ∧ dirs &&& (dirs - 1) = 0) ↔ ∃ dir : Direction, dirs = dir.bit) ∧
  (dirs ≠ 0 → ∃ dir : Direction, dirs &&& (0 - dirs) = dir.bit ∧ Has dirs dir ∧
    ∀ dir' : Direction, dir'.bit < dir.bit → ¬Has dirs dir') ∧
  (dirs = 0 ∨ (∃ dir : Direction, dirs = dir.bit) ∨
    (¬(dirs ≠ 0 ∧ dirs &&& (dirs - 1) = 0)) ∧
      ∃ dir dir', Has dirs dir ∧ Has dirs dir' ∧ dir ≠ dir')

instance : DecidablePred SetFacts := fun _ => inferInstanceAs (Decidable (_ ∧ _))

theorem setFacts {dirs : UInt32} (hdirs : dirs < 128) : SetFacts dirs :=
  forall_dirs (by decide +kernel) hdirs

/-- The bits are those of different directions. -/
theorem bitFacts : ∀ dir dir' : Direction, (Has dir.bit dir' ↔ dir' = dir) ∧
    (¬dir.bit < dir'.bit → ¬dir'.bit < dir.bit → dir = dir') ∧ dir.bit < 128 ∧ ¬Has 0 dir := by
  decide +kernel

theorem exists_has {dirs : UInt32} (hdirs : dirs < 128) : dirs ≠ 0 ↔ ∃ dir, Has dirs dir :=
  (setFacts hdirs).1

theorem has_bit (dir dir' : Direction) : Has dir.bit dir' ↔ dir' = dir :=
  (bitFacts dir dir').1

/-- `hl && (hl & (hl - 1)) == 0`: exactly one direction. -/
theorem oneHl_iff {dirs : UInt32} (hdirs : dirs < 128) :
    (dirs ≠ 0 ∧ dirs &&& (dirs - 1) = 0) ↔ ∃ dir : Direction, dirs = dir.bit :=
  (setFacts hdirs).2.1

/-- `present & (0u - present)`: the first direction. -/
theorem exists_first {dirs : UInt32} (hdirs : dirs < 128) (hne : dirs ≠ 0) :
    ∃ dir : Direction, dirs &&& (0 - dirs) = dir.bit ∧ Has dirs dir ∧
      ∀ dir' : Direction, dir'.bit < dir.bit → ¬Has dirs dir' :=
  (setFacts hdirs).2.2.1 hne

/-- A base code is a picture of its directions; it singles one out only where there is
no other. -/
structure BaseCode (dirs : UInt32) (code : UInt8) : Prop where
  range   : 1 ≤ code ∧ code ≤ 22
  draws   : ∀ dir, dir ∈ drawn code ↔ Has dirs dir
  singles : ∀ dir, singledOut code = some dir → dirs = dir.bit

/-- What the code tables of the source have for a set. -/
def CodeFacts (dirs : UInt32) : Prop :=
  (oemBaseCodeForDirs dirs ≠ OEM_LANE_NONE →
    (1 ≤ oemBaseCodeForDirs dirs ∧ oemBaseCodeForDirs dirs ≤ 22) ∧
    (∀ dir, dir ∈ drawn (oemBaseCodeForDirs dirs) ↔ Has dirs dir) ∧
    ∀ dir, singledOut (oemBaseCodeForDirs dirs) = some dir → dirs = dir.bit) ∧
  ∀ dir : Direction,
    (dirs = dir.bit → oemBaseCodeForDirs dirs ≠ OEM_LANE_NONE ∧
      singledOut (oemBaseCodeForDirs dirs) = some dir) ∧
    (oemDetailCode (oemBaseCodeForDirs dirs) dir.bit ≠ OEM_LANE_NONE →
      (1 ≤ oemDetailCode (oemBaseCodeForDirs dirs) dir.bit ∧
        oemDetailCode (oemBaseCodeForDirs dirs) dir.bit ≤ 48) ∧
      (∀ dir', dir' ∈ drawn (oemDetailCode (oemBaseCodeForDirs dirs) dir.bit) → Has dirs dir') ∧
      singledOut (oemDetailCode (oemBaseCodeForDirs dirs) dir.bit) = some dir)

instance : DecidablePred CodeFacts := fun _ => inferInstanceAs (Decidable (_ ∧ _))

theorem codeFacts {dirs : UInt32} (hdirs : dirs < 128) : CodeFacts dirs :=
  forall_dirs (by decide +kernel) hdirs

theorem oemBaseCodeForDirs_spec {dirs : UInt32} (hdirs : dirs < 128)
    (hbase : oemBaseCodeForDirs dirs ≠ OEM_LANE_NONE) :
    BaseCode dirs (oemBaseCodeForDirs dirs) := by
  obtain ⟨hrange, hdraws, hsingles⟩ := (codeFacts hdirs).1 hbase
  exact ⟨hrange, hdraws, hsingles⟩

/-- The direction bits of a set of directions. -/
def dirsOf (p : Direction → Bool) : UInt32 :=
  (Direction.all.filter p).foldl (fun dirs dir => dirs ||| dir.bit) 0

theorem dirsOf_has {dirs : UInt32} (hdirs : dirs < 128) :
    dirsOf (fun dir => decide (Has dirs dir)) = dirs :=
  forall_dirs (q := fun dirs => dirsOf (fun dir => decide (Has dirs dir)) = dirs)
    (by decide +kernel) hdirs

/-- Where there is no base code, no picture would do. -/
theorem noPicture {dirs : UInt32} (hdirs : dirs < 128) (hne : dirs ≠ 0)
    (hbase : oemBaseCodeForDirs dirs = OEM_LANE_NONE) :
    ∀ n ∈ List.range 23, ¬∀ dir, dir ∈ arrows.getD n [] ↔ Has dirs dir := by
  -- the pictures with arrows are those of the base codes
  have hpictures : ((List.range 23).all fun n =>
      dirsOf (fun dir => decide (dir ∈ arrows.getD n [])) = 0 ∨
      oemBaseCodeForDirs (dirsOf fun dir => decide (dir ∈ arrows.getD n [])) ≠ OEM_LANE_NONE) =
      true := by decide +kernel
  intro n hn hdraws
  have heq : dirsOf (fun dir => decide (dir ∈ arrows.getD n [])) = dirs := by
    have hsame : (fun dir => decide (dir ∈ arrows.getD n [])) = fun dir => decide (Has dirs dir) :=
      funext fun dir => decide_eq_decide.mpr (hdraws dir)
    rw [hsame, dirsOf_has hdirs]
  rcases of_decide_eq_true (List.all_eq_true.mp hpictures n hn) with hzero | hsome
  · exact hne (heq ▸ hzero)
  · exact hsome (heq ▸ hbase)

/-- A single arrow. -/
theorem oemBaseCodeForDirs_bit (dir : Direction) :
    (oemBaseCodeForDirs dir.bit ≠ OEM_LANE_NONE) ∧
      singledOut (oemBaseCodeForDirs dir.bit) = some dir :=
  ((codeFacts (bitFacts dir dir).2.2.1).2 dir).1 rfl

/-- A detail code draws what its base code draws, and singles the direction out. -/
theorem oemDetailCode_spec {dirs : UInt32} (hdirs : dirs < 128) (dir : Direction)
    (hdetail : oemDetailCode (oemBaseCodeForDirs dirs) dir.bit ≠ OEM_LANE_NONE) :
    (1 ≤ oemDetailCode (oemBaseCodeForDirs dirs) dir.bit ∧
      oemDetailCode (oemBaseCodeForDirs dirs) dir.bit ≤ 48) ∧
    (∀ dir', dir' ∈ drawn (oemDetailCode (oemBaseCodeForDirs dirs) dir.bit) → Has dirs dir') ∧
    singledOut (oemDetailCode (oemBaseCodeForDirs dirs) dir.bit) = some dir :=
  ((codeFacts hdirs).2 dir).2 hdetail

/-- The code of a neighbour's lane draws what the base code draws. -/
theorem BaseCode.greyed {dirs : UInt32} {code : UInt8} (h : BaseCode dirs code) :
    (49 ≤ code + OEM_LANE_NONREC_OFFSET ∧ code + OEM_LANE_NONREC_OFFSET ≤ 70) ∧
      drawn (code + OEM_LANE_NONREC_OFFSET) = drawn code := by
  have hgrey : ((List.range 23).all fun n => n = 0 ∨
      (49 ≤ UInt8.ofNat n + OEM_LANE_NONREC_OFFSET ∧
        UInt8.ofNat n + OEM_LANE_NONREC_OFFSET ≤ 70) ∧
      drawn (UInt8.ofNat n + OEM_LANE_NONREC_OFFSET) = drawn (UInt8.ofNat n)) = true := by
    decide +kernel
  obtain ⟨hpos, hle⟩ := h.range
  have hpos : 1 ≤ code.toNat := UInt8.le_iff_toNat_le.mp hpos
  have hle : code.toNat ≤ 22 := UInt8.le_iff_toNat_le.mp hle
  -- the offset moves 1 to 22 past the details, so there is no overlap
  have hcode := List.all_eq_true.mp hgrey code.toNat (List.mem_range.mpr (by omega))
  rw [UInt8.ofNat_toNat] at hcode
  rcases of_decide_eq_true hcode with hzero | hcode
  · omega
  · exact hcode

/-! ## The code of a lane -/

section CodeForDirs

variable {present hl : UInt32}

/-- A recommended lane, drawn by `code`. -/
theorem tells_recommended {code : UInt8} (hrange : 1 ≤ code ∧ code ≤ 48)
    (hdraws : ∀ dir ∈ drawn code, Has present dir) (hsub : ∀ dir, Has hl dir → Has present dir)
    (hrec : ∃ dir, Has hl dir) (hsingles : ∀ dir, singledOut code = some dir → Has hl dir) :
    Tells (Has present) (Has hl) code := by
  obtain ⟨dir, hdir⟩ := hrec
  have hpos : 1 ≤ code.toNat := UInt8.le_iff_toNat_le.mp hrange.1
  have hle : code.toNat ≤ 48 := UInt8.le_iff_toNat_le.mp hrange.2
  constructor
  · refine ⟨fun h => ?_, fun h => absurd (hsub dir hdir) (h dir)⟩
    -- no picture is `OEM_LANE_NONE`, and something is present
    rw [h] at hpos
    exact absurd hpos (by decide)
  · exact ⟨fun _ => ⟨dir, hdir⟩, fun _ => hrange⟩
  · refine ⟨fun h => ?_, fun h => absurd hdir (h.2 dir)⟩
    have h49 : 49 ≤ code.toNat := UInt8.le_iff_toNat_le.mp h.1
    omega
  · exact hdraws
  · exact fun _ => hsingles

/-- A neighbour's lane, drawn by the greyed `code`. -/
theorem tells_greyed {dirs : UInt32} {code : UInt8} (hcode : BaseCode dirs code)
    (hdirs : ∀ dir, Has dirs dir → Has present dir) (hpresent : ∃ dir, Has present dir) :
    Tells (Has present) (Has 0) (code + OEM_LANE_NONREC_OFFSET) := by
  obtain ⟨hrange, hdrawn⟩ := hcode.greyed
  have hnone : ∀ dir, ¬Has 0 dir := fun dir => (bitFacts dir dir).2.2.2
  have hpos : 49 ≤ (code + OEM_LANE_NONREC_OFFSET).toNat := UInt8.le_iff_toNat_le.mp hrange.1
  constructor
  · refine ⟨fun h => ?_, fun h => absurd hpresent (not_exists.mpr h)⟩
    rw [h] at hpos
    exact absurd hpos (by decide)
  · refine ⟨fun h => ?_, fun h => absurd h (not_exists.mpr hnone)⟩
    have h48 : (code + OEM_LANE_NONREC_OFFSET).toNat ≤ 48 := UInt8.le_iff_toNat_le.mp h.2
    omega
  · exact ⟨fun _ => ⟨hpresent, hnone⟩, fun _ => hrange⟩
  · intro dir hdir
    rw [hdrawn] at hdir
    exact hdirs dir ((hcode.draws dir).mp hdir)
  · exact fun h => absurd h (not_exists.mpr hnone)

theorem tells_none : Tells (Has 0) (Has 0) OEM_LANE_NONE := by decide +kernel

theorem BaseCode.le_48 {dirs : UInt32} {code : UInt8} (h : BaseCode dirs code) :
    1 ≤ code ∧ code ≤ 48 :=
  ⟨h.range.1, UInt8.le_trans h.range.2 (by decide)⟩

theorem bit_lt (dir : Direction) : dir.bit < 128 := (bitFacts dir dir).2.2.1

theorem bit_baseCode (dir : Direction) : BaseCode dir.bit (oemBaseCodeForDirs dir.bit) :=
  oemBaseCodeForDirs_spec (bit_lt dir) (oemBaseCodeForDirs_bit dir).1

variable (hpresent : present < 128) (hhl : hl < 128)
  (hsub : ∀ dir, Has hl dir → Has present dir)

include hpresent hhl hsub in
/-- One direction highlighted: its detail code, the lane's only arrow, or its arrow. -/
theorem tells_one {dir : Direction} (hdir : hl = dir.bit) :
    Tells (Has present) (Has hl) (codeForDirs present hl) := by
  have hhas : Has hl dir := by
    rw [hdir]
    exact (has_bit dir dir).mpr rfl
  have hrec : ∃ dir, Has hl dir := ⟨dir, hhas⟩
  have hne : present ≠ 0 := (exists_has hpresent).mpr ⟨dir, hsub dir hhas⟩
  have hone : hl ≠ 0 ∧ hl &&& (hl - 1) = 0 := (oneHl_iff hhl).mpr ⟨dir, hdir⟩
  unfold codeForDirs
  dsimp only
  rw [if_neg hne]
  -- a detail code wins; without one, the base code; without that, an arrow
  by_cases hdetail : oemDetailCode (oemBaseCodeForDirs present) hl = OEM_LANE_NONE
  · rw [if_neg fun h => h.2.2 hdetail, if_pos hone.1]
    by_cases hbase : oemBaseCodeForDirs present = OEM_LANE_NONE
    · -- no picture of the whole lane: the highlighted arrow alone
      have hsingle := (oemBaseCodeForDirs_bit dir).1
      rw [if_pos hbase, if_pos hone, hdir, if_neg hsingle]
      have hcode := bit_baseCode dir
      refine tells_recommended hcode.le_48 (fun d hd => ?_) (hdir ▸ hsub) (hdir ▸ hrec) fun d hd => ?_
      · exact hsub d (hdir ▸ (hcode.draws d).mp hd)
      · rw [(oemBaseCodeForDirs_bit dir).2] at hd
        rw [← Option.some_inj.mp hd]
        exact (has_bit dir dir).mpr rfl
    · rw [if_neg hbase]
      have hcode := oemBaseCodeForDirs_spec hpresent hbase
      refine tells_recommended hcode.le_48 (fun d => (hcode.draws d).mp) hsub hrec fun d hd => ?_
      -- the only arrow of the lane is the highlighted one
      have honly : dir = d := (has_bit d dir).mp (hcode.singles d hd ▸ hsub dir hhas)
      exact honly ▸ hhas
  · -- the detail code singles out the highlighted direction
    rw [if_pos ⟨hone.1, hone, hdetail⟩]
    rw [hdir] at hdetail ⊢
    obtain ⟨hrange, hdraws, hsingle⟩ := oemDetailCode_spec hpresent dir hdetail
    refine tells_recommended hrange hdraws (hdir ▸ hsub) (hdir ▸ hrec) fun d hd => ?_
    rw [hsingle] at hd
    rw [← Option.some_inj.mp hd]
    exact (has_bit dir dir).mpr rfl

include hpresent in
/-- Nothing highlighted: the lane greyed, or its first arrow. -/
theorem tells_zero : Tells (Has present) (Has 0) (codeForDirs present 0) := by
  by_cases hne : present = 0
  · rw [hne]
    exact tells_none
  have hsome := (exists_has hpresent).mp hne
  have hone : ¬((0 : UInt32) ≠ 0 ∧ (0 : UInt32) &&& (0 - 1) = 0) := fun h => h.1 rfl
  unfold codeForDirs
  dsimp only
  rw [if_neg hne, if_neg fun h => h.1 rfl, if_neg (not_not.mpr rfl)]
  by_cases hbase : oemBaseCodeForDirs present = OEM_LANE_NONE
  · -- no picture: the first arrow, which is present
    obtain ⟨first, hfirst, hhas, -⟩ := exists_first hpresent hne
    rw [if_pos hbase, if_neg hone, hfirst, if_neg (oemBaseCodeForDirs_bit first).1]
    refine tells_greyed (bit_baseCode first) (fun dir hdir => ?_) hsome
    rw [(has_bit first dir).mp hdir]
    exact hhas
  · rw [if_neg hbase]
    exact tells_greyed (oemBaseCodeForDirs_spec hpresent hbase) (fun _ => id) hsome

include hhl in
/-- Highlighted directions are none, one or several. -/
theorem none_one_several : hl = 0 ∨ (∃ dir : Direction, hl = dir.bit) ∨
    ((¬(hl ≠ 0 ∧ hl &&& (hl - 1) = 0)) ∧
      ∃ dir dir', Has hl dir ∧ Has hl dir' ∧ dir ≠ dir') :=
  (setFacts hhl).2.2.2

theorem eq_of_not_lt {dir dir' : Direction} (h : ¬dir.bit < dir'.bit) (h' : ¬dir'.bit < dir.bit) :
    dir = dir' :=
  (bitFacts dir dir').2.1 h h'

include hpresent hsub in
/-- Several directions highlighted. -/
theorem tells_several_iff (hone : ¬(hl ≠ 0 ∧ hl &&& (hl - 1) = 0))
    (hseveral : ∃ dir dir', Has hl dir ∧ Has hl dir' ∧ dir ≠ dir') (hrec : hl ≠ 0) :
    Tells (Has present) (Has hl) (codeForDirs present hl) ↔
      ¬FallsBack (Has present) (Has hl) := by
  obtain ⟨dir, dir', hdir, hdir', hneq⟩ := hseveral
  have hne : present ≠ 0 := (exists_has hpresent).mpr ⟨dir, hsub dir hdir⟩
  unfold codeForDirs
  dsimp only
  rw [if_neg hne, if_neg fun h => hone h.2.1, if_pos hrec]
  by_cases hbase : oemBaseCodeForDirs present = OEM_LANE_NONE
  · -- the first arrow, highlighted or not
    obtain ⟨first, hfirst, hhas, hlow⟩ := exists_first hpresent hne
    have hcode := bit_baseCode first
    have hsingle := (oemBaseCodeForDirs_bit first).2
    rw [if_pos hbase, if_neg hone, hfirst, if_neg (oemBaseCodeForDirs_bit first).1]
    constructor
    · -- the arrow that is not highlighted is the one drawn, and is singled out
      rintro htells ⟨-, ⟨d, hd, hnot, hbefore⟩, -⟩
      have heq : d = first :=
        eq_of_not_lt (fun hlt => hlow d hlt hd) (fun hlt => hbefore first hlt hhas)
      exact hnot (heq ▸ htells.singles ⟨dir, hdir⟩ first hsingle)
    · intro hfalls
      -- otherwise the arrow drawn must be highlighted: all else is given
      have hhigh : Has hl first := by
        by_contra hnot
        exact hfalls ⟨⟨dir, dir', hdir, hdir', hneq⟩, ⟨first, hhas, hnot, hlow⟩,
          noPicture hpresent hne hbase⟩
      refine tells_recommended hcode.le_48 (fun d hd => ?_) hsub ⟨dir, hdir⟩ fun d hd => ?_
      · rw [(has_bit first d).mp ((hcode.draws d).mp hd)]
        exact hhas
      · rw [hsingle] at hd
        rw [← Option.some_inj.mp hd]
        exact hhigh
  · rw [if_neg hbase]
    have hcode := oemBaseCodeForDirs_spec hpresent hbase
    refine iff_of_true ?_ fun h => ?_
    · refine tells_recommended hcode.le_48 (fun d => (hcode.draws d).mp) hsub ⟨dir, hdir⟩
        fun d hd => ?_
      -- a code that singles an arrow out has no other
      have hall := hcode.singles d hd
      rw [hall] at hsub
      exact absurd (((has_bit d dir).mp (hsub dir hdir)).trans
        ((has_bit d dir').mp (hsub dir' hdir')).symm) hneq
    · -- the base code is a picture
      have hle : (oemBaseCodeForDirs present).toNat ≤ 22 :=
        UInt8.le_iff_toNat_le.mp hcode.range.2
      refine h.noPicture _ (List.mem_range.mpr (Nat.lt_succ_of_le hle)) fun d => ?_
      have hdraws := hcode.draws d
      rwa [drawn, if_pos hle] at hdraws

include hpresent hhl hsub in
/-- **The code of a lane tells the lane**, unless it is fallen back on an arrow that is
not highlighted. -/
theorem codeForDirs_tells_iff :
    Tells (Has present) (Has hl) (codeForDirs present hl) ↔
      ¬FallsBack (Has present) (Has hl) := by
  -- a lane with at most one highlighted direction never falls back
  rcases none_one_several hhl with rfl | ⟨dir, hdir⟩ | ⟨hone, hseveral⟩
  · refine iff_of_true (tells_zero hpresent) fun h => ?_
    obtain ⟨dir, -, hdir, -, -⟩ := h.several
    exact (exists_has hhl).mpr ⟨dir, hdir⟩ rfl
  · refine iff_of_true (tells_one hpresent hhl hsub hdir) fun h => ?_
    obtain ⟨d, d', hd, hd', hneq⟩ := h.several
    rw [hdir] at hd hd'
    exact hneq (((has_bit dir d).mp hd).trans ((has_bit dir d').mp hd').symm)
  · have hrec : hl ≠ 0 := by
      obtain ⟨dir, -, hdir, -, -⟩ := hseveral
      exact (exists_has hhl).mpr ⟨dir, hdir⟩
    exact tells_several_iff hpresent hsub hone hseveral hrec

end CodeForDirs

/-! ## The directions of a lane message -/

/-- A shape the decoder keeps. -/
def LaneDirection.Known (d : LaneDirection) : Prop := ∃ shape, d.shape = some shape ∧ shape ≤ 9

/-- The direction of a known shape. -/
def LaneDirection.Points (d : LaneDirection) (dir : Direction) : Prop :=
  ∃ shape, d.shape = some shape ∧ shape ≤ 9 ∧ aaShapeToOemDir shape.toUInt8 = dir.bit

def LaneHas (ds : List LaneDirection) (dir : Direction) : Prop := ∃ d ∈ ds, d.Points dir

def LaneHighlights (ds : List LaneDirection) (dir : Direction) : Prop :=
  ∃ d ∈ ds, d.highlighted = true ∧ d.Points dir

/-- Every shape has a direction, an unknown one too. -/
theorem exists_dir (shape : UInt8) : ∃ dir : Direction, aaShapeToOemDir shape = dir.bit := by
  unfold aaShapeToOemDir
  split
  · exact ⟨.straight, rfl⟩
  split
  · exact ⟨.slightRight, rfl⟩
  split
  · exact ⟨.right, rfl⟩
  split
  · exact ⟨.sharpRight, rfl⟩
  split
  · exact ⟨.sharpRight, rfl⟩
  split
  · exact ⟨.slightLeft, rfl⟩
  split
  · exact ⟨.left, rfl⟩
  split
  · exact ⟨.sharpLeft, rfl⟩
  split
  · exact ⟨.sharpLeft, rfl⟩
  · exact ⟨.straight, rfl⟩

theorem known_iff (d : LaneDirection) : d.Known ↔ ∃ dir, d.Points dir := by
  constructor
  · rintro ⟨shape, hshape, hle⟩
    obtain ⟨dir, hdir⟩ := exists_dir shape.toUInt8
    exact ⟨dir, shape, hshape, hle, hdir⟩
  · rintro ⟨dir, shape, hshape, hle, -⟩
    exact ⟨shape, hshape, hle⟩

theorem has_or (a b : UInt32) (dir : Direction) : Has (a ||| b) dir ↔ Has a dir ∨ Has b dir := by
  have hdistrib : (a ||| b) &&& dir.bit = (a &&& dir.bit) ||| (b &&& dir.bit) := by
    rw [← UInt32.toNat_inj]
    simp only [UInt32.toNat_and, UInt32.toNat_or, Nat.and_or_distrib_right]
  simp only [Has, hdistrib, ne_eq, UInt32.or_eq_zero_iff]
  exact not_and_or

/-- `mask & bit`, for one of the ten shapes. -/
theorem mask_and_shift (mask : UInt16) {s : Nat} (hs : s < 16) :
    mask &&& ((1 : UInt16) <<< UInt16.ofNat s) ≠ 0 ↔ mask.toNat.testBit s = true := by
  have hshift : ((1 : UInt16) <<< UInt16.ofNat s).toNat = 2 ^ s := by
    rw [UInt16.toNat_shiftLeft, UInt16.toNat_ofNat', Nat.mod_eq_of_lt (show s < 2 ^ 16 by omega),
      Nat.mod_eq_of_lt hs, show (1 : UInt16).toNat = 1 from rfl, Nat.one_shiftLeft]
    exact Nat.mod_eq_of_lt (Nat.pow_lt_pow_right (by decide) hs)
  rw [ne_eq, ← UInt16.toNat_inj, UInt16.toNat_and, hshift, Nat.and_two_pow]
  cases mask.toNat.testBit s with
  | true => simp
  | false => simp

/-- Over the shapes: their directions are collected. -/
theorem has_foldl (mask : UInt16) (dir : Direction) (shapes : List Nat)
    (hshapes : ∀ s ∈ shapes, s < 16) : ∀ dirs : UInt32,
    Has (shapes.foldl (fun dirs s =>
      if mask &&& ((1 : UInt16) <<< UInt16.ofNat s) ≠ 0 then
        dirs ||| aaShapeToOemDir (UInt8.ofNat s)
      else dirs) dirs) dir ↔
      Has dirs dir ∨ ∃ s ∈ shapes, mask.toNat.testBit s = true ∧
        aaShapeToOemDir (UInt8.ofNat s) = dir.bit := by
  induction shapes with
  | nil => simp
  | cons s shapes ih =>
    intro dirs
    have hs : s < 16 := hshapes s (List.mem_cons_self ..)
    rw [List.foldl_cons, ih fun x hx => hshapes x (List.mem_cons_of_mem _ hx)]
    simp only [mask_and_shift mask hs, List.exists_mem_cons_iff]
    by_cases hbit : mask.toNat.testBit s = true
    · -- the shape is there, and so is its direction
      obtain ⟨d, hd⟩ := exists_dir (UInt8.ofNat s)
      have hdir : Has d.bit dir ↔ d.bit = dir.bit := by
        rw [has_bit]
        exact ⟨fun h => by rw [h], fun h => eq_of_not_lt (by simp [h]) (by simp [h])⟩
      rw [if_pos hbit, has_or, hd, hdir, or_assoc]
      simp only [hbit, true_and]
    · rw [if_neg hbit]
      simp only [hbit, Bool.false_eq_true, false_and, false_or]

theorem has_dirsOfMask (mask : UInt16) (dir : Direction) :
    Has (dirsOfMask mask) dir ↔ ∃ s ≤ 9, mask.toNat.testBit s = true ∧
      aaShapeToOemDir (UInt8.ofNat s) = dir.bit := by
  have hnone : ¬Has 0 dir := fun h => h (UInt32.zero_and)
  unfold dirsOfMask
  rw [has_foldl mask dir _ fun s hs => by have := List.mem_range.mp hs; omega]
  simp only [hnone, false_or, List.mem_range]
  constructor
  · rintro ⟨s, hs, h⟩
    exact ⟨s, by omega, h⟩
  · rintro ⟨s, hs, h⟩
    exact ⟨s, by omega, h⟩

theorem foldl_dirs_lt (mask : UInt16) (shapes : List Nat) : ∀ dirs : UInt32, dirs < 128 →
    shapes.foldl (fun dirs s =>
      if mask &&& ((1 : UInt16) <<< UInt16.ofNat s) ≠ 0 then
        dirs ||| aaShapeToOemDir (UInt8.ofNat s)
      else dirs) dirs < 128 := by
  induction shapes with
  | nil => exact fun dirs h => h
  | cons s shapes ih =>
    intro dirs hdirs
    refine ih _ ?_
    dsimp only
    split
    · -- seven bits and seven bits are seven bits
      obtain ⟨d, hd⟩ := exists_dir (UInt8.ofNat s)
      have hbit := UInt32.lt_iff_toNat_lt.mp (bit_lt d)
      rw [hd, UInt32.lt_iff_toNat_lt, UInt32.toNat_or]
      exact Nat.or_lt_two_pow (n := 7) (UInt32.lt_iff_toNat_lt.mp hdirs) hbit
    · exact hdirs

theorem dirsOfMask_lt (mask : UInt16) : dirsOfMask mask < 128 :=
  foldl_dirs_lt mask _ 0 (by decide)

theorem ofNat_toUInt8 (s : Nat) : (UInt64.ofNat s).toUInt8 = UInt8.ofNat s := by
  rw [← UInt8.toNat_inj, UInt64.toNat_toUInt8, UInt64.toNat_ofNat', UInt8.toNat_ofNat']
  omega

section Shows

variable {ds : List LaneDirection} {lane : AaLane} (h : lane.Shows ds)
include h

theorem has_present (dir : Direction) : Has (dirsOfMask lane.presentMask) dir ↔ LaneHas ds dir := by
  rw [has_dirsOfMask]
  constructor
  · rintro ⟨s, hs, hbit, hdir⟩
    obtain ⟨-, d, hd, hshape⟩ := (h.present s (by omega)).mp hbit
    exact ⟨d, hd, _, hshape, (ofNat_le_nine (by omega)).mpr hs, by rw [ofNat_toUInt8, hdir]⟩
  · rintro ⟨d, hd, shape, hshape, hle, hdir⟩
    have hs : shape.toNat ≤ 9 := UInt64.le_iff_toNat_le.mp hle
    -- a known shape is one of the ten bits
    have hof : UInt64.ofNat shape.toNat = shape := UInt64.ofNat_toNat
    refine ⟨shape.toNat, hs, (h.present _ (by omega)).mpr ⟨hs, d, hd, by rw [hof, hshape]⟩, ?_⟩
    rw [← ofNat_toUInt8, hof, hdir]

theorem has_highlight (dir : Direction) :
    Has (dirsOfMask lane.highlightMask) dir ↔ LaneHighlights ds dir := by
  rw [has_dirsOfMask]
  constructor
  · rintro ⟨s, hs, hbit, hdir⟩
    obtain ⟨-, d, hd, hshape, hhigh⟩ := (h.highlight s (by omega)).mp hbit
    exact ⟨d, hd, hhigh, _, hshape, (ofNat_le_nine (by omega)).mpr hs,
      by rw [ofNat_toUInt8, hdir]⟩
  · rintro ⟨d, hd, hhigh, shape, hshape, hle, hdir⟩
    have hs : shape.toNat ≤ 9 := UInt64.le_iff_toNat_le.mp hle
    have hof : UInt64.ofNat shape.toNat = shape := UInt64.ofNat_toNat
    refine ⟨shape.toNat, hs,
      (h.highlight _ (by omega)).mpr ⟨hs, d, hd, by rw [hof, hshape], hhigh⟩, ?_⟩
    rw [← ofNat_toUInt8, hof, hdir]

end Shows

/-- Equal lists of directions up to order and repetition decode to equal lanes. -/
theorem shows_unique {ds ds' : List LaneDirection} (hsame : ∀ d, d ∈ ds' ↔ d ∈ ds)
    {lane lane' : AaLane} (h : lane.Shows ds) (h' : lane'.Shows ds') : lane' = lane := by
  have hpresent : lane'.presentMask = lane.presentMask := by
    refine mask_ext fun s hs => ?_
    rw [h.present s hs, h'.present s hs]
    simp only [hsame]
  have hhighlight : lane'.highlightMask = lane.highlightMask := by
    refine mask_ext fun s hs => ?_
    rw [h.highlight s hs, h'.highlight s hs]
    simp only [hsame]
  cases lane
  cases lane'
  simp_all

/-! ## The code of a lane message -/

def AaLane.code (lane : AaLane) : UInt8 := oemLaneCodeForAa lane.presentMask lane.highlightMask

/-- The code tells the lane of the message. -/
structure TellsLane (ds : List LaneDirection) (code : UInt8) : Prop where
  none        : code = OEM_LANE_NONE ↔ ∀ d ∈ ds, ¬d.Known
  recommended : (1 ≤ code ∧ code ≤ 48) ↔ ∃ d ∈ ds, d.Known ∧ d.highlighted = true
  neighbour   : (49 ≤ code ∧ code ≤ 70) ↔
    (∃ d ∈ ds, d.Known) ∧ ∀ d ∈ ds, d.Known → d.highlighted = false
  draws       : ∀ dir ∈ drawn code, LaneHas ds dir
  singles     : (∃ d ∈ ds, d.Known ∧ d.highlighted = true) →
    ∀ dir, singledOut code = some dir → LaneHighlights ds dir

theorem exists_known (ds : List LaneDirection) : (∃ d ∈ ds, d.Known) ↔ ∃ dir, LaneHas ds dir := by
  constructor
  · rintro ⟨d, hd, hknown⟩
    obtain ⟨dir, hdir⟩ := (known_iff d).mp hknown
    exact ⟨dir, d, hd, hdir⟩
  · rintro ⟨dir, d, hd, hdir⟩
    exact ⟨d, hd, (known_iff d).mpr ⟨dir, hdir⟩⟩

theorem exists_highlighted (ds : List LaneDirection) :
    (∃ d ∈ ds, d.Known ∧ d.highlighted = true) ↔ ∃ dir, LaneHighlights ds dir := by
  constructor
  · rintro ⟨d, hd, hknown, hhigh⟩
    obtain ⟨dir, hdir⟩ := (known_iff d).mp hknown
    exact ⟨dir, d, hd, hhigh, hdir⟩
  · rintro ⟨dir, d, hd, hhigh, hdir⟩
    exact ⟨d, hd, (known_iff d).mpr ⟨dir, hdir⟩, hhigh⟩

/-- On the message, and on the directions it names. -/
theorem tellsLane_iff (ds : List LaneDirection) (code : UInt8) :
    TellsLane ds code ↔ Tells (LaneHas ds) (LaneHighlights ds) code := by
  have hnone : (∀ d ∈ ds, ¬d.Known) ↔ ∀ dir, ¬LaneHas ds dir := by
    rw [← not_exists, ← exists_known]
    simp only [not_exists, not_and]
  have hplain : (∀ d ∈ ds, d.Known → d.highlighted = false) ↔ ∀ dir, ¬LaneHighlights ds dir := by
    rw [← not_exists, ← exists_highlighted]
    simp only [not_exists, not_and, Bool.not_eq_true]
  constructor
  · rintro ⟨h₁, h₂, h₃, h₄, h₅⟩
    rw [hnone] at h₁
    rw [exists_highlighted] at h₂ h₅
    rw [exists_known, hplain] at h₃
    exact ⟨h₁, h₂, h₃, h₄, h₅⟩
  · rintro ⟨h₁, h₂, h₃, h₄, h₅⟩
    rw [← hnone] at h₁
    rw [← exists_highlighted] at h₂ h₅
    rw [← exists_known, ← hplain] at h₃
    exact ⟨h₁, h₂, h₃, h₄, h₅⟩

theorem shows_decLane {ds : List LaneDirection} {b : Octets} (h : EncodesLane ds b)
    {frame : List UInt8} {c : Pb frame} (hc : c.rest = b) : (decLane c {}).Shows ds := by
  rw [decLane_eff h {} hc]
  exact foldl_eff_shows ds

/-- A lane code never misleads: it tells the lane, whatever the order of its directions
and however often one is repeated. -/
def NeverMisleads (ds : List LaneDirection) {frame : List UInt8} (c : Pb frame) : Prop :=
  TellsLane ds (decLane c {}).code ∧
    ∀ (ds' : List LaneDirection) (b' : Octets) (frame' : List UInt8) (c' : Pb frame'),
      (∀ d, d ∈ ds' ↔ d ∈ ds) → EncodesLane ds' b' → c'.rest = b' →
        (decLane c' {}).code = (decLane c {}).code

/-- **The code of a decoded lane never misleads**, except where the lane has several
highlighted directions, no picture, and a first direction that is not highlighted. -/
theorem laneCode_neverMisleads_iff {ds : List LaneDirection} {b : Octets} (h : EncodesLane ds b)
    {frame : List UInt8} {c : Pb frame} (hc : c.rest = b) :
    NeverMisleads ds c ↔ ¬FallsBack (LaneHas ds) (LaneHighlights ds) := by
  have hshows := shows_decLane h hc
  -- the masks of the decoded lane have the directions of the message
  have hhas : Has (dirsOfMask (decLane c {}).presentMask) = LaneHas ds :=
    funext fun dir => propext (has_present hshows dir)
  have hhigh : Has (dirsOfMask (decLane c {}).highlightMask) = LaneHighlights ds :=
    funext fun dir => propext (has_highlight hshows dir)
  have hsub : ∀ dir, Has (dirsOfMask (decLane c {}).highlightMask) dir →
      Has (dirsOfMask (decLane c {}).presentMask) dir := by
    rw [hhas, hhigh]
    rintro dir ⟨d, hd, -, hdir⟩
    exact ⟨d, hd, hdir⟩
  have htells := codeForDirs_tells_iff (dirsOfMask_lt _) (dirsOfMask_lt _) hsub
  rw [hhas, hhigh, ← oemLaneCodeForAa_eq] at htells
  rw [← htells, ← tellsLane_iff]
  -- the order and the repetitions are gone once the lane is decoded
  refine ⟨fun hmis => hmis.1, fun hcode => ⟨hcode, fun ds' b' frame' c' hsame h' hc' => ?_⟩⟩
  rw [shows_unique hsame hshows (shows_decLane h' hc')]

/-! ## Every lane is encoded by something -/

def LaneDirection.fields (d : LaneDirection) : List Wire.Field :=
  (d.shape.map fun shape => ⟨1, .varint shape⟩).toList ++
    [⟨2, .varint (if d.highlighted then 1 else 0)⟩]

def LaneDirection.encode (d : LaneDirection) : Octets := d.fields.flatMap Wire.Field.encode

theorem LaneDirection.mem_fields {d : LaneDirection} {f : Wire.Field} (hf : f ∈ d.fields) :
    f.num ≤ 2 ∧ ∃ v, f.payload = .varint v := by
  rcases List.mem_append.mp hf with hf | hf
  · obtain ⟨shape, -, rfl⟩ := Option.map_eq_some_iff.mp (Option.mem_toList.mp hf)
    exact ⟨Nat.le_succ 1, shape, rfl⟩
  · rw [List.mem_singleton.mp hf]
    exact ⟨le_rfl, _, rfl⟩

theorem encodesDirection_encode (d : LaneDirection) : EncodesDirection d d.encode := by
  refine ⟨d.fields, Wire.concat_flatMap fun f hf => ?_, ?_⟩
  · obtain ⟨hnum, v, hv⟩ := LaneDirection.mem_fields hf
    refine Wire.encodesField_encode (Nat.lt_of_le_of_lt hnum (by decide)) ?_
    rw [hv]
    exact trivial
  · rcases d with ⟨_ | shape, _ | _⟩ <;> rfl

def encodeLane (ds : List LaneDirection) : Octets :=
  ds.flatMap fun d => Wire.Field.encode ⟨1, .bytes d.encode⟩

theorem encodesLane_encode {ds : List LaneDirection} (hlen : ∀ d ∈ ds, d.encode.length < 2 ^ 64) :
    EncodesLane ds (encodeLane ds) :=
  Wire.interleaved_of_concat (Wire.concat_flatMap fun d hd =>
    Wire.nested_encode (encodesDirection_encode d) (by decide) (hlen d hd))

/-- The view of all of a frame. -/
theorem ofFrame_zero_rest (frame : Octets) : (Pb.ofFrame frame 0 (Nat.zero_le _)).rest = frame :=
  (Pb.ofFrame_rest frame 0 _).trans List.drop_zero

/-- Straight on or right, and right highlighted. -/
theorem laneCode_neverMisleads_iff_straight_right :
    NeverMisleads [⟨some 1, false⟩, ⟨some 5, true⟩]
        (Pb.ofFrame (encodeLane [⟨some 1, false⟩, ⟨some 5, true⟩]) 0 (Nat.zero_le _)) ↔
      ¬FallsBack (LaneHas [⟨some 1, false⟩, ⟨some 5, true⟩])
        (LaneHighlights [⟨some 1, false⟩, ⟨some 5, true⟩]) :=
  laneCode_neverMisleads_iff (encodesLane_encode (by decide)) (ofFrame_zero_rest _)

/-- Straight on, right and sharp right, of which the last two are highlighted: the code is
the single arrow straight on. -/
theorem laneCode_misleads :
    ¬∀ (ds : List LaneDirection) (b : Octets) (frame : List UInt8) (c : Pb frame),
      EncodesLane ds b → c.rest = b → NeverMisleads ds c := by
  intro h
  let ds : List LaneDirection := [⟨some 1, false⟩, ⟨some 5, true⟩, ⟨some 7, true⟩]
  have henc : EncodesLane ds (encodeLane ds) := encodesLane_encode (by decide)
  have hrest := ofFrame_zero_rest (encodeLane ds)
  have htells := (h ds (encodeLane ds) _ _ henc hrest).1
  have hcode : (decLane (Pb.ofFrame (encodeLane ds) 0 (Nat.zero_le _)) {}).code =
      OEM_LANE_STRAIGHT := by
    rw [decLane_eff henc {} hrest]
    decide +kernel
  rw [hcode] at htells
  have hright : ∃ d ∈ ds, d.Known ∧ d.highlighted = true :=
    ⟨⟨some 5, true⟩, by simp [ds], ⟨5, rfl, by decide⟩, rfl⟩
  -- the code singles out straight on, which no highlighted direction is
  obtain ⟨d, hd, hhigh, shape, hshape, -, hdir⟩ := htells.singles hright .straight rfl
  simp only [ds, List.mem_cons, List.not_mem_nil, or_false] at hd
  rcases hd with rfl | rfl | rfl
  · exact absurd hhigh (by decide)
  · obtain rfl := Option.some_inj.mp hshape
    exact absurd hdir (by decide)
  · obtain rfl := Option.some_inj.mp hshape
    exact absurd hdir (by decide)

end OemAaMod
