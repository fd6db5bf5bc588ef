import Mathlib.Data.List.Basic

/-!
# OEM lane codes

`hud_lane.h`: an Android Auto lane (two bit masks over its shapes) becomes one
OEM lane code, and on the direct transport a code becomes a cluster glyph.

Codes are 0 for no lane, 1..22 for a recommended lane, 23..48 for a recommended
lane with one direction singled out, and 49..70 for the 1..22 shapes of a lane
that is not recommended.
-/

namespace OemAaMod

/-! ## Android Auto shapes -/

def AA_SHAPE_UNKNOWN : UInt8 := 0
def AA_SHAPE_STRAIGHT : UInt8 := 1
def AA_SHAPE_SLIGHT_LEFT : UInt8 := 2
def AA_SHAPE_SLIGHT_RIGHT : UInt8 := 3
def AA_SHAPE_NORMAL_LEFT : UInt8 := 4
def AA_SHAPE_NORMAL_RIGHT : UInt8 := 5
def AA_SHAPE_SHARP_LEFT : UInt8 := 6
def AA_SHAPE_SHARP_RIGHT : UInt8 := 7
def AA_SHAPE_U_TURN_LEFT : UInt8 := 8
def AA_SHAPE_U_TURN_RIGHT : UInt8 := 9

/-! ## OEM lane codes: the ones the mapping produces -/

def OEM_LANE_NONE : UInt8 := 0
def OEM_LANE_STRAIGHT : UInt8 := 1
def OEM_LANE_SLIGHT_RIGHT : UInt8 := 2
def OEM_LANE_RIGHT : UInt8 := 3
def OEM_LANE_SHARP_RIGHT : UInt8 := 4
def OEM_LANE_SLIGHT_LEFT : UInt8 := 5
def OEM_LANE_LEFT : UInt8 := 6
def OEM_LANE_SHARP_LEFT : UInt8 := 7
def OEM_LANE_COMBO_STRAIGHT_SLIGHT_R : UInt8 := 8
def OEM_LANE_COMBO_STRAIGHT_SLIGHT_L : UInt8 := 9
def OEM_LANE_COMBO_SLIGHT_L_S_SLIGHT_R : UInt8 := 10
def OEM_LANE_COMBO_STRAIGHT_RIGHT : UInt8 := 11
def OEM_LANE_COMBO_STRAIGHT_LEFT : UInt8 := 12
def OEM_LANE_COMBO_LEFT_STRAIGHT_RIGHT : UInt8 := 13
def OEM_LANE_COMBO_SLIGHT_R_SHARP_R : UInt8 := 14
def OEM_LANE_COMBO_SLIGHT_L_SHARP_L : UInt8 := 15
def OEM_LANE_COMBO_FORK : UInt8 := 16
def OEM_LANE_COMBO_LEFT_RIGHT_T : UInt8 := 19
def OEM_LANE_REC_C8_STRAIGHT : UInt8 := 23
def OEM_LANE_REC_C8_SLIGHT_R : UInt8 := 24
def OEM_LANE_REC_C9_STRAIGHT : UInt8 := 25
def OEM_LANE_REC_C9_SLIGHT_L : UInt8 := 26
def OEM_LANE_REC_C10_STRAIGHT : UInt8 := 27
def OEM_LANE_REC_C10_SLIGHT_L : UInt8 := 28
def OEM_LANE_REC_C10_SLIGHT_R : UInt8 := 29
def OEM_LANE_REC_C11_STRAIGHT : UInt8 := 30
def OEM_LANE_REC_C11_RIGHT : UInt8 := 31
def OEM_LANE_REC_C12_STRAIGHT : UInt8 := 32
def OEM_LANE_REC_C12_LEFT : UInt8 := 33
def OEM_LANE_REC_C13_STRAIGHT : UInt8 := 34
def OEM_LANE_REC_C13_LEFT : UInt8 := 35
def OEM_LANE_REC_C13_RIGHT : UInt8 := 36
def OEM_LANE_REC_C14_SLIGHT_R : UInt8 := 37
def OEM_LANE_REC_C14_SHARP_R : UInt8 := 38
def OEM_LANE_REC_C15_SLIGHT_L : UInt8 := 39
def OEM_LANE_REC_C15_SHARP_L : UInt8 := 40
def OEM_LANE_REC_C16_SLIGHT_L : UInt8 := 41
def OEM_LANE_REC_C16_SLIGHT_R : UInt8 := 42
def OEM_LANE_REC_C19_LEFT : UInt8 := 47
def OEM_LANE_REC_C19_RIGHT : UInt8 := 48

def OEM_LANE_NONREC_OFFSET : UInt8 := 48

/-! ## Direction bits -/

def OD_STRAIGHT : UInt32 := 1
def OD_SLIGHT_R : UInt32 := 2
def OD_RIGHT : UInt32 := 4
def OD_SHARP_R : UInt32 := 8
def OD_SLIGHT_L : UInt32 := 16
def OD_LEFT : UInt32 := 32
def OD_SHARP_L : UInt32 := 64

/-- `aa_shape_to_oem_dir`; a U-turn is drawn as a sharp turn. -/
def aaShapeToOemDir (shape : UInt8) : UInt32 :=
  if shape = AA_SHAPE_STRAIGHT then OD_STRAIGHT
  else if shape = AA_SHAPE_SLIGHT_RIGHT then OD_SLIGHT_R
  else if shape = AA_SHAPE_NORMAL_RIGHT then OD_RIGHT
  else if shape = AA_SHAPE_SHARP_RIGHT then OD_SHARP_R
  else if shape = AA_SHAPE_U_TURN_RIGHT then OD_SHARP_R
  else if shape = AA_SHAPE_SLIGHT_LEFT then OD_SLIGHT_L
  else if shape = AA_SHAPE_NORMAL_LEFT then OD_LEFT
  else if shape = AA_SHAPE_SHARP_LEFT then OD_SHARP_L
  else if shape = AA_SHAPE_U_TURN_LEFT then OD_SHARP_L
  else OD_STRAIGHT

/-- `oem_base_code_for_dirs`: single arrows, then the known combinations. -/
def oemBaseCodeForDirs (d : UInt32) : UInt8 :=
  if d = OD_STRAIGHT then OEM_LANE_STRAIGHT
  else if d = OD_SLIGHT_R then OEM_LANE_SLIGHT_RIGHT
  else if d = OD_RIGHT then OEM_LANE_RIGHT
  else if d = OD_SHARP_R then OEM_LANE_SHARP_RIGHT
  else if d = OD_SLIGHT_L then OEM_LANE_SLIGHT_LEFT
  else if d = OD_LEFT then OEM_LANE_LEFT
  else if d = OD_SHARP_L then OEM_LANE_SHARP_LEFT
  else if d = OD_STRAIGHT ||| OD_SLIGHT_R then OEM_LANE_COMBO_STRAIGHT_SLIGHT_R
  else if d = OD_STRAIGHT ||| OD_SLIGHT_L then OEM_LANE_COMBO_STRAIGHT_SLIGHT_L
  else if d = OD_SLIGHT_L ||| OD_STRAIGHT ||| OD_SLIGHT_R then OEM_LANE_COMBO_SLIGHT_L_S_SLIGHT_R
  else if d = OD_STRAIGHT ||| OD_RIGHT then OEM_LANE_COMBO_STRAIGHT_RIGHT
  else if d = OD_STRAIGHT ||| OD_LEFT then OEM_LANE_COMBO_STRAIGHT_LEFT
  else if d = OD_LEFT ||| OD_STRAIGHT ||| OD_RIGHT then OEM_LANE_COMBO_LEFT_STRAIGHT_RIGHT
  else if d = OD_SLIGHT_R ||| OD_SHARP_R then OEM_LANE_COMBO_SLIGHT_R_SHARP_R
  else if d = OD_SLIGHT_L ||| OD_SHARP_L then OEM_LANE_COMBO_SLIGHT_L_SHARP_L
  else if d = OD_SLIGHT_L ||| OD_SLIGHT_R then OEM_LANE_COMBO_FORK
  else if d = OD_LEFT ||| OD_RIGHT then OEM_LANE_COMBO_LEFT_RIGHT_T
  else OEM_LANE_NONE

/-- The "take this direction" codes of `oem_detail_code`, per combination. -/
def detailCodes (base : UInt8) : List (UInt32 × UInt8) :=
  if base = OEM_LANE_COMBO_STRAIGHT_SLIGHT_R then
    [(OD_STRAIGHT, OEM_LANE_REC_C8_STRAIGHT), (OD_SLIGHT_R, OEM_LANE_REC_C8_SLIGHT_R)]
  else if base = OEM_LANE_COMBO_STRAIGHT_SLIGHT_L then
    [(OD_STRAIGHT, OEM_LANE_REC_C9_STRAIGHT), (OD_SLIGHT_L, OEM_LANE_REC_C9_SLIGHT_L)]
  else if base = OEM_LANE_COMBO_SLIGHT_L_S_SLIGHT_R then
    [(OD_STRAIGHT, OEM_LANE_REC_C10_STRAIGHT), (OD_SLIGHT_L, OEM_LANE_REC_C10_SLIGHT_L),
      (OD_SLIGHT_R, OEM_LANE_REC_C10_SLIGHT_R)]
  else if base = OEM_LANE_COMBO_STRAIGHT_RIGHT then
    [(OD_STRAIGHT, OEM_LANE_REC_C11_STRAIGHT), (OD_RIGHT, OEM_LANE_REC_C11_RIGHT)]
  else if base = OEM_LANE_COMBO_STRAIGHT_LEFT then
    [(OD_STRAIGHT, OEM_LANE_REC_C12_STRAIGHT), (OD_LEFT, OEM_LANE_REC_C12_LEFT)]
  else if base = OEM_LANE_COMBO_LEFT_STRAIGHT_RIGHT then
    [(OD_STRAIGHT, OEM_LANE_REC_C13_STRAIGHT), (OD_LEFT, OEM_LANE_REC_C13_LEFT),
      (OD_RIGHT, OEM_LANE_REC_C13_RIGHT)]
  else if base = OEM_LANE_COMBO_SLIGHT_R_SHARP_R then
    [(OD_SLIGHT_R, OEM_LANE_REC_C14_SLIGHT_R), (OD_SHARP_R, OEM_LANE_REC_C14_SHARP_R)]
  else if base = OEM_LANE_COMBO_SLIGHT_L_SHARP_L then
    [(OD_SLIGHT_L, OEM_LANE_REC_C15_SLIGHT_L), (OD_SHARP_L, OEM_LANE_REC_C15_SHARP_L)]
  else if base = OEM_LANE_COMBO_FORK then
    [(OD_SLIGHT_L, OEM_LANE_REC_C16_SLIGHT_L), (OD_SLIGHT_R, OEM_LANE_REC_C16_SLIGHT_R)]
  else if base = OEM_LANE_COMBO_LEFT_RIGHT_T then
    [(OD_LEFT, OEM_LANE_REC_C19_LEFT), (OD_RIGHT, OEM_LANE_REC_C19_RIGHT)]
  else []

/-- `oem_detail_code`. -/
def oemDetailCode (base : UInt8) (hl : UInt32) : UInt8 :=
  ((detailCodes base).lookup hl).getD OEM_LANE_NONE

/-- The direction bits of the shapes 0..9 in a mask. -/
def dirsOfMask (mask : UInt16) : UInt32 :=
  (List.range 10).foldl
    (fun dirs s =>
      if mask &&& ((1 : UInt16) <<< UInt16.ofNat s) ≠ 0 then
        dirs ||| aaShapeToOemDir (UInt8.ofNat s)
      else dirs) 0

/-- `oem_lane_code_for_aa`. -/
def oemLaneCodeForAa (presentShapes highlightShapes : UInt16) : UInt8 :=
  let present := dirsOfMask presentShapes
  let hl := dirsOfMask highlightShapes
  if present = 0 then OEM_LANE_NONE
  else
    let recommended := hl ≠ 0
    let base := oemBaseCodeForDirs present
    let oneHl := hl ≠ 0 ∧ hl &&& (hl - 1) = 0
    let detail := oemDetailCode base hl
    if recommended ∧ oneHl ∧ detail ≠ OEM_LANE_NONE then detail
    else
      let base :=
        if base = OEM_LANE_NONE then
          -- no combined code: the highlighted direction, else the first present one
          let pick := if oneHl then hl else present &&& (0 - present)
          let single := oemBaseCodeForDirs pick
          if single = OEM_LANE_NONE then OEM_LANE_STRAIGHT else single
        else base
      if recommended then base else base + OEM_LANE_NONREC_OFFSET

/-! ## Codes to glyphs -/

inductive OemLaneTable
  | a
  | b
deriving DecidableEq, Repr

/-- The basic cluster's glyphs, code 0 to 70. -/
def laneGlyphsA : List UInt8 :=
  [0, 1, 2, 2, 3, 4, 4, 5, 1, 1, 1, 1,
   1, 1, 1, 1, 1, 1, 1, 1, 19, 20, 21, 6,
   7, 8, 9, 10, 11, 12, 6, 7, 8, 9, 10, 15,
   13, 13, 14, 15, 16, 17, 18, 6, 7, 8, 9, 9,
   7, 22, 23, 23, 24, 25, 25, 26, 27, 28, 29, 27,
   28, 29, 30, 31, 32, 30, 31, 32, 33, 34, 35]

/-- The extended cluster's glyphs, code 0 to 70. -/
def laneGlyphsB : List UInt8 :=
  [0, 1, 2, 46, 3, 4, 47, 5, 40, 43, 36, 41,
   44, 37, 42, 45, 38, 41, 44, 39, 19, 20, 21, 6,
   7, 8, 9, 10, 11, 12, 48, 49, 51, 52, 54, 56,
   55, 13, 14, 15, 16, 17, 18, 48, 49, 51, 52, 53,
   50, 22, 23, 57, 24, 25, 58, 26, 27, 28, 29, 59,
   60, 61, 30, 31, 32, 59, 60, 62, 33, 34, 35]

/-- `oem_lane_glyph`; a code past the table is the empty glyph. -/
def oemLaneGlyph (code : UInt8) (table : OemLaneTable) : UInt8 :=
  match table with
  | .a => laneGlyphsA.getD code.toNat 0
  | .b => laneGlyphsB.getD code.toNat 0

end OemAaMod
