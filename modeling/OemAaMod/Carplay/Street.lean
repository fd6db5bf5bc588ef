import OemAaMod.Carplay.Sender
import OemAaMod.Common.FoldLaws
import OemAaMod.Lib.Utf8Cut

/-!
# The street of the CarPlay strip

From the road name `hud_on_next_turn` is called with to the strip of `send_one`: cut at
255 bytes, back to the start of a character, copied twice, folded, and never empty.

* `roadLength_enc` — the cut takes the longest prefix that fits;
* `nextTurn_str` — that is what the snapshot holds;
* `streetStrip_enc` — and its fold is what the strip shows;
* `sendOne_drawable` — every strip sent for that snapshot;
* `strips_of_run` — every strip sent in a run of the threads.
-/

namespace OemAaMod.Carplay

open CStr (Bytes CharBuf cstr)
open Utf8 (IsCont Boundary LongestPrefix enc width)

/-! ## The cut -/

/-- The loop stops at the last byte up to `n` that is no continuation byte. -/
theorem charStart_spec (road : Bytes) (n : Nat) :
    charStart road n ≤ n ∧
      (charStart road n = 0 ∨ ¬IsCont (road.getD (charStart road n) 0)) ∧
      ∀ k, charStart road n < k → k ≤ n → IsCont (road.getD k 0) := by
  induction n with
  | zero => exact ⟨le_rfl, .inl rfl, fun k hlt hle => absurd (Nat.lt_of_lt_of_le hlt hle) (by simp)⟩
  | succ n ih =>
    rw [charStart]
    split
    · -- a continuation byte: one back, which is the induction
      rename_i hcont
      obtain ⟨hle, hstop, hbehind⟩ := ih
      refine ⟨Nat.le_succ_of_le hle, hstop, fun k hlt hk => ?_⟩
      rcases Nat.lt_or_ge n k with hnk | hkn
      · rw [show k = n + 1 by omega]
        exact hcont
      · exact hbehind k hlt hkn
    · -- a byte that begins a character: the cut is here
      rename_i hstart
      exact ⟨le_rfl, .inr hstart, fun k hlt hle => absurd (Nat.lt_of_lt_of_le hlt hle) (by simp)⟩

/-- The memory at `road_name`: the name, its terminator, and whatever follows. -/
def nameAt (cs : List Char) (tail : Bytes) : Bytes := enc cs ++ 0 :: tail

theorem enc_ne_zero {cs : List Char} (hcs : '\x00' ∉ cs) : ∀ x ∈ enc cs, x ≠ 0 := by
  intro x hx
  obtain ⟨c, hc, hxc⟩ := List.mem_flatMap.mp hx
  exact Utf8.ne_zero_of_mem_encodeChar (fun hzero => hcs (hzero ▸ hc)) x hxc

theorem cstr_nameAt {cs : List Char} (hcs : '\x00' ∉ cs) (tail : Bytes) :
    cstr (nameAt cs tail) = enc cs :=
  CStr.cstr_append_zero (enc_ne_zero hcs) tail

/-- **The cut** is the longest prefix of at most 255 bytes. -/
theorem roadLength_enc {cs : List Char} (hcs : '\x00' ∉ cs) (tail : Bytes) :
    ∃ pre, LongestPrefix cs 255 pre ∧ roadLength (nameAt cs tail) = width pre := by
  unfold roadLength
  rw [cstr_nameAt hcs, Utf8.length_enc]
  dsimp only
  by_cases hlong : width cs > 255
  · rw [if_pos hlong]
    obtain ⟨hle, hstop, hbehind⟩ := charStart_spec (nameAt cs tail) 255
    -- up to the cut the memory holds the name
    have hbyte : ∀ k ≤ 255, (nameAt cs tail).getD k 0 = (enc cs).getD k 0 := by
      intro k hk
      have hlt : k < (enc cs).length := by
        rw [Utf8.length_enc]
        omega
      rw [nameAt, List.getD_eq_getElem?_getD, List.getD_eq_getElem?_getD,
        List.getElem?_append_left hlt]
    have hboundary : Boundary cs (charStart (nameAt cs tail) 255) := by
      -- at 0, or at a byte that is no continuation byte
      rcases hstop with hzero | hstart
      · rw [hzero]
        exact Utf8.boundary_zero cs
      · rw [hbyte _ hle, Utf8.isCont_enc_iff cs (by omega), not_not] at hstart
        exact hstart
    obtain ⟨pre, hpre, hwidth⟩ := Utf8.longestPrefix_of_boundary hboundary hle fun k hlt hk => by
      have hcont := hbehind k hlt hk
      rwa [hbyte k hk, Utf8.isCont_enc_iff cs (by omega)] at hcont
    exact ⟨pre, hpre, hwidth.symm⟩
  · -- short enough: nothing is cut
    rw [if_neg hlong]
    exact ⟨cs, Utf8.longestPrefix_self (by omega), rfl⟩

theorem take_width_enc {pre cs : List Char} (h : pre <+: cs) (rest : Bytes) :
    (enc cs ++ rest).take (width pre) = enc pre := by
  obtain ⟨t, rfl⟩ := h
  rw [show enc (pre ++ t) = enc pre ++ enc t from List.flatMap_append .., List.append_assoc,
    ← Utf8.length_enc, List.take_left]

/-! ## The copies -/

/-- The snapshot holds the prefix, whatever it held before. -/
theorem nextTurn_str (s : NaviSnapshot) {cs : List Char} (hcs : '\x00' ∉ cs) (tail : Bytes)
    (side event : UInt32) (angle number : Int32) :
    ∃ pre, LongestPrefix cs 255 pre ∧
      (s.nextTurn (some (nameAt cs tail)) side event angle number).roadName.str = enc pre := by
  obtain ⟨pre, hpre, hlen⟩ := roadLength_enc hcs tail
  refine ⟨pre, hpre, ?_⟩
  -- the copy ends with the terminator that the blit writes, not one of the name
  have hzero : '\x00' ∉ pre := fun h => hcs (hpre.isPrefix.mem h)
  have hcopy : (nameAt cs tail).take (roadLength (nameAt cs tail)) = enc pre := by
    rw [hlen]
    exact take_width_enc hpre.isPrefix _
  have hfits : (enc pre).take (256 - 1) = enc pre := by
    rw [List.take_of_length_le]
    rw [Utf8.length_enc]
    exact hpre.fits
  show (s.roadName.blit ((nameAt cs tail).take (roadLength (nameAt cs tail)))).str = enc pre
  rw [hcopy]
  obtain ⟨rest, hrest⟩ := CharBuf.blit_prefix (by decide) s.roadName (enc pre)
  rw [hfits, List.append_assoc] at hrest
  rw [CharBuf.str, ← hrest]
  exact CStr.cstr_append_zero (enc_ne_zero hzero) rest

/-- The fold of a copy of the name. -/
theorem foldBuf_copy {buf : CharBuf 256} {pre : List Char} (hstr : buf.str = enc pre)
    (hfits : width pre ≤ 255) :
    (HudTranslit.foldBuf 0x3F (.ofStrncpy 256 buf.bytes) : CharBuf 256).str =
      HudTranslit.folded 0x3F (enc pre) := by
  have hcut : (cstr buf.bytes).take (256 - 1) = enc pre := by
    have hcstr : cstr buf.bytes = enc pre := hstr
    rw [hcstr, List.take_of_length_le]
    rw [Utf8.length_enc]
    exact hfits
  have hcopy : (CharBuf.ofStrncpy 256 buf.bytes).str = enc pre := by
    rw [CharBuf.ofStrncpy_str (by decide), hcut]
  obtain ⟨k, hk⟩ := CharBuf.ofStrncpy_bytes (show 0 < 256 by decide) buf.bytes
  rw [hcut, ← hcopy] at hk
  rw [HudTranslit.foldBuf_str 0x3F hk, hcopy, HudTranslit.folded_eq]

/-! ## What can be drawn -/

/-- UTF-8, not empty, and no code point from U+0800 on. -/
def Drawable (strip : Bytes) : Prop :=
  ∃ cs, strip = enc cs ∧ cs ≠ [] ∧ ∀ c ∈ cs, c.toNat < 0x800

/-- Nothing from U+0800 on is left by the fold. -/
theorem foldChar_lt (c : Char) : (HudTranslit.foldChar 0x3F c).toNat < 0x800 := by
  unfold HudTranslit.foldChar
  by_cases hbase : HudTranslit.foldBase c.val ≠ 0
  · rw [if_pos hbase]
    -- a letter of the block: its base letter has two bytes at most
    have hlt : (HudTranslit.foldBase c.val).toNat < 0x800 :=
      (HudTranslit.kBase_spec _ (HudTranslit.foldBase_mem hbase)).2
    rwa [HudTranslit.toNat_ofNat_of_lt hlt]
  · rw [if_neg hbase]
    -- any other three- or four-byte letter is a question mark
    by_cases hlong : 0x800 ≤ c.toNat
    · rw [if_pos ⟨by decide, hlong⟩]
      decide
    · rw [if_neg fun h => hlong h.2]
      omega

theorem drawable_space : Drawable [0x20] := by
  refine ⟨[' '], rfl, by decide, fun c hc => ?_⟩
  rw [List.mem_singleton.mp hc]
  decide

theorem drawable_fold {cs : List Char} (hcs : cs ≠ []) :
    Drawable (HudTranslit.folded 0x3F (enc cs)) := by
  rw [HudTranslit.folded_eq]
  refine ⟨cs.map (HudTranslit.foldChar 0x3F), HudTranslit.foldSpec_enc (by decide) cs, ?_, ?_⟩
  · exact fun h => hcs (List.map_eq_nil_iff.mp h)
  · intro c hc
    obtain ⟨c', -, rfl⟩ := List.mem_map.mp hc
    exact foldChar_lt c'

theorem Drawable.ne_nil {strip : Bytes} (h : Drawable strip) : strip ≠ [] := by
  obtain ⟨cs, rfl, hne, -⟩ := h
  obtain ⟨c, cs, rfl⟩ := List.exists_cons_of_ne_nil hne
  rw [Utf8.enc_cons]
  simp

/-- The strip for a name: its longest prefix folded, or a space. -/
def stripOf (pre : List Char) : Bytes :=
  if pre = [] then [0x20] else HudTranslit.folded 0x3F (enc pre)

theorem drawable_stripOf (pre : List Char) : Drawable (stripOf pre) := by
  unfold stripOf
  split
  · exact drawable_space
  · rename_i hne
    exact drawable_fold hne

/-- **The strip of a snapshot** that holds a prefix. -/
theorem streetStrip_enc {cfg : Config} (hvn : cfg.vnNormalize = true) {s : NaviSnapshot}
    {pre : List Char} (hstr : s.roadName.str = enc pre) (hfits : width pre ≤ 255) :
    s.streetStrip cfg = stripOf pre := by
  unfold NaviSnapshot.streetStrip stripOf
  rw [if_pos hvn, foldBuf_copy hstr hfits]
  by_cases hnil : pre = []
  · -- an empty name folds to an empty string, which is sent as a space
    rw [if_pos hnil, if_pos]
    rw [hnil, Utf8.enc_nil, HudTranslit.folded_eq, HudTranslit.foldSpec_nil]
  · rw [if_neg hnil, if_neg (drawable_fold hnil).ne_nil]

/-- The distance updates since the last turn. -/
def NaviSnapshot.distances (s : NaviSnapshot) (updates : List (Int32 × Int32 × UInt32)) :
    NaviSnapshot :=
  updates.foldl (fun s u => s.distance u.1 u.2.1 u.2.2) s

/-- They leave the road name alone. -/
theorem distances_roadName (updates : List (Int32 × Int32 × UInt32)) :
    ∀ s : NaviSnapshot, (s.distances updates).roadName = s.roadName := by
  induction updates with
  | nil => exact fun s => rfl
  | cons u updates ih => exact fun s => ih (s.distance u.1 u.2.1 u.2.2)

/-- **The strip is always drawable**, and shows the fold of the longest prefix of the name
that fits, whatever the snapshot held before the turn and whatever was sent before. -/
theorem sendOne_drawable {cfg : Config} (hvn : cfg.vnNormalize = true)
    (hdebug : cfg.hudDebug = false) {cs : List Char} (hcs : '\x00' ∉ cs) (tail : Bytes)
    (s : NaviSnapshot) (side event : UInt32) (angle number : Int32)
    (updates : List (Int32 × Int32 × UInt32)) (prev : NaviSnapshot) (syncBit : UInt8)
    (splim : UInt16) (splimChanged force : Bool) (disp : VbsNaviHudDisplay) (msg2 : VbsNaviHudMsg2)
    (hsend : (sendOne cfg
      ((s.nextTurn (some (nameAt cs tail)) side event angle number).distances updates) prev
      syncBit splim splimChanged force).1 = some (disp, msg2)) :
    ∃ pre strip, LongestPrefix cs 255 pre ∧ msg2.guidancePointName = some strip ∧
      strip = (if pre = [] then [0x20] else HudTranslit.folded 0x3F (enc pre)) ∧
      strip ≠ [] ∧ Drawable strip := by
  obtain ⟨pre, hpre, hstr⟩ := nextTurn_str s hcs tail side event angle number
  have hstrip := (sendOne_some hdebug hsend).2
  -- distance updates come between the turn and the send
  rw [← distances_roadName updates] at hstr
  refine ⟨pre, stripOf pre, hpre, ?_, rfl, (drawable_stripOf pre).ne_nil, drawable_stripOf pre⟩
  rw [hstrip]
  exact congrArg some (streetStrip_enc hvn hstr hpre.fits)

/-- One letter with a dot below, on a HUD that showed nothing. -/
theorem sendOne_drawable_dot_below :
    ∃ pre strip, LongestPrefix ['\u1EA1'] 255 pre ∧
      (⟨some [0x61], 1⟩ : VbsNaviHudMsg2).guidancePointName = some strip ∧
      strip = (if pre = [] then [0x20] else HudTranslit.folded 0x3F (enc pre)) ∧
      strip ≠ [] ∧ Drawable strip :=
  sendOne_drawable (show (⟨false, true, false⟩ : Config).vnNormalize = true from rfl) rfl
    (by decide) [] {} 0 0 0 0 [] {} 0 0 false false ⟨0, 0, 1, 0, 0, 1⟩ ⟨some [0x61], 1⟩
    (by decide +kernel)

/-! ## The strips of a run -/

section Run

variable (names : Set (List Char))

/-- Nothing, or the part that fits of a name that was passed. -/
def PrefixOf (pre : List Char) : Prop := pre = [] ∨ ∃ cs ∈ names, LongestPrefix cs 255 pre

def HoldsPrefix (snap : NaviSnapshot) : Prop :=
  ∃ pre, snap.roadName.str = enc pre ∧ PrefixOf names pre

/-- The strip is that of a name that was passed. -/
def ShowsPrefix (msg2 : VbsNaviHudMsg2) : Prop :=
  ∃ pre, msg2.guidancePointName = some (stripOf pre) ∧ PrefixOf names pre

/-- A snapshot of the receive thread is of a name, wherever the sender keeps it. -/
structure StreetInv (s : HudState) : Prop where
  snapshot : HoldsPrefix names s.snapshot
  snap     : HoldsPrefix names s.vars.snap
  prev     : HoldsPrefix names s.vars.prev
  curSnap  : HoldsPrefix names s.vars.curSnap
  msg2     : ShowsPrefix names s.vars.msg2

/-- The road names a call of `hud_on_next_turn` may pass. -/
def PassesNames (_ : HudState) : HudAction → Prop
  | .nextTurn (some road) _ _ _ _ => ∃ cs ∈ names, ∃ tail, '\x00' ∉ cs ∧ road = nameAt cs tail
  | _ => True

variable {names} {cfg : Config} {s : HudState}

theorem holdsPrefix_zero : HoldsPrefix names {} := ⟨[], CharBuf.zero_str, .inl rfl⟩

theorem showsPrefix_clear (syncBit : UInt8) : ShowsPrefix names (clearStrip syncBit) :=
  ⟨[], rfl, .inl rfl⟩

theorem PrefixOf.fits {pre : List Char} (h : PrefixOf names pre) : width pre ≤ 255 := by
  rcases h with rfl | ⟨cs, -, hpre⟩
  · exact Nat.zero_le 255
  · exact hpre.fits

theorem endSend_street (h : StreetInv names s) (ok : Bool) (job : Job) :
    StreetInv names (s.endSend ok job) := by
  cases job with
  -- a painted snapshot is the previous one from now on
  | paint => exact ⟨h.snapshot, h.snap, h.curSnap, h.curSnap, h.msg2⟩
  | startup | keepAlive | clear | keepSign => exact ⟨h.snapshot, h.snap, h.prev, h.curSnap, h.msg2⟩

theorem sendClear_street (h : StreetInv names s) (job : Job) :
    StreetInv names (s.sendClear job) := by
  unfold HudState.sendClear
  split
  · exact endSend_street h true job
  · exact ⟨h.snapshot, h.snap, h.prev, h.curSnap, h.msg2⟩

theorem sendOne_street (hvn : cfg.vnNormalize = true) (hdebug : cfg.hudDebug = false)
    (h : StreetInv names s) (job : Job) {cur : NaviSnapshot} (hcur : HoldsPrefix names cur)
    (prev : NaviSnapshot) (splim : UInt16) (splimChanged force : Bool) :
    StreetInv names (s.sendOne cfg job cur prev splim splimChanged force) := by
  unfold HudState.sendOne
  split
  · exact endSend_street h true job
  split
  · exact endSend_street h true job
  · rename_i disp msg2 syncBit hsend
    obtain ⟨pre, hstr, hpre⟩ := hcur
    have hshows := (sendOne_some hdebug (congrArg Prod.fst hsend)).2
    have hstrip := streetStrip_enc hvn hstr hpre.fits
    exact ⟨h.snapshot, h.snap, h.prev, h.curSnap,
      pre, hshows.trans (congrArg some hstrip), hpre⟩

theorem paint_street (hvn : cfg.vnNormalize = true) (hdebug : cfg.hudDebug = false)
    (h : StreetInv names s) : StreetInv names (s.paint cfg) := by
  unfold HudState.paint
  dsimp only
  have hcur : HoldsPrefix names
      (if cfg.speedLimit ∧ s.haveGuidance = false then {} else s.vars.snap) := by
    split
    · exact holdsPrefix_zero
    · exact h.snap
  generalize (if cfg.speedLimit ∧ s.haveGuidance = false then {} else s.vars.snap) = curSnap at hcur ⊢
  split
  · exact sendOne_street hvn hdebug (s := { s with vars := { s.vars with curSnap := curSnap } })
      ⟨h.snapshot, h.snap, h.prev, hcur, h.msg2⟩ _ hcur _ _ _ _
  split
  · exact sendOne_street hvn hdebug h _ h.prev _ _ _ _
  · exact ⟨h.snapshot, h.snap, h.prev, h.curSnap, h.msg2⟩

theorem handle_street (hvn : cfg.vnNormalize = true) (hdebug : cfg.hudDebug = false)
    (h : StreetInv names s) (navReq : Bool) : StreetInv names (s.handle cfg navReq) := by
  unfold HudState.handle
  split
  · exact sendClear_street h _
  split
  · split
    · exact sendOne_street hvn hdebug h _ holdsPrefix_zero _ _ _ _
    · exact sendClear_street h _
  · exact ⟨h.snapshot, h.snap, h.prev, h.curSnap, h.msg2⟩

/-- **One step** keeps it: a name comes in by `hud_on_next_turn` only. -/
theorem hudStep_street (hvn : cfg.vnNormalize = true) (hdebug : cfg.hudDebug = false)
    {a : HudAction} {s' : HudState} (h : StreetInv names s) (hguard : PassesNames names s a)
    (hstep : hudStep cfg s a = some s') : StreetInv names s' := by
  cases hudSteps_of_hudStep hstep with
  | @nextTurn road side event angle number hrx =>
    have hsnapshot : HoldsPrefix names (s.snapshot.nextTurn road side event angle number) := by
      cases road with
      | none => exact ⟨[], CharBuf.clearFirst_str _, .inl rfl⟩
      | some road =>
        obtain ⟨cs, hcs, tail, hzero, rfl⟩ := hguard
        obtain ⟨pre, hpre, hstr⟩ := nextTurn_str s.snapshot hzero tail side event angle number
        exact ⟨pre, hstr, .inr ⟨cs, hcs, hpre⟩⟩
    exact ⟨hsnapshot, h.snap, h.prev, h.curSnap, h.msg2⟩
  | distance => exact ⟨h.snapshot, h.snap, h.prev, h.curSnap, h.msg2⟩
  | zero => exact ⟨holdsPrefix_zero, h.snap, h.prev, h.curSnap, h.msg2⟩
  | read => exact ⟨h.snapshot, h.snapshot, h.prev, h.curSnap, h.msg2⟩
  | @msg1Sent job hpc =>
    -- a clear has its own strip, a painted one was built with its maneuver frame
    cases job with
    | startup | clear => exact ⟨h.snapshot, h.snap, h.prev, h.curSnap, showsPrefix_clear _⟩
    | paint | keepAlive | keepSign => exact ⟨h.snapshot, h.snap, h.prev, h.curSnap, h.msg2⟩
  | msg1Failed => exact endSend_street h _ _
  | msg2 => exact endSend_street h _ _
  | sender hadvances =>
    cases hadvances with
    | startup => exact sendClear_street h _
    | paint => exact paint_street hvn hdebug h
    | takeNav =>
      exact handle_street hvn hdebug (s := { s with clearReq := false })
        ⟨h.snapshot, h.snap, h.prev, h.curSnap, h.msg2⟩ _
    | resetPrev => exact ⟨h.snapshot, h.snap, holdsPrefix_zero, h.curSnap, h.msg2⟩
    | live | takeFull | storeHave | reload | navReset | rest | wake =>
      exact ⟨h.snapshot, h.snap, h.prev, h.curSnap, h.msg2⟩
  | routeEnd | routeStart | publish | requestClear | requestFullclear | tick | hudStatus =>
    exact ⟨h.snapshot, h.snap, h.prev, h.curSnap, h.msg2⟩

/-- **Every strip of a run** is drawable, and that of a name that was passed. -/
theorem strips_of_run (hvn : cfg.vnNormalize = true) (hdebug : cfg.hudDebug = false)
    (hrun : Run.Reach (hudStep cfg) (PassesNames names) {} s) {a : HudAction}
    {msg2 : VbsNaviHudMsg2} (hout : s.output a = some (.strip msg2)) :
    ShowsPrefix names msg2 ∧ ∃ strip, msg2.guidancePointName = some strip ∧ Drawable strip := by
  have hinit : StreetInv names ({} : HudState) :=
    ⟨holdsPrefix_zero, holdsPrefix_zero, holdsPrefix_zero, holdsPrefix_zero, showsPrefix_clear 0⟩
  have hinv := hrun.invariant hinit fun s a s' h hguard hstep =>
    hudStep_street hvn hdebug h hguard hstep
  -- what a step puts out is the strip the sender holds
  have hmsg2 : msg2 = s.vars.msg2 := by
    unfold HudState.output at hout
    split at hout
    · split at hout
      · exact absurd hout (by simp)
      · exact (HudMsg.strip.inj (Option.some_inj.mp hout)).symm
      · exact absurd hout (by simp)
    · exact absurd hout (by simp)
  obtain ⟨pre, hstrip, hpre⟩ := hinv.msg2
  rw [hmsg2]
  exact ⟨⟨pre, hstrip, hpre⟩, stripOf pre, hstrip, drawable_stripOf pre⟩

end Run

end OemAaMod.Carplay
