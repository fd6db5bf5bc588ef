import Mathlib.Order.Defs.LinearOrder
import OemAaMod.Lib.CStr
import OemAaMod.Lib.Run
import OemAaMod.Lib.SlotTable

/-!
# The start threshold of Android Auto playback

`audio.cpp` of aap_service stands before four functions of ALSA and lowers the start
threshold of the playback handles Android Auto has open. It keeps them in a table of
eight slots, under a mutex.

* `trackPcm`, `trackedName`, `untrackPcm` — the table;
* `audioStep` — the calls, cut at their table accesses: another thread may come in between
  the real open and `track_pcm`, and between `untrack_pcm` and the real close;
* `startThreshold` — what the real setter is given;
* `Mirrors` — the table holds the handles it is to hold.
-/

namespace OemAaMod.Audio

open CStr (Bytes cstr)

/-! ## The table -/

/-- `canonical_aa_name` -/
def canonicalAaName (name : Option Bytes) : Option Bytes :=
  match name with
  | none => none
  | some name =>
    if cstr name = "androidautoMainAudio".toUTF8.toList then
      some "androidautoMainAudio".toUTF8.toList
    else if cstr name = "androidautoMainAudioVR".toUTF8.toList then
      some "androidautoMainAudioVR".toUTF8.toList
    else if cstr name = "androidautoAltAudio".toUTF8.toList then
      some "androidautoAltAudio".toUTF8.toList
    else none

/-- A slot of `g_tracked`. -/
structure TrackedPcm (Pcm : Type*) where
  pcm  : Option Pcm := none
  name : Option Bytes := none
deriving DecidableEq

variable {Pcm : Type*} [DecidableEq Pcm]

def trackPcm (pcm : Pcm) (name : Bytes) (tracked : List (TrackedPcm Pcm)) : List (TrackedPcm Pcm) :=
  SlotTable.insert TrackedPcm.pcm ⟨some pcm, some name⟩ tracked

def trackedName (pcm : Option Pcm) (tracked : List (TrackedPcm Pcm)) : Option Bytes :=
  (tracked.find? fun t => t.pcm = pcm).bind TrackedPcm.name

def untrackPcm (pcm : Option Pcm) (tracked : List (TrackedPcm Pcm)) : List (TrackedPcm Pcm) :=
  SlotTable.remove TrackedPcm.pcm {} pcm tracked

/-! ## The calls -/

inductive Stream
  | playback
  | capture
deriving DecidableEq

/-- `g_enabled`, and which of the real functions were found. -/
structure Module where
  enabled               : Bool
  realOpen              : Bool
  realClose             : Bool
  realSetStartThreshold : Bool
  realGetParams         : Bool

/-- A handle that the real open returned, and what it was opened as. -/
structure OpenedAs (Pcm : Type*) where
  pcm    : Pcm
  name   : Option Bytes
  stream : Stream
deriving DecidableEq

/-- A handle that its caller holds, and whether there was a free slot when it was opened. -/
structure OpenPcm (Pcm : Type*) extends OpenedAs Pcm where
  free : Bool
deriving DecidableEq

/-- `g_tracked`, and where ALSA's handles are. -/
structure AudioState (Pcm : Type*) where
  tracked : List (TrackedPcm Pcm) := List.replicate 8 {}
  /-- Past the real open, before `track_pcm`. -/
  opening : List (OpenedAs Pcm) := []
  opened  : List (OpenPcm Pcm) := []
  /-- Past `untrack_pcm`, before the real close. -/
  closing : List Pcm := []

inductive AudioAction (Pcm : Type*)
  /-- `snd_pcm_open` up to the return of the real one: `*pcm` then, if `pcm` is given. -/
  | pcmOpen (out : Option (Option Pcm)) (name : Option Bytes) (stream : Stream) (rc : Int)
  /-- The rest of it. -/
  | pcmOpened (o : OpenedAs Pcm)
  /-- `snd_pcm_close` up to the real one. -/
  | pcmClose (pcm : Option Pcm)
  | pcmClosed (pcm : Pcm)
  /-- `snd_pcm_sw_params_set_start_threshold`, with the answer of `snd_pcm_get_params`. -/
  | setStartThreshold (pcm : Option Pcm) (threshold : UInt32) (params : Int × UInt32)

/-- `snd_pcm_open`, behind the real one. -/
def AudioState.finishOpen (m : Module) (s : AudioState Pcm) (o : OpenedAs Pcm) : AudioState Pcm :=
  { s with
    tracked := match canonicalAaName o.name with
      | some aaName =>
        if m.enabled ∧ o.stream = .playback then trackPcm o.pcm aaName s.tracked else s.tracked
      | none => s.tracked
    opening := s.opening.erase o
    opened := ⟨o, SlotTable.HasFree TrackedPcm.pcm s.tracked⟩ :: s.opened }

/-- `snd_pcm_close`, before the real one. -/
def AudioState.beginClose (m : Module) (s : AudioState Pcm) (pcm : Option Pcm) : AudioState Pcm :=
  { s with
    tracked := if m.enabled then untrackPcm pcm s.tracked else s.tracked
    opened := s.opened.filter fun o => some o.pcm ≠ pcm
    closing := (s.opened.filter fun o => some o.pcm = pcm).map (·.pcm) ++ s.closing }

def audioStep (m : Module) (s : AudioState Pcm) : AudioAction Pcm → Option (AudioState Pcm)
  | .pcmOpen out name stream rc =>
    match out with
    | some (some pcm) =>
      if m.realOpen ∧ rc = 0 then some { s with opening := ⟨pcm, name, stream⟩ :: s.opening }
      else some s
    | _ => some s
  | .pcmOpened o => if o ∈ s.opening then some (s.finishOpen m o) else none
  | .pcmClose pcm =>
    some (if m.realClose then s.beginClose m pcm else s)
  | .pcmClosed pcm => if pcm ∈ s.closing then some { s with closing := s.closing.erase pcm } else none
  | .setStartThreshold .. => some s

/-- What the real setter is given. -/
def startThreshold (m : Module) (s : AudioState Pcm) (pcm : Option Pcm) (threshold : UInt32)
    (params : Int × UInt32) : UInt32 :=
  match (if m.enabled then trackedName pcm s.tracked else none) with
  | none => threshold
  | some _ =>
    if m.realGetParams then
      if params.1 < 0 ∨ params.2 = 0 then threshold
      else if params.2 < threshold then params.2 else threshold
    else threshold

/-- The call of the real setter in a step. -/
def AudioState.setterCall (m : Module) (s : AudioState Pcm) :
    AudioAction Pcm → Option (Option Pcm × UInt32)
  | .setStartThreshold pcm threshold params =>
    if m.realSetStartThreshold then some (pcm, startThreshold m s pcm threshold params) else none
  | _ => none

/-- The handles ALSA has open. -/
def AudioState.alsaOpen (s : AudioState Pcm) : List Pcm :=
  s.opening.map OpenedAs.pcm ++ (s.opened.map (·.pcm) ++ s.closing)

/-- ALSA returns no handle that is open; no handle is closed that another call is about to
return or to close. -/
def Alsa (s : AudioState Pcm) : AudioAction Pcm → Prop
  | .pcmOpen out _ _ rc => rc = 0 → ∀ pcm ∈ out.join, pcm ∉ s.alsaOpen
  | .pcmClose pcm => ∀ p ∈ pcm, p ∉ s.opening.map OpenedAs.pcm ∧ p ∉ s.closing
  | _ => True

instance (s : AudioState Pcm) : (a : AudioAction Pcm) → Decidable (Alsa s a)
  | .pcmOpen out _ _ rc => inferInstanceAs (Decidable (rc = 0 → ∀ pcm ∈ out.join, pcm ∉ s.alsaOpen))
  | .pcmClose pcm =>
    inferInstanceAs (Decidable (∀ p ∈ pcm, p ∉ s.opening.map OpenedAs.pcm ∧ p ∉ s.closing))
  | .pcmOpened .. | .pcmClosed _ | .setStartThreshold .. => isTrue trivial

/-! ## The table mirrors the open handles -/

/-- The names that Android Auto plays under. -/
def aaNames : List Bytes :=
  ["androidautoMainAudio", "androidautoMainAudioVR", "androidautoAltAudio"].map fun name =>
    name.toUTF8.toList

/-- A handle for Android Auto's playback. -/
def OpenedAs.ForAa (o : OpenedAs Pcm) : Prop :=
  o.stream = .playback ∧ ∃ name ∈ o.name, cstr name ∈ aaNames

instance (o : OpenedAs Pcm) : Decidable o.ForAa := inferInstanceAs (Decidable (_ ∧ _))

/-- An Android Auto playback handle that found a free slot. -/
def OpenPcm.low (o : OpenPcm Pcm) : Bool := decide o.ForAa && o.free

/-- **What every step keeps.** -/
structure Mirrors (s : AudioState Pcm) : Prop where
  held  : (SlotTable.keys TrackedPcm.pcm s.tracked).Perm
    ((s.opened.filter OpenPcm.low).map (·.pcm))
  names : ∀ t ∈ s.tracked, t.pcm.isSome = t.name.isSome
  nodup : s.alsaOpen.Nodup

variable {m : Module} {s s' : AudioState Pcm} {a : AudioAction Pcm}

omit [DecidableEq Pcm] in
theorem mirrors_init : Mirrors ({} : AudioState Pcm) where
  held := .refl _
  names := fun t ht => by rw [List.eq_of_mem_replicate ht]; rfl
  nodup := List.nodup_nil

omit [DecidableEq Pcm] in
theorem Mirrors.opened_nodup (h : Mirrors s) : (s.opened.map (·.pcm)).Nodup :=
  (List.nodup_append.mp (List.nodup_append.mp h.nodup).2.1).1

omit [DecidableEq Pcm] in
theorem Mirrors.mem_held (h : Mirrors s) {pcm : Pcm} :
    pcm ∈ SlotTable.keys TrackedPcm.pcm s.tracked ↔
      ∃ o ∈ s.opened, o.low = true ∧ o.pcm = pcm := by
  rw [h.held.mem_iff, List.mem_map]
  simp only [List.mem_filter, and_assoc]

omit [DecidableEq Pcm] in
theorem Mirrors.held_nodup (h : Mirrors s) : (SlotTable.keys TrackedPcm.pcm s.tracked).Nodup :=
  h.held.nodup_iff.mpr (h.opened_nodup.sublist (List.filter_sublist.map _))

/-- The lookup finds the handles in the table. -/
theorem Mirrors.trackedName_isSome (h : Mirrors s) (pcm : Option Pcm) :
    (trackedName pcm s.tracked).isSome = true ↔ ∃ o ∈ s.opened, o.low = true ∧ some o.pcm = pcm := by
  unfold trackedName
  constructor
  · intro hsome
    obtain ⟨name, hname⟩ := Option.isSome_iff_exists.mp hsome
    obtain ⟨t, hfind, ht⟩ := Option.bind_eq_some_iff.mp hname
    have hpcm : t.pcm = pcm := by simpa using List.find?_some hfind
    have hmem := List.mem_of_find?_eq_some hfind
    -- a free slot has no name
    obtain ⟨p, hp⟩ := Option.isSome_iff_exists.mp ((h.names t hmem).trans (by rw [ht]; rfl))
    obtain ⟨o, ho, hlow, rfl⟩ := h.mem_held.mp (List.mem_filterMap.mpr ⟨t, hmem, hp⟩)
    exact ⟨o, ho, hlow, hp.symm.trans hpcm⟩
  · rintro ⟨o, ho, hlow, rfl⟩
    -- it is in the table, so the lookup stops at it or before, at a slot with a name
    obtain ⟨t, hmem, hp⟩ := List.mem_filterMap.mp (h.mem_held.mpr ⟨o, ho, hlow, rfl⟩)
    cases hfind : s.tracked.find? fun t => decide (t.pcm = some o.pcm) with
    | none => exact absurd hp (by simpa using List.find?_eq_none.mp hfind t hmem)
    | some t' =>
      have hpcm : t'.pcm = some o.pcm := by simpa using List.find?_some hfind
      have hname := h.names t' (List.mem_of_find?_eq_some hfind)
      rw [hpcm] at hname
      exact hname.symm

theorem canonicalAaName_isSome (name : Option Bytes) :
    (canonicalAaName name).isSome = true ↔ ∃ n ∈ name, cstr n ∈ aaNames := by
  cases name with
  | none => simp [canonicalAaName]
  | some name =>
    simp only [canonicalAaName, Option.mem_def, Option.some_inj, exists_eq_left', aaNames,
      List.map_cons, List.map_nil, List.mem_cons, List.not_mem_nil, or_false]
    split
    · rename_i hmain
      simp [hmain]
    · rename_i hmain
      split
      · rename_i hvr
        simp [hvr]
      · rename_i hvr
        split
        · rename_i halt
          simp [halt]
        · rename_i halt
          exact iff_of_false Bool.false_ne_true fun h => h.elim hmain fun h => h.elim hvr halt

/-- Only a handle for Android Auto's playback goes into the table. -/
theorem finishOpen_tracked (henabled : m.enabled = true) (s : AudioState Pcm) (o : OpenedAs Pcm) :
    (o.ForAa ∧ ∃ aaName, (s.finishOpen m o).tracked = trackPcm o.pcm aaName s.tracked) ∨
      (¬o.ForAa ∧ (s.finishOpen m o).tracked = s.tracked) := by
  unfold AudioState.finishOpen OpenedAs.ForAa
  rw [← canonicalAaName_isSome]
  dsimp only
  cases canonicalAaName o.name with
  | none => exact .inr ⟨by simp, rfl⟩
  | some aaName =>
    dsimp only
    by_cases hplayback : o.stream = .playback
    · rw [if_pos ⟨henabled, hplayback⟩]
      exact .inl ⟨⟨hplayback, rfl⟩, aaName, rfl⟩
    · rw [if_neg fun h => hplayback h.2]
      exact .inr ⟨fun h => hplayback h.1, rfl⟩

/-- `track_pcm`. -/
theorem Mirrors.finishOpen (h : Mirrors s) (henabled : m.enabled = true) {o : OpenedAs Pcm}
    (hopening : o ∈ s.opening) : Mirrors (s.finishOpen m o) := by
  have hopened : (s.finishOpen m o).opened =
      ⟨o, SlotTable.HasFree TrackedPcm.pcm s.tracked⟩ :: s.opened := rfl
  have hnodup : (s.finishOpen m o).alsaOpen.Nodup := by
    -- the handle goes from those being opened to the open ones
    have hperm : (s.opening.map OpenedAs.pcm).Perm
        (o.pcm :: (s.opening.erase o).map OpenedAs.pcm) :=
      (List.perm_cons_erase hopening).map OpenedAs.pcm
    refine h.nodup.perm ?_
    exact (hperm.append_right _).trans List.perm_middle.symm
  rcases finishOpen_tracked henabled s o with ⟨hforAa, aaName, htracked⟩ | ⟨hnot, htracked⟩
  · refine ⟨?_, fun t ht => ?_, hnodup⟩
    · rw [htracked, hopened]
      unfold trackPcm
      by_cases hfree : SlotTable.HasFree TrackedPcm.pcm s.tracked
      · -- a free slot: it is in the table from now on
        have hlow : (⟨o, true⟩ : OpenPcm Pcm).low = true := by
          simp [OpenPcm.low, hforAa]
        have hpcm : TrackedPcm.pcm ⟨some o.pcm, some aaName⟩ = some o.pcm := rfl
        simp only [hfree, decide_true, List.filter_cons, hlow, if_true, List.map_cons]
        exact (SlotTable.keys_insert hpcm hfree).trans (h.held.cons o.pcm)
      · -- a full table: Android Auto has it open and it is never lowered
        have hlow : ¬(⟨o, false⟩ : OpenPcm Pcm).low = true := by
          simp [OpenPcm.low]
        simp only [hfree, decide_false, List.filter_cons, if_neg hlow]
        rw [SlotTable.insert_full hfree]
        exact h.held
    · rw [htracked] at ht
      rcases SlotTable.mem_insert ht with ht | rfl
      · exact h.names t ht
      · rfl
  · refine ⟨?_, fun t ht => h.names t (htracked ▸ ht), hnodup⟩
    have hlow (free : Bool) : ¬(⟨o, free⟩ : OpenPcm Pcm).low = true := by
      simp [OpenPcm.low, hnot]
    rw [htracked, hopened, List.filter_cons, if_neg (hlow _)]
    exact h.held

/-- `untrack_pcm`. -/
theorem Mirrors.beginClose (h : Mirrors s) (henabled : m.enabled = true) (pcm : Option Pcm) :
    Mirrors (s.beginClose m pcm) := by
  unfold AudioState.beginClose
  refine ⟨?_, ?_, ?_⟩
  · dsimp only
    rw [if_pos henabled]
    cases pcm with
    | none =>
      unfold untrackPcm
      -- a null handle is not in the table
      rw [SlotTable.keys_remove_none rfl]
      simpa using h.held
    | some pcm =>
      unfold untrackPcm
      -- each handle is there once, so one removal leaves no other
      rw [SlotTable.keys_remove rfl, h.held_nodup.erase_eq_filter]
      refine (h.held.filter _).trans (List.Perm.of_eq ?_)
      rw [List.filter_map, List.filter_filter, List.filter_filter]
      refine congrArg (List.map fun o : OpenPcm Pcm => o.pcm) (List.filter_congr fun o _ => ?_)
      simp [Function.comp, Bool.and_comm, bne, beq_eq_decide]
  · dsimp only
    rw [if_pos henabled]
    intro t ht
    rcases SlotTable.mem_remove ht with ht | rfl
    · exact h.names t ht
    · rfl
  · -- the handle goes from the open ones to those being closed
    refine h.nodup.perm ?_
    have hsplit : (s.opened.map (·.pcm)).Perm
        ((s.opened.filter fun o => some o.pcm ≠ pcm).map (·.pcm) ++
          (s.opened.filter fun o => some o.pcm = pcm).map (·.pcm)) := by
      rw [← List.map_append]
      refine (List.Perm.trans ?_
        (List.filter_append_perm (fun o => some o.pcm ≠ pcm) s.opened)).symm.map _
      simp
    unfold AudioState.alsaOpen
    rw [← List.append_assoc ((s.opened.filter _).map _)]
    exact (hsplit.append_right s.closing).append_left _

/-- **Step lemma.** -/
theorem mirrors_step (henabled : m.enabled = true) (h : Mirrors s) (halsa : Alsa s a)
    (hstep : audioStep m s a = some s') : Mirrors s' := by
  cases a with
  | pcmOpen out name stream rc =>
    simp only [audioStep] at hstep
    split at hstep
    · rename_i pcm
      by_cases hopens : m.realOpen = true ∧ rc = 0
      · rw [if_pos hopens, Option.some_inj] at hstep
        subst hstep
        -- ALSA hands out no handle that is in use
        exact ⟨h.held, h.names, List.nodup_cons.mpr ⟨halsa hopens.2 pcm rfl, h.nodup⟩⟩
      · rw [if_neg hopens, Option.some_inj] at hstep
        exact hstep ▸ h
    · rw [Option.some_inj] at hstep
      exact hstep ▸ h
  | pcmOpened o =>
    simp only [audioStep, Option.ite_none_right_eq_some, Option.some_inj] at hstep
    obtain ⟨hopening, rfl⟩ := hstep
    exact h.finishOpen henabled hopening
  | pcmClose pcm =>
    simp only [audioStep, Option.some_inj] at hstep
    subst hstep
    by_cases hclose : m.realClose = true
    · rw [if_pos hclose]
      exact h.beginClose henabled pcm
    · rw [if_neg hclose]
      exact h
  | pcmClosed pcm =>
    simp only [audioStep, Option.ite_none_right_eq_some, Option.some_inj] at hstep
    obtain ⟨-, rfl⟩ := hstep
    refine ⟨h.held, h.names, h.nodup.sublist ?_⟩
    exact ((List.erase_sublist).append_left _).append_left _
  | setStartThreshold pcm threshold params =>
    rw [audioStep, Option.some_inj] at hstep
    exact hstep ▸ h

theorem mirrors_run (henabled : m.enabled = true)
    (h : Run.Reach (audioStep m) Alsa {} s) : Mirrors s :=
  h.invariant mirrors_init fun _ _ _ hi halsa hstep => mirrors_step henabled hi halsa hstep

/-! ## Results -/

/-- The handle is open, was opened for playback under one of Android Auto's names, found a
free slot then, and `snd_pcm_get_params` succeeds with a period. -/
def Lowered (m : Module) (s : AudioState Pcm) (pcm : Option Pcm) (params : Int × UInt32) : Prop :=
  (∃ o ∈ s.opened, o.ForAa ∧ o.free = true ∧ some o.pcm = pcm) ∧
    m.realGetParams = true ∧ 0 ≤ params.1 ∧ params.2 ≠ 0

instance (m : Module) (s : AudioState Pcm) (pcm : Option Pcm) (params : Int × UInt32) :
    Decidable (Lowered m s pcm params) := inferInstanceAs (Decidable (_ ∧ _))

theorem Mirrors.lowered_iff (h : Mirrors s) (pcm : Option Pcm) (params : Int × UInt32) :
    Lowered m s pcm params ↔ (trackedName pcm s.tracked).isSome = true ∧
      m.realGetParams = true ∧ 0 ≤ params.1 ∧ params.2 ≠ 0 := by
  unfold Lowered
  rw [h.trackedName_isSome pcm]
  simp only [OpenPcm.low, Bool.and_eq_true, decide_eq_true_eq, and_assoc]

theorem lower_eq_min (period threshold : UInt32) :
    (if period < threshold then period else threshold) = min period threshold := by
  show _ = if period ≤ threshold then period else threshold
  by_cases hlt : period < threshold
  · rw [if_pos hlt, if_pos (UInt32.le_of_lt hlt)]
  · rw [if_neg hlt]
    split
    · rename_i hle
      exact UInt32.le_antisymm (UInt32.not_lt.mp hlt) hle
    · rfl

theorem Mirrors.startThreshold (h : Mirrors s) (henabled : m.enabled = true) (pcm : Option Pcm)
    (threshold : UInt32) (params : Int × UInt32) :
    startThreshold m s pcm threshold params =
      if Lowered m s pcm params then min params.2 threshold else threshold := by
  unfold Audio.startThreshold
  rw [if_pos henabled]
  by_cases hlowered : Lowered m s pcm params
  · rw [if_pos hlowered]
    obtain ⟨htracked, hget, hrc, hperiod⟩ := (h.lowered_iff pcm params).mp hlowered
    obtain ⟨name, hname⟩ := Option.isSome_iff_exists.mp htracked
    rw [hname]
    dsimp only
    rw [if_pos hget, if_neg (not_or.mpr ⟨not_lt.mpr hrc, hperiod⟩)]
    exact lower_eq_min params.2 threshold
  · rw [if_neg hlowered]
    rw [h.lowered_iff pcm params] at hlowered
    cases hname : trackedName pcm s.tracked with
    | none => rfl
    | some name =>
      dsimp only
      split
      · rename_i hget
        -- no period to go by: the threshold is passed on
        rw [if_pos]
        by_contra hok
        obtain ⟨hrc, hperiod⟩ := not_or.mp hok
        exact hlowered ⟨by rw [hname]; rfl, hget, not_lt.mp hrc, hperiod⟩
      · rfl

/-- **Only open Android Auto playback handles get the low threshold.** -/
theorem start_threshold_exact (m : Module) (henabled : m.enabled = true) (s : AudioState Pcm)
    (h : Run.Reach (audioStep m) Alsa {} s) :
    (∀ pcm ∈ SlotTable.keys TrackedPcm.pcm s.tracked, pcm ∈ s.opened.map (·.pcm)) ∧
      (SlotTable.keys TrackedPcm.pcm s.tracked).Nodup ∧
      ∀ pcm threshold params,
        s.setterCall m (.setStartThreshold pcm threshold params) =
          if m.realSetStartThreshold then
            some (pcm, if Lowered m s pcm params then min params.2 threshold else threshold)
          else none := by
  have hmirrors := mirrors_run henabled h
  refine ⟨fun pcm hpcm => ?_, hmirrors.held_nodup, fun pcm threshold params => ?_⟩
  · obtain ⟨o, ho, -, rfl⟩ := hmirrors.mem_held.mp hpcm
    exact List.mem_map_of_mem ho
  · unfold AudioState.setterCall
    dsimp only
    rw [hmirrors.startThreshold henabled]

/-- A handle that another application had open before. -/
theorem start_threshold_exact_reused : ∃ s : AudioState Nat,
    Run.Reach (audioStep ⟨true, true, true, true, true⟩) Alsa {} s ∧
      s.setterCall ⟨true, true, true, true, true⟩ (.setStartThreshold (some 1) 4096 (0, 1024)) =
        some (some 1, 1024) := by
  obtain ⟨s, hreach, hlowered⟩ : ∃ s : AudioState Nat,
      Run.Reach (audioStep ⟨true, true, true, true, true⟩) Alsa {} s ∧
        Lowered ⟨true, true, true, true, true⟩ s (some 1) (0, 1024) :=
    Run.Reach.exists_of_replay [.pcmOpen (some (some 1)) none .playback 0,
      .pcmOpened ⟨1, none, .playback⟩, .pcmClose (some 1), .pcmClosed 1,
      .pcmOpen (some (some 1)) (some "androidautoMainAudio".toUTF8.toList) .playback 0,
      .pcmOpened ⟨1, some "androidautoMainAudio".toUTF8.toList, .playback⟩] (by decide +kernel)
  obtain ⟨-, -, hcall⟩ := start_threshold_exact ⟨true, true, true, true, true⟩ rfl s hreach
  refine ⟨s, hreach, ?_⟩
  rw [hcall, if_pos rfl, if_pos hlowered]
  decide

end OemAaMod.Audio
