import OemAaMod.Carplay.Selection
import OemAaMod.Lib.LastRun

/-!
# The window of the current burst

Bursts follow one another, may be cut short, repeat an index or leave one out, and the
sender thread asks for a reset at any time. Whatever arrives, `g_buf` is the beginning of
the current burst: the maneuvers received since the last index 0, decrease of the index
or reset taken, as far as they are displayable, up to 48 of them.

* `NavAction`, `navActs` — messages of any content, and requests for a reset;
* `Heard` — the maneuver messages since the last reset taken;
* `Windowed` — what the window holds of them, kept by every step;
* `BurstWindow`, `window_of_run` — the window in every state reached.
-/

namespace OemAaMod.Carplay

open CStr (Bytes)
open LastRun (IsLastRun lastRun)

/-! ## Runs -/

inductive NavAction
  | msg (b : Bytes)
  | requestReset

def NavState.act (s : NavState) : NavAction → NavState
  | .msg b => (s.onDevmgrMsg b).1
  | .requestReset => s.requestReset

def navActs (s : NavState) (acts : List NavAction) : NavState := acts.foldl .act s

/-- The maneuver messages received since the last reset was taken, and whether one is
pending. -/
structure Heard where
  pending   : Bool := false
  maneuvers : List Bytes := []

/-- A reset is taken by the next message, short ones apart. -/
def Heard.take (h : Heard) : Heard := if h.pending then {} else h

def Heard.act (h : Heard) : NavAction → Heard
  | .msg b =>
    if b.length < kManeuverTextOff + 4 then h
    else if msgType b = kMtManeuver then { h.take with maneuvers := h.take.maneuvers ++ [b] }
    else h.take
  | .requestReset => { h with pending := true }

def heard (acts : List NavAction) : Heard := acts.foldl .act {}

/-- A maneuver of the burst of the one before: neither the heading nor a step back. -/
def Continues (b c : Bytes) : Prop := burstIdx c ≠ 0 ∧ burstIdx b ≤ burstIdx c

instance : DecidableRel Continues := fun _ _ => inferInstanceAs (Decidable (_ ∧ _))

/-! ## One message -/

variable {s : NavState} {h : Heard}

/-- What the window holds of the messages heard. -/
structure Windowed (s : NavState) (h : Heard) : Prop where
  pending : s.resetReq = h.pending
  prev    : s.prevIdx = (h.maneuvers.getLast?.map burstIdx).getD 0xffffffff
  entries : s.buf.entries = ((lastRun Continues h.maneuvers).filterMap displayed).take kMaxBurst

theorem windowed_init : Windowed {} {} := ⟨rfl, rfl, rfl⟩

theorem Windowed.takeReset (hw : Windowed s h) : Windowed s.takeReset h.take := by
  unfold NavState.takeReset Heard.take
  rw [hw.pending]
  by_cases hp : h.pending = true
  · rw [if_pos hp, if_pos hp]
    exact ⟨rfl, rfl, rfl⟩
  · rw [if_neg hp, if_neg hp]
    exact hw

/-- The fields of `Windowed` that painting leaves alone. -/
theorem emitHead_window (s : NavState) (head : UInt32) :
    (s.emitHead head).1.buf = s.buf ∧ (s.emitHead head).1.prevIdx = s.prevIdx ∧
      (s.emitHead head).1.resetReq = s.resetReq := by
  unfold NavState.emitHead
  cases s.buf.selectByHead head with
  | none => exact ⟨rfl, rfl, rfl⟩
  | some im =>
    obtain ⟨-, hbuf, hprev, hreset, -⟩ := emitSelection_spec s im
    exact ⟨hbuf, hprev, hreset⟩

theorem onGuidance_window (s : NavState) (b : Bytes) :
    (s.onGuidance b).1.buf = s.buf ∧ (s.onGuidance b).1.prevIdx = s.prevIdx ∧
      (s.onGuidance b).1.resetReq = s.resetReq := by
  unfold NavState.onGuidance
  dsimp only
  split
  · split
    · -- a selection paints from the window and leaves it alone
      obtain ⟨-, hbuf, hprev, hreset, -⟩ := emitSelection_spec
        { s with lastHead := readU16 b kManListOff, lastHeadValid := true } _
      exact ⟨hbuf, hprev, hreset⟩
    · exact ⟨rfl, rfl, rfl⟩
  · exact ⟨rfl, rfl, rfl⟩

/-- **A maneuver message**: it starts a window or not, and goes into it if it is
displayable and there is room. -/
theorem onManeuver_window (s : NavState) (b : Bytes) :
    (s.onManeuver b).1.buf.entries =
        ((if burstIdx b = 0 ∨ burstIdx b < s.prevIdx then [] else s.buf.entries) ++
          (displayed b).toList).take kMaxBurst ∧
      (s.onManeuver b).1.prevIdx = burstIdx b ∧ (s.onManeuver b).1.resetReq = s.resetReq := by
  unfold NavState.onManeuver
  dsimp only
  -- the window the message finds
  generalize hbuf : (if burstIdx b = 0 ∨ burstIdx b < s.prevIdx then ({} : Window) else s.buf) = w
  have hentries : (if burstIdx b = 0 ∨ burstIdx b < s.prevIdx then [] else s.buf.entries) =
      w.entries := by
    rw [← hbuf]
    split <;> rfl
  have hfits := w.fits
  rw [hentries]
  by_cases hskip : burstIdx b = 0 ∨ isContextType (readU32 b kManeuverTypeOff) = true
  · have hnone : displayed b = none := if_pos hskip
    rw [if_pos hskip, hnone, Option.toList_none, List.append_nil, List.take_of_length_le hfits]
    exact ⟨rfl, rfl, rfl⟩
  · have hsome : displayed b = some (bufManeuver b) := if_neg hskip
    rw [if_neg hskip, hsome, Option.toList_some]
    by_cases hroom : w.entries.length < kMaxBurst
    · have hall : (w.entries ++ [bufManeuver b]).take kMaxBurst = w.entries ++ [bufManeuver b] := by
        refine List.take_of_length_le ?_
        rw [List.length_append]
        exact hroom
      rw [dif_pos hroom, hall]
      split
      · -- stored, and painted if a head is waiting for it
        obtain ⟨hkeep, hprev, hreset⟩ := emitHead_window
          { s with prevIdx := burstIdx b, buf := w.push (bufManeuver b) hroom } s.lastHead
        refine ⟨?_, hprev, hreset⟩
        rw [hkeep]
        rfl
      · exact ⟨rfl, rfl, rfl⟩
    · -- full: what comes now is dropped
      have hfull : kMaxBurst = w.entries.length := Nat.le_antisymm (Nat.not_lt.mp hroom) hfits
      have hall : (w.entries ++ [bufManeuver b]).take kMaxBurst = w.entries := by
        rw [hfull, List.take_left]
      rw [dif_neg hroom, hall]
      exact ⟨rfl, rfl, rfl⟩

/-! ## Every step keeps the window -/

theorem take_append_of_take {α : Type} (n : Nat) (l m : List α) :
    (l.take n ++ m).take n = (l ++ m).take n := by
  have hlen : n - (l.take n).length = n - l.length := by
    rw [List.length_take]
    omega
  rw [List.take_append, List.take_append, List.take_take, Nat.min_self, hlen]

/-- A maneuver message takes the window of the burst to that of the burst with it. -/
theorem Windowed.maneuver (hw : Windowed s h) (b : Bytes) :
    Windowed (s.onManeuver b).1 { h with maneuvers := h.maneuvers ++ [b] } := by
  obtain ⟨hentries, hprev, hreset⟩ := onManeuver_window s b
  -- `g_prev_idx` is the index of the last message, displayable or not
  refine ⟨hreset.trans hw.pending, ?_, ?_⟩
  · rw [hprev, List.getLast?_concat]
    rfl
  rw [hentries, LastRun.lastRun_concat, hw.entries, hw.prev]
  unfold LastRun.extend
  rw [LastRun.getLast?_lastRun]
  cases hlast : h.maneuvers.getLast? with
  | none =>
    -- the first message: there is nothing to keep or to drop
    rw [List.getLast?_eq_none_iff] at hlast
    have hempty : ((lastRun Continues []).filterMap displayed).take kMaxBurst = [] := rfl
    have hfirst : ∀ c ∈ (none : Option Bytes), Continues c b := by simp
    rw [hlast, hempty, ite_self, if_pos hfirst]
    cases hb : displayed b <;> simp [LastRun.lastRun, hb]
  | some c =>
    simp only [Option.map_some, Option.getD_some, Option.mem_def, Option.some.injEq,
      forall_eq']
    by_cases hstart : burstIdx b = 0 ∨ burstIdx b < burstIdx c
    · -- a heading or a step back: a new burst on both sides
      have hnew : ¬Continues c b := by
        rintro ⟨hne, hle⟩
        rcases hstart with hzero | hlt
        · exact hne hzero
        · exact UInt32.not_le.mpr hlt hle
      rw [if_pos hstart, if_neg hnew]
      cases hb : displayed b <;> simp [hb]
    · -- the burst goes on; the window is cut before or after, to the same 48
      have hcont : Continues c b :=
        ⟨fun hzero => hstart (Or.inl hzero), UInt32.not_lt.mp fun hlt => hstart (Or.inr hlt)⟩
      rw [if_neg hstart, if_pos hcont, take_append_of_take, List.filterMap_append]
      cases hb : displayed b <;> simp [hb]

/-- **Step lemma.** -/
theorem Windowed.step (hw : Windowed s h) (a : NavAction) : Windowed (s.act a) (h.act a) := by
  cases a with
  | requestReset => exact ⟨rfl, hw.prev, hw.entries⟩
  | msg b =>
    unfold NavState.act Heard.act NavState.onDevmgrMsg
    dsimp only
    by_cases hshort : b.length < kManeuverTextOff + 4
    · rw [if_pos hshort, if_pos hshort]
      exact hw
    · rw [if_neg hshort, if_neg hshort]
      by_cases hman : msgType b = kMtManeuver
      · rw [if_pos hman, if_pos hman]
        exact hw.takeReset.maneuver b
      · -- every other message takes the reset and adds nothing
        rw [if_neg hman, if_neg hman]
        by_cases hguid : msgType b = kMtGuidance
        · -- guidance only reads the window
          rw [if_pos hguid]
          obtain ⟨hbuf, hprev, hreset⟩ := onGuidance_window s.takeReset b
          refine ⟨hreset.trans hw.takeReset.pending, hprev.trans hw.takeReset.prev, ?_⟩
          rw [hbuf]
          exact hw.takeReset.entries
        · rw [if_neg hguid]
          exact hw.takeReset

/-- **Run lemma.** -/
theorem windowed_run (acts : List NavAction) : Windowed (navActs {} acts) (heard acts) := by
  induction acts using List.reverseRecOn with
  | nil => exact windowed_init
  | append_singleton acts a ih =>
    unfold navActs heard at ih ⊢
    rw [List.foldl_append, List.foldl_append]
    exact ih.step a

/-! ## The window -/

/-- The displayable maneuvers of a burst, in the order in which they came. -/
def shown (burst : List Bytes) : List BufManeuver := burst.filterMap displayed

/-- The first of some entries with an index. -/
def firstAt (entries : List BufManeuver) (idx : UInt32) : Option BufManeuver :=
  entries.find? (·.idx == idx)

/-- The newest one. -/
def newestAt (entries : List BufManeuver) (idx : UInt32) : Option BufManeuver :=
  entries.reverse.find? (·.idx == idx)

/-- What `g_buf` is of a burst. -/
structure BurstWindow (w : Window) (burst : List Bytes) : Prop where
  room    : w.entries.length ≤ kMaxBurst
  entries : w.entries = (shown burst).take kMaxBurst
  /-- every entry is a displayable maneuver of the burst -/
  listed  : ∀ e ∈ w.entries, ∃ b ∈ burst, bufManeuver b = e ∧ e.idx ≠ 0 ∧
    isContextType (readU32 b kManeuverTypeOff) = false
  ordered : w.entries.Pairwise fun e e' => e.idx ≤ e'.idx
  select  : ∀ head, w.selectByHead head =
    (firstAt ((shown burst).take kMaxBurst) head).or
      (firstAt ((shown burst).take kMaxBurst) (head + 1))
  /-- a burst with room that repeats no index keeps its newest maneuver at each -/
  newest  : ((shown burst).map BufManeuver.idx).Nodup → (shown burst).length ≤ kMaxBurst →
    w.entries.Pairwise (fun e e' => e.idx < e'.idx) ∧
      ∀ head, w.selectByHead head =
        (newestAt (shown burst) head).or (newestAt (shown burst) (head + 1))

theorem displayed_eq_some {b : Bytes} {e : BufManeuver} (he : displayed b = some e) :
    bufManeuver b = e ∧ e.idx ≠ 0 ∧ isContextType (readU32 b kManeuverTypeOff) = false := by
  have hidx := displayed_idx he
  unfold displayed at he
  by_cases hskip : burstIdx b = 0 ∨ isContextType (readU32 b kManeuverTypeOff) = true
  · rw [if_pos hskip] at he
    exact absurd he (by simp)
  · rw [if_neg hskip] at he
    obtain ⟨hne, hcontext⟩ := not_or.mp hskip
    exact ⟨Option.some.inj he, by rwa [hidx], by simpa using hcontext⟩

/-- In a burst the indices never go back. -/
theorem shown_ordered {burst : List Bytes} (hchain : burst.IsChain Continues) :
    (shown burst).Pairwise fun e e' => e.idx ≤ e'.idx := by
  have hsorted : burst.Pairwise fun b c => burstIdx b ≤ burstIdx c := by
    refine List.IsChain.pairwise (hchain.imp fun _ _ h => h.2)
  refine List.Pairwise.filterMap displayed (fun b c hle e he e' he' => ?_) hsorted
  rw [displayed_idx he, displayed_idx he']
  exact hle

/-- Where no index is repeated the first is the newest. -/
theorem newestAt_eq_firstAt {entries : List BufManeuver}
    (hnodup : (entries.map BufManeuver.idx).Nodup) (idx : UInt32) :
    newestAt entries idx = firstAt entries idx := by
  unfold newestAt firstAt
  induction entries with
  | nil => rfl
  | cons e entries ih =>
    obtain ⟨hnot, hrest⟩ := List.nodup_cons.mp hnodup
    rw [List.reverse_cons, List.find?_append, ih hrest]
    by_cases heq : e.idx = idx
    · -- no other entry has the index
      have hnone : entries.find? (·.idx == idx) = none := by
        rw [List.find?_eq_none]
        intro e' he' hidx
        exact hnot (List.mem_map.mpr ⟨e', he', (beq_iff_eq.mp hidx).trans heq.symm⟩)
      simp [heq, hnone]
    · simp [heq]

theorem burstWindow {w : Window} {burst : List Bytes} (hchain : burst.IsChain Continues)
    (hw : w.entries = (shown burst).take kMaxBurst) : BurstWindow w burst where
  room := w.fits
  entries := hw
  listed := by
    intro e he
    rw [hw] at he
    obtain ⟨b, hb, hdisplayed⟩ := List.mem_filterMap.mp (List.mem_of_mem_take he)
    exact ⟨b, hb, displayed_eq_some hdisplayed⟩
  ordered := by
    rw [hw]
    exact (shown_ordered hchain).take
  select := by
    intro head
    rw [← hw]
    rfl
  newest := by
    intro hnodup hroom
    rw [List.take_of_length_le hroom] at hw
    refine ⟨?_, fun head => ?_⟩
    · rw [hw]
      have hne : (shown burst).Pairwise fun e e' => e.idx ≠ e'.idx := List.pairwise_map.mp hnodup
      refine ((shown_ordered hchain).and hne).imp fun h => ?_
      exact UInt32.lt_of_le_of_ne h.1 h.2
    · rw [newestAt_eq_firstAt hnodup, newestAt_eq_firstAt hnodup, ← hw]
      rfl

/-- **The window in every state reached**, by messages of any content and resets at any
time, is that of the current burst: the longest suffix of the maneuvers heard since the
last reset in which no index is 0 or goes back behind the first. -/
theorem window_of_run (acts : List NavAction) :
    ∃ burst, IsLastRun Continues (heard acts).maneuvers burst ∧
      BurstWindow (navActs {} acts).buf burst := by
  have hlast := LastRun.lastRun_isLastRun Continues (heard acts).maneuvers
  exact ⟨_, hlast, burstWindow hlast.chain (windowed_run acts).entries⟩

/-- Left turns with the indices 1 to `n`. -/
def leftTurns (n : Nat) : List NavAction :=
  (List.range n).map fun i => .msg (maneuverMsg (.ofNat (i + 1)) 1)

/-- Not the newest of each index: of a left and a right turn with index 1 both are kept
and the older one selected; of 49 turns the last is not kept; and after a reset inside a
burst, the next index is selected for one received before. -/
theorem window_not_newest :
    (¬(navActs {} [.msg (maneuverMsg 1 1), .msg (maneuverMsg 1 2)]).buf.entries.Pairwise
        (fun e e' => e.idx < e'.idx) ∧
      ((navActs {} [.msg (maneuverMsg 1 1), .msg (maneuverMsg 1 2)]).buf.selectByHead 1).map
        (·.mv.side) = some SIDE_LEFT ∧
      (displayed (maneuverMsg 1 2)).map (·.mv.side) = some SIDE_RIGHT) ∧
    ((navActs {} (leftTurns 49)).buf.selectByHead 49).isNone = true ∧
    ((navActs {} [.msg (maneuverMsg 1 1), .requestReset,
      .msg (maneuverMsg 2 2)]).buf.selectByHead 1).map (·.mv.side) = some SIDE_RIGHT :=
  ⟨⟨by decide +kernel, by decide +kernel, by decide +kernel⟩, by decide +kernel,
    by decide +kernel⟩

end OemAaMod.Carplay
