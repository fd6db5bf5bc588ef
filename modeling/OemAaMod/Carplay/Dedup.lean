import OemAaMod.Carplay.Window
import OemAaMod.Lib.ChangeGate

/-!
# What is passed on to the HUD

`emit_selection` paints every pick and calls `hud_on_next_turn` only if the pick is
not the one it passed last; a reset makes it forget that one.

* `NavState.picked` — the pick of a message, if it makes one;
* `navLog` — resets taken, picks and calls of a run, in their order;
* `Agrees` — what `g_emit_*` say of the last pick passed, kept by every step;
* `turns_collapsed` — the calls are the picks with equal neighbours collapsed, and after a
  reset the next guidance for a listed maneuver ends with that maneuver passed on.
-/

namespace OemAaMod.Carplay

open CStr (Bytes CharBuf)
open ChangeGate (collapse held passed)
open LastRun (lastRun)

/-! ## Picks -/

/-- The maneuver that the maneuver branch hands to `emit_selection`. -/
def NavState.maneuverPick (s : NavState) (b : Bytes) : Option BufManeuver :=
  let buf :=
    if burstIdx b = 0 ∨ burstIdx b < s.prevIdx then ⟨[], Nat.zero_le _⟩ else s.buf
  if burstIdx b = 0 ∨ isContextType (readU32 b kManeuverTypeOff) = true then none
  else if h : buf.entries.length < kMaxBurst then
    if s.lastHeadValid then (buf.push (bufManeuver b) h).selectByHead s.lastHead else none
  else none

/-- The maneuver that the guidance branch hands to it. -/
def NavState.guidancePick (s : NavState) (b : Bytes) : Option BufManeuver :=
  if readU16 b kManListCntOff > 0 then s.buf.selectByHead (readU16 b kManListOff) else none

/-- The maneuver that a message hands to `emit_selection`, if any. -/
def NavState.picked (s : NavState) (b : Bytes) : Option BufManeuver :=
  if b.length < kManeuverTextOff + 4 then none
  else if msgType b = kMtManeuver then s.takeReset.maneuverPick b
  else if msgType b = kMtGuidance then s.takeReset.guidancePick b
  else none

/-- The call of `hud_on_next_turn` for a pick; a road that is empty goes as a blank. -/
def Display.turn (d : Display) : HudCall :=
  .nextTurn (if d.road.str ≠ [] then d.road.str else [0x20]) d.side d.event d.angle d.number

def HudCall.isTurn : HudCall → Bool
  | .nextTurn .. => true
  | _ => false

/-! ## The log of a run -/

inductive NavEvent
  | taken
  | pick (d : Display)
  | call (c : HudCall)
deriving DecidableEq

/-- The pick of a message and the calls it makes. -/
def NavState.outcome (s : NavState) (b : Bytes) : List NavEvent :=
  ((s.picked b).map fun im => .pick im.display).toList ++ (s.onDevmgrMsg b).2.map .call

/-- What a message notes. -/
def NavState.events (s : NavState) (b : Bytes) : List NavEvent :=
  if b.length < kManeuverTextOff + 4 then []
  else (if s.resetReq then [.taken] else []) ++ s.outcome b

def NavState.actEvents (s : NavState) : NavAction → List NavEvent
  | .msg b => s.events b
  | .requestReset => []

def navLogFrom (s : NavState) : List NavAction → List NavEvent
  | [] => []
  | a :: acts => s.actEvents a ++ navLogFrom (s.act a) acts

def navLog (acts : List NavAction) : List NavEvent := navLogFrom { buf := ⟨[], Nat.zero_le _⟩ } acts

/-- The picks, and a break for each reset. -/
def picks (log : List NavEvent) : List (Option Display) :=
  log.filterMap fun
    | .taken => some none
    | .pick d => some (some d)
    | .call _ => none

/-- The calls of `hud_on_next_turn`. -/
def turns (log : List NavEvent) : List HudCall :=
  log.filterMap fun
    | .call c => if c.isTurn then some c else none
    | _ => none

variable {s : NavState} {b : Bytes} {acts : List NavAction}

theorem navLogFrom_append (s : NavState) (acts acts' : List NavAction) :
    navLogFrom s (acts ++ acts') = navLogFrom s acts ++ navLogFrom (navActs s acts) acts' := by
  induction acts generalizing s with
  | nil => rfl
  | cons a acts ih =>
    rw [List.cons_append, navLogFrom, navLogFrom, ih, List.append_assoc]
    rfl

theorem navLog_concat (acts : List NavAction) (a : NavAction) :
    navLog (acts ++ [a]) = navLog acts ++ (navActs {} acts).actEvents a := by
  unfold navLog
  rw [navLogFrom_append, navLogFrom, navLogFrom, List.append_nil]

theorem picks_append (l l' : List NavEvent) : picks (l ++ l') = picks l ++ picks l' :=
  List.filterMap_append

theorem turns_append (l l' : List NavEvent) : turns (l ++ l') = turns l ++ turns l' :=
  List.filterMap_append

/-! ## A message passes its pick through `emit_selection` -/

theorem turns_calls (calls : List HudCall) :
    turns (calls.map .call) = calls.filter HudCall.isTurn := by
  induction calls with
  | nil => rfl
  | cons c calls ih =>
    unfold turns at ih ⊢
    cases hc : c.isTurn <;> simp [hc, ih]

theorem guidanceDistance_no_turn (b : Bytes) :
    (guidanceDistance b).filter HudCall.isTurn = [] := by
  unfold guidanceDistance
  split
  · extract_lets dist
    split
    · split <;> rfl
    · rfl
  · rfl

/-- The result of a message with a pick: `emit_selection` of it, from a state that still
has what was emitted last; without a pick there is no call. -/
def Handed (emitted : Display) (pick : Option BufManeuver) (r : NavState × List HudCall) : Prop :=
  match pick with
  | none => r.1.emitted = emitted ∧ r.2.filter HudCall.isTurn = []
  | some im => ∃ s₁ : NavState, s₁.emitted = emitted ∧ im ∈ s₁.buf.entries ∧
      r.1 = (s₁.emitSelection im).1 ∧
      r.2.filter HudCall.isTurn = (s₁.emitSelection im).2.filter HudCall.isTurn

theorem mem_of_selectByHead {w : Window} {head : UInt32} {im : BufManeuver}
    (h : w.selectByHead head = some im) : im ∈ w.entries := by
  unfold Window.selectByHead at h
  rcases Option.or_eq_some_iff.mp h with h | ⟨-, h⟩
  · exact List.mem_of_find?_eq_some h
  · exact List.mem_of_find?_eq_some h

theorem emitHead_handed (s : NavState) (head : UInt32) :
    Handed s.emitted (s.buf.selectByHead head) (s.emitHead head) := by
  unfold NavState.emitHead
  cases h : s.buf.selectByHead head with
  | none => exact ⟨rfl, rfl⟩
  | some im => exact ⟨s, rfl, mem_of_selectByHead h, rfl, rfl⟩

theorem onManeuver_handed (s : NavState) (b : Bytes) :
    Handed s.emitted (s.maneuverPick b) (s.onManeuver b) := by
  unfold NavState.maneuverPick NavState.onManeuver
  dsimp only
  generalize (if burstIdx b = 0 ∨ burstIdx b < s.prevIdx then ({} : Window) else s.buf) = w
  split
  · exact ⟨rfl, rfl⟩
  · split
    · rename_i hroom
      split
      · -- the window with the maneuver in it is searched
        exact emitHead_handed { s with
          prevIdx := burstIdx b
          buf := w.push (bufManeuver b) hroom } s.lastHead
      · exact ⟨rfl, rfl⟩
    · exact ⟨rfl, rfl⟩

theorem onGuidance_handed (s : NavState) (b : Bytes) :
    Handed s.emitted (s.guidancePick b) (s.onGuidance b) := by
  unfold NavState.guidancePick NavState.onGuidance
  dsimp only
  split
  · cases h : s.buf.selectByHead (readU16 b kManListOff) with
    | none => exact ⟨rfl, guidanceDistance_no_turn b⟩
    | some im =>
      refine ⟨{ s with lastHead := readU16 b kManListOff, lastHeadValid := true }, rfl,
        mem_of_selectByHead h, rfl, ?_⟩
      rw [List.filter_append, guidanceDistance_no_turn, List.append_nil]
  · exact ⟨rfl, guidanceDistance_no_turn b⟩

/-- **Every pick goes through `emit_selection`.** -/
theorem onDevmgrMsg_handed (s : NavState) (hlong : kManeuverTextOff + 4 ≤ b.length) :
    Handed s.takeReset.emitted (s.picked b) (s.onDevmgrMsg b) := by
  unfold NavState.picked NavState.onDevmgrMsg
  rw [if_neg (Nat.not_lt.mpr hlong), if_neg (Nat.not_lt.mpr hlong)]
  dsimp only
  split
  · exact onManeuver_handed s.takeReset b
  · split
    · exact onGuidance_handed s.takeReset b
    · exact ⟨rfl, rfl⟩

/-! ## What was passed last -/

/-- No maneuver has the event of `noDisplay`. -/
theorem classify_event (mtype junctionType driveSide : UInt32) (junctionAngle : Int32) :
    (classify mtype junctionType junctionAngle driveSide).event ≠ noDisplay.event := by
  unfold classify
  extract_lets ra
  split
  · exact (by decide : EV_ROUNDABOUT ≠ noDisplay.event)
  · split <;> simp only [noDisplay] <;> decide

/-- `g_emit_*` against the last pick passed. -/
def Agrees (emitted : Display) : Option Display → Prop
  | none => emitted.event = noDisplay.event
  | some d => d.Same emitted

theorem Display.Same.refl (d : Display) : d.Same d := ⟨rfl, rfl, rfl, rfl, rfl⟩

theorem Display.Same.symm {d d' : Display} (h : d.Same d') : d'.Same d :=
  ⟨h.1.symm, h.2.1.symm, h.2.2.1.symm, h.2.2.2.1.symm, h.2.2.2.2.symm⟩

theorem Display.Same.trans {d d' d'' : Display} (h : d.Same d') (h' : d'.Same d'') : d.Same d'' :=
  ⟨h.1.trans h'.1, h.2.1.trans h'.2.1, h.2.2.1.trans h'.2.2.1, h.2.2.2.1.trans h'.2.2.2.1,
    h.2.2.2.2.trans h'.2.2.2.2⟩

/-- The same maneuver makes the same call. -/
theorem Display.Same.turn_eq {d d' : Display} (h : d.Same d') : d.turn = d'.turn := by
  obtain ⟨hevent, hside, hangle, hnumber, hroad⟩ := h
  unfold Display.turn
  rw [hevent, hside, hangle, hnumber, hroad]

/-- **The gate in `emit_selection`.** -/
theorem emitSelection_gate {im : BufManeuver} (hevent : im.mv.event ≠ noDisplay.event)
    {h : Option Display} (hagrees : Agrees s.emitted h) :
    (s.emitSelection im).2.filter HudCall.isTurn =
        (ChangeGate.emits Display.Same h (some im.display)).toList.map Display.turn ∧
      Agrees (s.emitSelection im).1.emitted
        (ChangeGate.next Display.Same h (some im.display)) := by
  have hshows := (emitSelection_spec s im).1.2
  -- the code asks about `g_emit_*`, the gate about the pick it holds
  have hshut : im.display.Same s.emitted ↔ ∃ d, h = some d ∧ d.Same im.display := by
    cases h with
    | none =>
      refine iff_of_false (fun hsame => ?_) (by simp)
      exact hevent (hsame.1.trans hagrees)
    | some d =>
      constructor
      · exact fun hsame => ⟨d, rfl, hagrees.trans hsame.symm⟩
      · rintro ⟨d', hd', hsame⟩
        obtain rfl := Option.some_inj.mp hd'
        exact hsame.symm.trans hagrees
  by_cases hsame : im.display.Same s.emitted
  · obtain ⟨d, rfl, hd⟩ := hshut.mp hsame
    have hcall : s.emitSelection im = ({ s with disp := im.display }, []) := by
      unfold NavState.emitSelection
      dsimp only
      rw [if_neg (not_not.mpr hsame)]
    rw [hcall]
    simp only [ChangeGate.emits, ChangeGate.next, if_pos hd]
    exact ⟨rfl, hagrees⟩
  · have hopen : ∀ d, h = some d → ¬d.Same im.display :=
      fun d hd hsame' => hsame (hshut.mpr ⟨d, hd, hsame'⟩)
    have hemits : ChangeGate.emits Display.Same h (some im.display) = some im.display ∧
        ChangeGate.next Display.Same h (some im.display) = some im.display := by
      cases h with
      | none => exact ⟨rfl, rfl⟩
      | some d => exact ⟨if_neg (hopen d rfl), if_neg (hopen d rfl)⟩
    rw [hemits.1, hemits.2]
    refine ⟨?_, hshows⟩
    unfold NavState.emitSelection
    dsimp only
    rw [if_pos hsame]
    rfl

/-! ## Every step -/

/-- A maneuver in the window was made by `classify`. -/
theorem listed_event {acts : List NavAction} {im : BufManeuver}
    (him : im ∈ (navActs {} acts).buf.entries) : im.mv.event ≠ noDisplay.event := by
  rw [(windowed_run acts).entries] at him
  obtain ⟨b, -, hdisplayed⟩ := List.mem_filterMap.mp (List.mem_of_mem_take him)
  rw [← (displayed_eq_some hdisplayed).1]
  exact classify_event (readU32 b kManeuverTypeOff) (readU32 b kJunctionTypeOff)
    (readU32 b kDriveSideOff) (readS16 b kJunctionAngleOff)

theorem picks_events (hlong : kManeuverTextOff + 4 ≤ b.length) :
    picks (s.events b) =
      (if s.resetReq then [none] else []) ++ ((s.picked b).map fun im => some im.display).toList := by
  have hcalls : picks ((s.onDevmgrMsg b).2.map .call) = [] := by
    unfold picks
    rw [List.filterMap_map, List.filterMap_eq_nil_iff]
    exact fun _ _ => rfl
  unfold NavState.events NavState.outcome
  rw [if_neg (Nat.not_lt.mpr hlong), picks_append, picks_append, hcalls, List.append_nil]
  congr 1
  · split <;> rfl
  · cases s.picked b <;> rfl

theorem turns_events (hlong : kManeuverTextOff + 4 ≤ b.length) :
    turns (s.events b) = (s.onDevmgrMsg b).2.filter HudCall.isTurn := by
  unfold NavState.events NavState.outcome
  rw [if_neg (Nat.not_lt.mpr hlong), turns_append, turns_append, turns_calls]
  have htaken : turns (if s.resetReq then [.taken] else []) = [] := by split <;> rfl
  have hpick : turns ((s.picked b).map fun im => NavEvent.pick im.display).toList = [] := by
    cases s.picked b <;> rfl
  rw [htaken, hpick, List.nil_append, List.nil_append]

/-- What the log says of the calls and of `g_emit_*`. -/
structure Noted (acts : List NavAction) : Prop where
  turns  : turns (navLog acts) = (passed Display.Same none (picks (navLog acts))).map Display.turn
  agrees : Agrees (navActs {} acts).emitted (held Display.Same none (picks (navLog acts)))

theorem navActs_concat (s : NavState) (acts : List NavAction) (a : NavAction) :
    navActs s (acts ++ [a]) = (navActs s acts).act a := List.foldl_append

/-- A reset taken is a break: nothing passes, and nothing is held behind it. -/
theorem agrees_takeReset {h : Option Display} (hagrees : Agrees s.emitted h) :
    Agrees s.takeReset.emitted (held Display.Same h (if s.resetReq then [none] else [])) ∧
      passed Display.Same h (if s.resetReq then [none] else []) = [] := by
  unfold NavState.takeReset
  split
  · exact ⟨rfl, rfl⟩
  · exact ⟨hagrees, rfl⟩

/-- **Step lemma.** -/
theorem Noted.step (hn : Noted acts) (a : NavAction) : Noted (acts ++ [a]) := by
  -- without events everything stays
  have hsilent (hevents : (navActs {} acts).actEvents a = [])
      (hemitted : ((navActs {} acts).act a).emitted = (navActs {} acts).emitted) :
      Noted (acts ++ [a]) := by
    have hlog : navLog (acts ++ [a]) = navLog acts := by
      rw [navLog_concat, hevents, List.append_nil]
    refine ⟨?_, ?_⟩
    · rw [hlog]
      exact hn.turns
    · rw [hlog, navActs_concat, hemitted]
      exact hn.agrees
  cases a with
  | requestReset => exact hsilent rfl rfl
  | msg b =>
    by_cases hshort : b.length < kManeuverTextOff + 4
    · refine hsilent ?_ ?_
      · exact if_pos hshort
      · show ((navActs {} acts).onDevmgrMsg b).1.emitted = _
        unfold NavState.onDevmgrMsg
        rw [if_pos hshort]
    · have hlong := Nat.not_lt.mp hshort
      obtain ⟨hagrees, hnothing⟩ := agrees_takeReset hn.agrees
      have hhanded := onDevmgrMsg_handed (navActs {} acts) hlong
      have hpicks := picks_events (s := navActs {} acts) hlong
      have hturns := turns_events (s := navActs {} acts) hlong
      have hlog : navLog (acts ++ [.msg b]) = navLog acts ++ (navActs {} acts).events b :=
        navLog_concat acts (.msg b)
      rw [← ChangeGate.held_append] at hagrees
      cases hpick : (navActs {} acts).picked b with
      | none =>
        rw [hpick] at hhanded hpicks
        obtain ⟨hemitted, hcalls⟩ := hhanded
        rw [Option.map_none, Option.toList_none, List.append_nil] at hpicks
        refine ⟨?_, ?_⟩
        · rw [hlog, turns_append, picks_append, hturns, hpicks, hcalls, ChangeGate.passed_append,
            hnothing, List.append_nil, List.append_nil, hn.turns]
        · rw [hlog, picks_append, hpicks, navActs_concat]
          show Agrees ((navActs {} acts).onDevmgrMsg b).1.emitted _
          rw [hemitted]
          exact hagrees
      | some im =>
        rw [hpick] at hhanded hpicks
        obtain ⟨s₁, hemitted, hmem, hstate, hcalls⟩ := hhanded
        -- the window is that of the state behind the message
        have hevent : im.mv.event ≠ noDisplay.event := by
          have hlisted : im ∈ (navActs {} (acts ++ [.msg b])).buf.entries := by
            rw [navActs_concat]
            show im ∈ ((navActs {} acts).onDevmgrMsg b).1.buf.entries
            rw [hstate, (emitSelection_spec s₁ im).2.1]
            exact hmem
          exact listed_event hlisted
        rw [← hemitted] at hagrees
        obtain ⟨hemits, hnext⟩ := emitSelection_gate hevent hagrees
        rw [Option.map_some, Option.toList_some] at hpicks
        refine ⟨?_, ?_⟩
        · rw [hlog, turns_append, picks_append, hturns, hpicks, hcalls, hemits,
            ← List.append_assoc, ChangeGate.passed_append, ChangeGate.passed_append, hnothing,
            List.append_nil, List.map_append, hn.turns, ChangeGate.passed_singleton]
        · rw [hlog, picks_append, hpicks, ← List.append_assoc, ChangeGate.held_append,
            navActs_concat]
          show Agrees ((navActs {} acts).onDevmgrMsg b).1.emitted _
          rw [hstate]
          exact hnext

/-- **Run lemma.** -/
theorem noted_run (acts : List NavAction) : Noted acts := by
  induction acts using List.reverseRecOn with
  | nil => exact ⟨rfl, rfl⟩
  | append_singleton acts a ih => exact ih.step a

/-! ## After a reset -/

/-- A burst that ends the messages heard is their last run. -/
theorem lastRun_burst (l : List Bytes) {burst : List Bytes} (hne : burst ≠ [])
    (hburst : IsBurst burst) : lastRun Continues (l ++ burst) = burst := by
  induction burst using List.reverseRecOn with
  | nil => exact absurd rfl hne
  | append_singleton b m ih =>
    rw [← List.append_assoc, LastRun.lastRun_concat]
    unfold LastRun.extend
    by_cases hb : b = []
    · -- the heading continues nothing
      subst hb
      have hzero : burstIdx m = 0 := UInt32.toNat_inj.mp hburst.last.idx
      rw [List.append_nil, List.nil_append]
      cases hlast : lastRun Continues l using List.reverseRecOn with
      | nil => rw [List.nil_append, ite_self]
      | append_singleton r c =>
        rw [List.getLast?_concat, if_neg]
        exact fun hcont => (hcont c rfl).1 hzero
    · obtain ⟨b', c, rfl⟩ := (List.eq_nil_or_concat b).resolve_left hb
      rw [List.concat_eq_append] at *
      rw [ih hb hburst.append_left, List.getLast?_concat, if_pos]
      intro c' hc'
      obtain rfl := Option.some_inj.mp hc'
      have hc := hburst.append_left.last.idx
      have hm := hburst.last.idx
      rw [List.length_append, List.length_singleton] at hm
      constructor
      · intro hzero
        rw [hzero, UInt32.toNat_zero] at hm
        omega
      · rw [UInt32.le_iff_toNat_le]
        omega

/-- Where a reset was requested and none is pending, the last one was taken by a message. -/
theorem exists_taken {acts : List NavAction} (hmem : .requestReset ∈ acts)
    (hreset : (navActs {} acts).resetReq = false) :
    ∃ acts₁ l₂, navLog acts = navLog acts₁ ++ .taken :: l₂ ∧ .taken ∉ l₂ := by
  induction acts using List.reverseRecOn with
  | nil => exact absurd hmem (by simp)
  | append_singleton acts a ih =>
    rw [navActs_concat] at hreset
    cases a with
    | requestReset => exact absurd hreset (by simp [NavState.act, NavState.requestReset])
    | msg b =>
      have hmem' : .requestReset ∈ acts := by simpa using hmem
      have hlog : navLog (acts ++ [.msg b]) = navLog acts ++ (navActs {} acts).events b :=
        navLog_concat acts (.msg b)
      -- the pick and the calls of a message are no resets
      have hnone : .taken ∉ (navActs {} acts).outcome b := by simp [NavState.outcome]
      by_cases hshort : b.length < kManeuverTextOff + 4
      · have hsame : (navActs {} acts).act (.msg b) = navActs {} acts := by
          show ((navActs {} acts).onDevmgrMsg b).1 = _
          unfold NavState.onDevmgrMsg
          rw [if_pos hshort]
        rw [hsame] at hreset
        obtain ⟨acts₁, l₂, hsplit, hlast⟩ := ih hmem' hreset
        refine ⟨acts₁, l₂, ?_, hlast⟩
        rw [hlog, NavState.events, if_pos hshort, List.append_nil, hsplit]
      · by_cases hpending : (navActs {} acts).resetReq = true
        · refine ⟨acts, (navActs {} acts).outcome b, ?_, hnone⟩
          rw [hlog, NavState.events, if_neg hshort, if_pos hpending]
          rfl
        · obtain ⟨acts₁, l₂, hsplit, hlast⟩ := ih hmem' (by simpa using hpending)
          refine ⟨acts₁, l₂ ++ (navActs {} acts).outcome b, ?_, ?_⟩
          · rw [hlog, NavState.events, if_neg hshort, if_neg hpending, hsplit, List.nil_append,
              List.append_assoc, List.cons_append]
          · exact fun h => (List.mem_append.mp h).elim hlast hnone

/-- Guidance for a listed maneuver picks it. -/
theorem picked_guidance {s : NavState} {burst : List Bytes} {g : Bytes} {head : UInt32}
    {e : BufManeuver} (hreset : s.resetReq = false)
    (hentries : s.buf.entries = burst.filterMap displayed) (hburst : IsBurst burst)
    (hg : IsGuidance head g) (he : entryOf burst head.toNat = some e) : s.picked g = some e := by
  have hne : msgType g ≠ kMtManeuver := by
    rw [hg.type]
    decide
  unfold NavState.picked NavState.guidancePick
  rw [if_neg (Nat.not_lt.mpr hg.long), if_neg hne, if_pos hg.type, takeReset_of_reset hreset,
    if_pos hg.count, hg.head, selectByHead_eq hentries hburst]
  unfold targetOf
  rw [he, Option.some_or]

/-- **Nothing is dropped and a reset re-arms.** In every run the calls of `hud_on_next_turn`
are the picks with equal neighbours collapsed, from reset to reset. Once a reset has been
taken and then a burst heard, guidance for one of its maneuvers ends with a call for that
maneuver made after the reset. -/
theorem turns_collapsed (acts : List NavAction) :
    turns (navLog acts) = (collapse Display.Same (picks (navLog acts))).map Display.turn ∧
    ∀ burst g head e, .requestReset ∈ acts → (heard acts).pending = false →
      burst <:+ (heard acts).maneuvers → IsBurst burst →
      (burst.filterMap displayed).length ≤ kMaxBurst → IsGuidance head g →
      entryOf burst head.toNat = some e →
      ∃ l₁ l₂, navLog (acts ++ [.msg g]) = l₁ ++ .taken :: l₂ ∧ .taken ∉ l₂ ∧
        (turns l₂).getLast? = some e.display.turn := by
  refine ⟨?_, ?_⟩
  · rw [(noted_run acts).turns, ChangeGate.passed_eq_collapse]
  intro burst g head e hmem hpending hsuffix hburst hroom hg he
  have hwindow := windowed_run acts
  have hreset : (navActs {} acts).resetReq = false := hwindow.pending.trans hpending
  have hne : burst ≠ [] := List.length_pos_iff.mp (Nat.lt_of_le_of_lt (Nat.zero_le _) (lt_of_entryOf he))
  obtain ⟨older, hmaneuvers⟩ := hsuffix
  have hentries : (navActs {} acts).buf.entries = burst.filterMap displayed := by
    rw [hwindow.entries, ← hmaneuvers, lastRun_burst older hne hburst, List.take_of_length_le hroom]
  have hpick := picked_guidance hreset hentries hburst hg he
  -- the run up to the message that took the reset, and what was noted since
  obtain ⟨acts₁, l₂, hlog, hlast⟩ := exists_taken hmem hreset
  have hevents : (navActs {} acts).events g =
      .pick e.display :: ((navActs {} acts).onDevmgrMsg g).2.map .call := by
    rw [NavState.events, if_neg (Nat.not_lt.mpr hg.long), if_neg (by simp [hreset]),
      NavState.outcome, hpick]
    rfl
  have hlog' : navLog (acts ++ [.msg g]) =
      navLog acts₁ ++ .taken :: (l₂ ++ (navActs {} acts).events g) := by
    rw [navLog_concat, hlog, List.append_assoc, List.cons_append]
    rfl
  refine ⟨_, _, hlog', ?_, ?_⟩
  · rw [hevents]
    simpa using hlast
  · -- the pick of `g` is the last one, and what is held then was passed behind the break
    have hpicks : picks (l₂ ++ (navActs {} acts).events g) = picks l₂ ++ [some e.display] := by
      have hcalls : picks (((navActs {} acts).onDevmgrMsg g).2.map .call) = [] := by
        unfold picks
        rw [List.filterMap_map, List.filterMap_eq_nil_iff]
        exact fun _ _ => rfl
      rw [picks_append, hevents]
      exact congrArg (fun l => picks l₂ ++ some e.display :: l) hcalls
    obtain ⟨d, hheld, hsame⟩ := ChangeGate.exists_held_concat Display.Same.refl none (picks l₂)
      e.display
    rw [← hpicks] at hheld
    have hpassed := ChangeGate.getLast?_passed hheld
    have hturns := (noted_run (acts ++ [.msg g])).turns
    rw [hlog', turns_append, picks_append, ChangeGate.passed_append, List.map_append,
      (noted_run acts₁).turns] at hturns
    have hsince := List.append_cancel_left hturns
    have hbreak (l : List NavEvent) : turns (.taken :: l) = turns l ∧
        ∀ h, passed Display.Same h (picks (.taken :: l)) = passed Display.Same none (picks l) := by
      refine ⟨rfl, fun h => ?_⟩
      cases h <;> rfl
    rw [(hbreak _).1, (hbreak _).2] at hsince
    rw [hsince, List.getLast?_map, hpassed, Option.map_some, hsame.turn_eq]

/-- A route, a wipe, and the same route again. -/
def sameRoute : List NavAction :=
  twoTurns.map .msg ++ [.msg (guidanceMsg 2), .requestReset] ++ twoTurns.map .msg

/-- Its turn is passed on again. -/
theorem turns_collapsed_same_route :
    ∃ l₁ l₂, navLog (sameRoute ++ [.msg (guidanceMsg 2)]) = l₁ ++ .taken :: l₂ ∧ .taken ∉ l₂ ∧
      (turns l₂).getLast? = some (bufManeuver (maneuverMsg 2 2)).display.turn :=
  (turns_collapsed sameRoute).2 twoTurns (guidanceMsg 2) 2 (bufManeuver (maneuverMsg 2 2))
    (by simp [sameRoute]) (by decide +kernel) (by decide +kernel) isBurst_twoTurns
    (by decide +kernel) isGuidance_two (by decide +kernel)

end OemAaMod.Carplay
