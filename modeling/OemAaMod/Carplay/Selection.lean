import OemAaMod.Carplay.Nav

/-!
# Which maneuver is shown

A burst lists the maneuvers from index 0 on; guidance names the next one by its
index, or by that of the heading entry before it. The two kinds of message arrive
independently.

* `IsBurst` — the messages of one burst, in order;
* `entryOf` — the displayable maneuver at an index;
* `run_burst` — the window, and the display, all through a burst;
* `selection_of_guidance` — guidance that comes once its maneuver has been listed shows
  it, wherever in the burst; guidance that comes before changes nothing.
-/

namespace OemAaMod.Carplay

open CStr (Bytes CharBuf cstr)

/-! ## Messages -/

def navRun (s : NavState) (msgs : List Bytes) : NavState :=
  msgs.foldl (fun s b => (s.onDevmgrMsg b).1) s

/-- A maneuver message with the index `i`. -/
structure IsManeuver (i : Nat) (b : Bytes) : Prop where
  long : kManeuverTextOff + 4 ≤ b.length
  type : msgType b = kMtManeuver
  idx  : (burstIdx b).toNat = i

/-- The first messages of a burst, with the indices 0, 1, 2, ... -/
def IsBurst (msgs : List Bytes) : Prop := ∀ i (h : i < msgs.length), IsManeuver i msgs[i]

/-- A guidance message with a list, and its head. -/
structure IsGuidance (head : UInt32) (b : Bytes) : Prop where
  long  : kManeuverTextOff + 4 ≤ b.length
  type  : msgType b = kMtGuidance
  count : 0 < readU16 b kManListCntOff
  head  : readU16 b kManListOff = head

/-- The message, as it is buffered if it is displayable: not the heading, no context. -/
def displayed (b : Bytes) : Option BufManeuver :=
  if burstIdx b = 0 ∨ isContextType (readU32 b kManeuverTypeOff) = true then none
  else some (bufManeuver b)

/-- The displayable maneuver of the burst at an index. -/
def entryOf (msgs : List Bytes) (i : Nat) : Option BufManeuver := msgs[i]?.bind displayed

/-- The maneuver that a head stands for. -/
def targetOf (msgs : List Bytes) (head : UInt32) : Option BufManeuver :=
  (entryOf msgs head.toNat).or (entryOf msgs (head + 1).toNat)

/-! ### The window of a burst -/

theorem IsBurst.append_left {b c : List Bytes} (h : IsBurst (b ++ c)) : IsBurst b := by
  intro i hi
  have hman := h i (by rw [List.length_append]; omega)
  rwa [List.getElem_append_left hi] at hman

theorem IsBurst.last {b : List Bytes} {m : Bytes} (h : IsBurst (b ++ [m])) :
    IsManeuver b.length m := by
  have hman := h b.length (by simp)
  rwa [List.getElem_concat_length rfl] at hman

theorem displayed_idx {b : Bytes} {e : BufManeuver} (h : displayed b = some e) :
    e.idx = burstIdx b := by
  unfold displayed at h
  split at h
  · exact absurd h (by simp)
  · rw [← Option.some_inj.mp h]
    rfl

/-- In the window of a burst the entry with an index is the maneuver at that index. -/
theorem find?_window {b : List Bytes} (h : IsBurst b) (n : UInt32) :
    (b.filterMap displayed).find? (·.idx == n) = entryOf b n.toNat := by
  induction b using List.reverseRecOn with
  | nil => rfl
  | append_singleton b m ih =>
    have hidx := h.last.idx
    have hone : ([m].filterMap displayed).find? (·.idx == n) =
        if n.toNat = b.length then displayed m else none := by
      cases he : displayed m with
      | none => simp [he]
      | some e =>
        have heq : e.idx = n ↔ n.toNat = b.length := by
          rw [displayed_idx he, ← hidx, ← UInt32.toNat_inj]
          exact eq_comm
        simp [he, List.find?_singleton, heq]
    rw [List.filterMap_append, List.find?_append, ih h.append_left, hone]
    unfold entryOf
    rcases Nat.lt_trichotomy n.toNat b.length with hlt | heq | hgt
    · rw [List.getElem?_append_left hlt, if_neg (by omega), Option.or_none]
    · rw [if_pos heq, heq, List.getElem?_eq_none le_rfl, List.getElem?_concat_length]
      rfl
    · rw [if_neg (by omega), Option.or_none, List.getElem?_eq_none (by omega),
        List.getElem?_eq_none (by simp; omega)]

theorem selectByHead_eq {w : Window} {b : List Bytes} (hw : w.entries = b.filterMap displayed)
    (h : IsBurst b) (head : UInt32) : w.selectByHead head = targetOf b head := by
  unfold Window.selectByHead targetOf
  rw [hw, find?_window h, find?_window h]

theorem entryOf_append {b c : List Bytes} {i : Nat} (h : i < b.length) :
    entryOf (b ++ c) i = entryOf b i := by
  unfold entryOf
  rw [List.getElem?_append_left h]

theorem entryOf_eq_none {b : List Bytes} {i : Nat} (h : b.length ≤ i) : entryOf b i = none := by
  unfold entryOf
  rw [List.getElem?_eq_none h]
  rfl

/-- The heading is not displayed. -/
theorem displayed_heading {m : Bytes} (h : IsManeuver 0 m) : displayed m = none :=
  if_pos (.inl (UInt32.toNat_inj.mp h.idx))

theorem entryOf_zero {b : List Bytes} (h : IsBurst b) : entryOf b 0 = none := by
  cases b with
  | nil => rfl
  | cons m b => exact displayed_heading (h 0 (by simp))

theorem lt_of_entryOf {b : List Bytes} {i : Nat} {e : BufManeuver} (h : entryOf b i = some e) :
    i < b.length := by
  by_contra hge
  rw [entryOf_eq_none (by omega)] at h
  exact absurd h (by simp)

/-- An entry that is not displayable lists nothing. -/
theorem targetOf_concat {b : List Bytes} {m : Bytes} (hm : displayed m = none) (head : UInt32) :
    targetOf (b ++ [m]) head = targetOf b head := by
  have hsame (i : Nat) : entryOf (b ++ [m]) i = entryOf b i := by
    rcases Nat.lt_trichotomy i b.length with hlt | rfl | hgt
    · exact entryOf_append hlt
    · rw [entryOf_eq_none (le_refl b.length)]
      unfold entryOf
      rw [List.getElem?_concat_length]
      exact hm
    · have hlong : (b ++ [m]).length ≤ i := by
        rw [List.length_append]
        exact hgt
      rw [entryOf_eq_none hlong, entryOf_eq_none (Nat.le_of_lt hgt)]
  unfold targetOf
  rw [hsame, hsame]

/-- A maneuver is listed at its index. -/
theorem entryOf_idx {b : List Bytes} (hb : IsBurst b) {i : Nat} {e : BufManeuver}
    (h : entryOf b i = some e) : e.idx.toNat = i := by
  have hlt := lt_of_entryOf h
  unfold entryOf at h
  rw [List.getElem?_eq_getElem hlt, Option.bind_some] at h
  rw [displayed_idx h]
  exact (hb i hlt).idx

/-- A head that is not followed by index 0 is followed by the next index. -/
theorem toNat_succ {head : UInt32} (h : (head + 1).toNat ≠ 0) :
    (head + 1).toNat = head.toNat + 1 := by
  rw [UInt32.toNat_add] at h ⊢
  have hlt := head.toNat_lt
  simp only [UInt32.reduceToNat] at h ⊢
  omega

/-- The target is the maneuver at the head, or behind a head that is none. -/
theorem targetOf_cases {b : List Bytes} (hb : IsBurst b) {head : UInt32} {e : BufManeuver}
    (h : targetOf b head = some e) :
    entryOf b head.toNat = some e ∨
      entryOf b head.toNat = none ∧ (head + 1).toNat = head.toNat + 1 ∧
        entryOf b (head.toNat + 1) = some e := by
  unfold targetOf at h
  cases hhead : entryOf b head.toNat with
  | some e' =>
    rw [hhead, Option.some_or] at h
    exact .inl h
  | none =>
    rw [hhead, Option.none_or] at h
    have hne : (head + 1).toNat ≠ 0 := by
      intro hzero
      rw [hzero, entryOf_zero hb] at h
      exact absurd h (by simp)
    have hsucc := toNat_succ hne
    rw [hsucc] at h
    exact .inr ⟨rfl, hsucc, h⟩

/-- More of the burst does not change the target. -/
theorem targetOf_append {b c : List Bytes} (hb : IsBurst b) {head : UInt32} {e : BufManeuver}
    (h : targetOf b head = some e) : targetOf (b ++ c) head = some e := by
  unfold targetOf
  rcases targetOf_cases hb h with hhead | ⟨hnone, hsucc, hnext⟩
  · rw [entryOf_append (lt_of_entryOf hhead), hhead, Option.some_or]
  · have hlt := lt_of_entryOf hnext
    rw [entryOf_append (by omega), hnone, Option.none_or, hsucc, entryOf_append hlt, hnext]

/-- Before its target is listed a head has none. -/
theorem targetOf_take {b c : List Bytes} (hb : IsBurst (b ++ c)) {head : UInt32} {e : BufManeuver}
    (h : targetOf (b ++ c) head = some e) :
    (e.idx.toNat < b.length → targetOf b head = some e) ∧
      (b.length ≤ e.idx.toNat → targetOf b head = none) := by
  have hleft := hb.append_left
  have hsome (e' : BufManeuver) (h' : targetOf b head = some e') : e' = e := by
    have := targetOf_append (c := c) hleft h'
    rw [h] at this
    exact (Option.some_inj.mp this).symm
  constructor
  · -- listed already: the entry is among the first ones
    intro hlt
    unfold targetOf
    rcases targetOf_cases hb h with hhead | ⟨hnone, hsucc, hnext⟩
    · have hidx := entryOf_idx hb hhead
      rw [entryOf_append (by omega)] at hhead
      rw [hhead, Option.some_or]
    · have hidx := entryOf_idx hb hnext
      rw [entryOf_append (by omega)] at hnone hnext
      rw [hnone, Option.none_or, hsucc, hnext]
  · -- an entry found among the first ones would be `e`, which is not there yet
    intro hge
    cases hb' : targetOf b head with
    | none => rfl
    | some e' =>
      exfalso
      have he := hsome e' hb'
      subst he
      rcases targetOf_cases hleft hb' with hhead | ⟨-, -, hnext⟩
      · have hidx := entryOf_idx hleft hhead
        have hlt := lt_of_entryOf hhead
        omega
      · have hidx := entryOf_idx hleft hnext
        have hlt := lt_of_entryOf hnext
        omega

/-! ## The messages of a burst -/

/-- The maneuver is the one displayed, and the last one passed on. -/
def NavState.Shows (s : NavState) (e : BufManeuver) : Prop :=
  s.disp = e.display ∧ e.display.Same s.emitted

/-- Between two messages of a burst: its displayable maneuvers are in the window. -/
structure Follows (s : NavState) (b : List Bytes) : Prop where
  reset : s.resetReq = false
  buf   : s.buf.entries = b.filterMap displayed
  prev  : s.prevIdx.toNat + 1 = b.length

theorem same_ofStrncpy (d : Display) (src : Bytes) (h : d.road = .ofStrncpy 256 src) :
    d.Same { d with road := .ofStrncpy 256 d.road.bytes } := by
  refine ⟨rfl, rfl, rfl, rfl, ?_⟩
  have hcopy : (CharBuf.ofStrncpy 256 d.road.bytes).str = d.road.str.take 255 :=
    CharBuf.ofStrncpy_str (by decide) _
  have hroad : d.road.str = (cstr src).take 255 := by rw [h, CharBuf.ofStrncpy_str (by decide)]
  rw [hcopy, hroad, List.take_take, Nat.min_self]

/-- **Selection.** Display and emitted maneuver are the entry's; nothing else changes. -/
theorem emitSelection_spec (s : NavState) (im : BufManeuver) :
    (s.emitSelection im).1.Shows im ∧ (s.emitSelection im).1.buf = s.buf ∧
      (s.emitSelection im).1.prevIdx = s.prevIdx ∧
      (s.emitSelection im).1.resetReq = s.resetReq ∧
      (s.emitSelection im).1.lastHead = s.lastHead ∧
      (s.emitSelection im).1.lastHeadValid = s.lastHeadValid := by
  unfold NavState.emitSelection
  dsimp only
  by_cases hsame : im.display.Same s.emitted
  · rw [if_neg (not_not.mpr hsame)]
    exact ⟨⟨rfl, hsame⟩, rfl, rfl, rfl, rfl, rfl⟩
  · rw [if_pos hsame]
    exact ⟨⟨rfl, same_ofStrncpy _ _ rfl⟩, rfl, rfl, rfl, rfl, rfl⟩

theorem onDevmgrMsg_maneuver {s : NavState} {i : Nat} {m : Bytes} (hm : IsManeuver i m) :
    s.onDevmgrMsg m = s.takeReset.onManeuver m := by
  unfold NavState.onDevmgrMsg
  rw [if_neg (Nat.not_lt.mpr hm.long)]
  exact if_pos hm.type

theorem takeReset_of_reset {s : NavState} (h : s.resetReq = false) : s.takeReset = s := by
  unfold NavState.takeReset
  rw [if_neg (by simp [h])]

/-- The heading opens a burst. -/
theorem follows_heading (s : NavState) {m : Bytes} (hm : IsManeuver 0 m) :
    (s.onDevmgrMsg m).1 = { s.takeReset with prevIdx := 0, buf := {} } ∧
      Follows (s.onDevmgrMsg m).1 [m] := by
  have hidx : burstIdx m = 0 := UInt32.toNat_inj.mp hm.idx
  have hnext : (s.onDevmgrMsg m).1 = { s.takeReset with prevIdx := 0, buf := {} } := by
    rw [onDevmgrMsg_maneuver hm]
    unfold NavState.onManeuver
    simp [hidx]
  refine ⟨hnext, ?_⟩
  rw [hnext]
  refine ⟨?_, ?_, rfl⟩
  · show s.takeReset.resetReq = false
    unfold NavState.takeReset
    split
    · rfl
    · rename_i h
      simpa using h
  · simp [displayed, hidx]

/-- What a message of the burst does to the display: it repaints what the last head
stands for by now, if it is a displayable one. -/
def repaint (s : NavState) (b : List Bytes) (m : Bytes) : Option BufManeuver :=
  if s.lastHeadValid ∧ (displayed m).isSome then targetOf (b ++ [m]) s.lastHead else none

/-- **Step lemma of a burst.** -/
theorem follows_step {s : NavState} {b : List Bytes} {m : Bytes} (h : Follows s b) (hb : b ≠ [])
    (hburst : IsBurst (b ++ [m])) (hroom : ((b ++ [m]).filterMap displayed).length ≤ kMaxBurst) :
    Follows (s.onDevmgrMsg m).1 (b ++ [m]) ∧
      (s.onDevmgrMsg m).1.lastHead = s.lastHead ∧
      (s.onDevmgrMsg m).1.lastHeadValid = s.lastHeadValid ∧
      match repaint s b m with
      | some e => (s.onDevmgrMsg m).1.Shows e
      | none => (s.onDevmgrMsg m).1.disp = s.disp ∧ (s.onDevmgrMsg m).1.emitted = s.emitted := by
  have hm := hburst.last
  have hpos : 0 < b.length := List.length_pos_iff.mpr hb
  -- not the heading, and no index going back: the window stays
  have hidx : burstIdx m ≠ 0 := by
    intro hzero
    have := hm.idx
    rw [hzero] at this
    simp only [UInt32.toNat_zero] at this
    omega
  have hprev : ¬burstIdx m < s.prevIdx := by
    rw [UInt32.lt_iff_toNat_lt, hm.idx]
    have := h.prev
    omega
  rw [onDevmgrMsg_maneuver hm, takeReset_of_reset h.reset]
  unfold NavState.onManeuver
  dsimp only
  rw [if_neg (not_or.mpr ⟨hidx, hprev⟩)]
  have hcount : (burstIdx m).toNat + 1 = (b ++ [m]).length := by
    rw [hm.idx, List.length_append, List.length_singleton]
  by_cases hcontext : isContextType (readU32 m kManeuverTypeOff) = true
  · -- a context entry only moves the index on
    have hnone : displayed m = none := if_pos (.inr hcontext)
    have hkeep : repaint s b m = none := if_neg (by simp [hnone])
    rw [if_pos (.inr hcontext), hkeep]
    refine ⟨⟨h.reset, ?_, hcount⟩, rfl, rfl, rfl, rfl⟩
    rw [List.filterMap_append, List.filterMap_cons_none hnone]
    exact h.buf.trans (List.append_nil _).symm
  · have hsome : displayed m = some (bufManeuver m) := if_neg (not_or.mpr ⟨hidx, hcontext⟩)
    have hwindow : (b ++ [m]).filterMap displayed = b.filterMap displayed ++ [bufManeuver m] := by
      rw [List.filterMap_append, List.filterMap_cons_some hsome, List.filterMap_nil]
    have hlt : s.buf.entries.length < kMaxBurst := by
      rw [hwindow, List.length_append, ← h.buf] at hroom
      exact hroom
    rw [if_neg (not_or.mpr ⟨hidx, hcontext⟩), dif_pos hlt]
    have hpush : (s.buf.push (bufManeuver m) hlt).entries = (b ++ [m]).filterMap displayed := by
      rw [hwindow, ← h.buf]
      rfl
    -- with a head from before the window is searched again at once
    by_cases hvalid : s.lastHeadValid = true
    · have hpaint : repaint s b m = targetOf (b ++ [m]) s.lastHead :=
        if_pos ⟨hvalid, by rw [hsome]; rfl⟩
      rw [if_pos hvalid, hpaint]
      unfold NavState.emitHead
      dsimp only
      rw [selectByHead_eq hpush hburst]
      cases targetOf (b ++ [m]) s.lastHead with
      | none => exact ⟨⟨h.reset, hpush, hcount⟩, rfl, rfl, rfl, rfl⟩
      | some e =>
        obtain ⟨hshows, hbuf, hidx, hreset, hhead, hheadValid⟩ := emitSelection_spec
          { s with prevIdx := burstIdx m, buf := s.buf.push (bufManeuver m) hlt } e
        refine ⟨⟨hreset.trans h.reset, ?_, ?_⟩, hhead, hheadValid, hshows⟩
        · rw [hbuf]
          exact hpush
        · rw [hidx]
          exact hcount
    · have hkeep : repaint s b m = none := if_neg fun h => hvalid h.1
      rw [if_neg hvalid, hkeep]
      exact ⟨⟨h.reset, hpush, hcount⟩, rfl, rfl, rfl, rfl⟩

theorem navRun_append (s : NavState) (b c : List Bytes) :
    navRun s (b ++ c) = navRun (navRun s b) c := List.foldl_append

theorem navRun_concat (s : NavState) (b : List Bytes) (m : Bytes) :
    navRun s (b ++ [m]) = ((navRun s b).onDevmgrMsg m).1 := navRun_append s b [m]

/-- **The display through a burst.** It stays as it was until what the last head stands
for is listed, and shows that from then on. -/
theorem run_burst (s : NavState) {msgs : List Bytes} (hne : msgs ≠ []) (hburst : IsBurst msgs)
    (hroom : (msgs.filterMap displayed).length ≤ kMaxBurst) :
    Follows (navRun s msgs) msgs ∧
      (navRun s msgs).lastHead = s.takeReset.lastHead ∧
      (navRun s msgs).lastHeadValid = s.takeReset.lastHeadValid ∧
      match if s.takeReset.lastHeadValid then targetOf msgs s.takeReset.lastHead else none with
      | some e => (navRun s msgs).Shows e
      | none => (navRun s msgs).disp = s.disp ∧
          (navRun s msgs).emitted = s.takeReset.emitted := by
  induction msgs using List.reverseRecOn with
  | nil => exact absurd rfl hne
  | append_singleton b m ih =>
    rw [navRun_concat]
    by_cases hb : b = []
    · subst hb
      -- the heading alone: an empty window
      obtain ⟨hnext, hfollows⟩ := follows_heading s hburst.last
      have hnone : targetOf ([] ++ [m]) s.takeReset.lastHead = none := by
        rw [targetOf_concat (displayed_heading hburst.last)]
        rfl
      rw [show navRun s [] = s from rfl, hnext, hnone, ite_self]
      rw [hnext] at hfollows
      refine ⟨hfollows, rfl, rfl, ?_, rfl⟩
      show s.takeReset.disp = s.disp
      unfold NavState.takeReset
      split <;> rfl
    · have hroom' : (b.filterMap displayed).length ≤ kMaxBurst := by
        rw [List.filterMap_append, List.length_append] at hroom
        omega
      obtain ⟨hfollows, hhead, hvalid, hdisp⟩ := ih hb hburst.append_left hroom'
      obtain ⟨hfollows', hhead', hvalid', hdisp'⟩ := follows_step hfollows hb hburst hroom
      refine ⟨hfollows', hhead'.trans hhead, hvalid'.trans hvalid, ?_⟩
      unfold repaint at hdisp'
      rw [hhead, hvalid] at hdisp'
      by_cases hv : s.takeReset.lastHeadValid = true
      · rw [if_pos hv] at hdisp ⊢
        cases hm : displayed m with
        | none =>
          -- nothing to list: the display is the one before
          rw [if_neg (by simp [hm])] at hdisp'
          obtain ⟨hdisp', hemitted'⟩ := hdisp'
          rw [targetOf_concat hm]
          cases ht : targetOf b s.takeReset.lastHead with
          | some e =>
            rw [ht] at hdisp
            exact ⟨hdisp'.trans hdisp.1, by rw [hemitted']; exact hdisp.2⟩
          | none =>
            rw [ht] at hdisp
            exact ⟨hdisp'.trans hdisp.1, hemitted'.trans hdisp.2⟩
        | some e₀ =>
          rw [if_pos ⟨hv, by rw [hm]; rfl⟩] at hdisp'
          cases ht : targetOf (b ++ [m]) s.takeReset.lastHead with
          | some e =>
            rw [ht] at hdisp'
            exact hdisp'
          | none =>
            rw [ht] at hdisp'
            -- what is not listed by now was not before
            have hbefore : targetOf b s.takeReset.lastHead = none := by
              by_contra hsome
              obtain ⟨e, he⟩ := Option.ne_none_iff_exists'.mp hsome
              rw [targetOf_append hburst.append_left he] at ht
              exact absurd ht (by simp)
            rw [hbefore] at hdisp
            exact ⟨hdisp'.1.trans hdisp.1, hdisp'.2.trans hdisp.2⟩
      · rw [if_neg hv] at hdisp ⊢
        rw [if_neg fun h => hv h.1] at hdisp'
        exact ⟨hdisp'.1.trans hdisp.1, hdisp'.2.trans hdisp.2⟩

/-! ## Guidance -/

/-- **Guidance in a burst.** It shows what its head stands for by now, and is ignored if
that is not listed yet. -/
theorem guidance_step {s : NavState} {b : List Bytes} {g : Bytes} {head : UInt32}
    (hg : IsGuidance head g) (h : Follows s b) (hburst : IsBurst b) :
    (∀ e, targetOf b head = some e → Follows (s.onDevmgrMsg g).1 b ∧
      (s.onDevmgrMsg g).1.Shows e ∧ (s.onDevmgrMsg g).1.lastHead = head ∧
      (s.onDevmgrMsg g).1.lastHeadValid = true) ∧
    (targetOf b head = none → (s.onDevmgrMsg g).1 = s) := by
  have hne : msgType g ≠ kMtManeuver := by
    rw [hg.type]
    decide
  -- no reset is pending inside a burst
  have hcall : s.onDevmgrMsg g = s.onGuidance g := by
    unfold NavState.onDevmgrMsg
    rw [if_neg (Nat.not_lt.mpr hg.long), takeReset_of_reset h.reset]
    dsimp only
    rw [if_neg hne, if_pos hg.type]
  rw [hcall]
  unfold NavState.onGuidance
  dsimp only
  rw [if_pos hg.count, hg.head, selectByHead_eq h.buf hburst]
  constructor
  · -- a match is displayed, and the head kept for later
    intro e he
    rw [he]
    obtain ⟨hshows, hbuf, hidx, hreset, hhead, hvalid⟩ :=
      emitSelection_spec { s with lastHead := head, lastHeadValid := true } e
    refine ⟨⟨hreset.trans h.reset, ?_, ?_⟩, hshows, hhead, hvalid⟩
    · rw [hbuf]
      exact h.buf
    · rw [hidx]
      exact h.prev
  · -- without a match the head is dropped too
    intro hnone
    rw [hnone]

theorem room_append_left {b c : List Bytes}
    (h : ((b ++ c).filterMap displayed).length ≤ kMaxBurst) :
    (b.filterMap displayed).length ≤ kMaxBurst := by
  rw [List.filterMap_append, List.length_append] at h
  omega

/-- What the last head stands for stays on display to the end of the burst. -/
theorem shows_stays {e : BufManeuver} (c : List Bytes) :
    ∀ (s : NavState) (b : List Bytes), Follows s b → b ≠ [] → IsBurst (b ++ c) →
      ((b ++ c).filterMap displayed).length ≤ kMaxBurst → s.lastHeadValid = true →
      targetOf b s.lastHead = some e → s.Shows e → (navRun s c).Shows e := by
  induction c with
  | nil => exact fun s b _ _ _ _ _ _ hshows => hshows
  | cons m c ih =>
    intro s b h hb hburst hroom hvalid htarget hshows
    rw [List.append_cons] at hburst hroom
    obtain ⟨hfollows, hhead', hvalid', hdisp⟩ :=
      follows_step h hb hburst.append_left (room_append_left hroom)
    have htarget' : targetOf (b ++ [m]) s.lastHead = some e :=
      targetOf_append hburst.append_left.append_left htarget
    -- a displayable message repaints, with the same entry; another one changes nothing
    have hshows' : (s.onDevmgrMsg m).1.Shows e := by
      unfold repaint at hdisp
      by_cases hlisted : (displayed m).isSome = true
      · rw [if_pos ⟨hvalid, hlisted⟩, htarget'] at hdisp
        exact hdisp
      · rw [if_neg fun h => hlisted h.2] at hdisp
        exact ⟨hdisp.1.trans hshows.1, by rw [hdisp.2]; exact hshows.2⟩
    refine ih _ (b ++ [m]) hfollows (by simp) hburst hroom (hvalid'.trans hvalid) ?_ hshows'
    rw [hhead']
    exact htarget'

/-- A maneuver message of type `mtype`, without a road or a text. -/
def maneuverMsg (idx mtype : UInt8) : Bytes :=
  [0x59, 0x80, 0, 0] ++ List.replicate 0x1c 0 ++ [0, 0, idx, 0] ++ List.replicate 0x104 0 ++
    [mtype, 0, 0, 0]

/-- A guidance message with `head` alone in its list. -/
def guidanceMsg (head : UInt8) : Bytes :=
  [0x58, 0x80, 0, 0] ++ List.replicate 0x454 0 ++ [head, 0] ++ List.replicate 0x1fc 0 ++ [1, 0]

/-- The heading, a left turn and a right turn. -/
def twoTurns : List Bytes := [maneuverMsg 0 11, maneuverMsg 1 1, maneuverMsg 2 2]

theorem isBurst_twoTurns : IsBurst twoTurns := by
  have h₀ : IsManeuver 0 (maneuverMsg 0 11) := by constructor <;> decide +kernel
  have h₁ : IsManeuver 1 (maneuverMsg 1 1) := by constructor <;> decide +kernel
  have h₂ : IsManeuver 2 (maneuverMsg 2 2) := by constructor <;> decide +kernel
  intro i hi
  match i, hi with
  | 0, _ => exact h₀
  | 1, _ => exact h₁
  | 2, _ => exact h₂

theorem isGuidance_two : IsGuidance 2 (guidanceMsg 2) where
  long := by decide +kernel
  type := by decide +kernel
  count := by decide +kernel
  head := by decide +kernel

/-- Guidance for the second turn, one message early. -/
theorem early_guidance_lost : ¬∀ s msgs g head e k, IsBurst msgs →
    (msgs.filterMap displayed).length ≤ kMaxBurst → IsGuidance head g →
      targetOf msgs head = some e → 1 ≤ k → k ≤ msgs.length →
        (navRun s (msgs.take k ++ g :: msgs.drop k)).disp = (navRun s (msgs ++ [g])).disp := by
  intro h
  have hsame := h {} twoTurns (guidanceMsg 2) 2 (bufManeuver (maneuverMsg 2 2)) 2 isBurst_twoTurns
    (by decide +kernel) isGuidance_two (by decide +kernel) (by decide) (by decide)
  exact absurd hsame (by decide +kernel)

/-- **Guidance and a burst, in any order.** From any state: guidance at any point behind its
maneuver ends with that maneuver, just as behind the whole burst. Guidance before it is
ignored; the burst alone leaves what the head before it stands for, or the old display. -/
theorem selection_of_guidance (s : NavState) (msgs : List Bytes) (hburst : IsBurst msgs)
    (hroom : (msgs.filterMap displayed).length ≤ kMaxBurst) (g : Bytes) (head : UInt32)
    (hg : IsGuidance head g) (e : BufManeuver) (he : targetOf msgs head = some e) :
    (navRun s (msgs ++ [g])).Shows e ∧
    ∀ k, 1 ≤ k → k ≤ msgs.length →
      (e.idx.toNat < k → (navRun s (msgs.take k ++ g :: msgs.drop k)).Shows e) ∧
      (k ≤ e.idx.toNat → navRun s (msgs.take k ++ g :: msgs.drop k) = navRun s msgs ∧
        match if s.takeReset.lastHeadValid then targetOf msgs s.takeReset.lastHead else none with
        | some e' => (navRun s msgs).Shows e'
        | none => (navRun s msgs).disp = s.disp) := by
  have hmain : ∀ k, 1 ≤ k → k ≤ msgs.length →
      (e.idx.toNat < k → (navRun s (msgs.take k ++ g :: msgs.drop k)).Shows e) ∧
      (k ≤ e.idx.toNat → navRun s (msgs.take k ++ g :: msgs.drop k) = navRun s msgs) := by
    intro k hk hle
    -- the burst is cut where the guidance comes in
    have hlen : (msgs.take k).length = k := List.length_take_of_le hle
    have hne : msgs.take k ≠ [] := List.length_pos_iff.mp (by omega)
    have hsplit : msgs.take k ++ msgs.drop k = msgs := List.take_append_drop k msgs
    have hburst' : IsBurst (msgs.take k ++ msgs.drop k) := by rwa [hsplit]
    have hroom' : ((msgs.take k ++ msgs.drop k).filterMap displayed).length ≤ kMaxBurst := by
      rwa [hsplit]
    have he' : targetOf (msgs.take k ++ msgs.drop k) head = some e := by rwa [hsplit]
    obtain ⟨hlisted, hunlisted⟩ := targetOf_take hburst' he'
    rw [hlen] at hlisted hunlisted
    obtain ⟨hfollows, -⟩ := run_burst s hne hburst'.append_left (room_append_left hroom')
    obtain ⟨hshown, hignored⟩ := guidance_step hg hfollows hburst'.append_left
    have hrun : navRun s (msgs.take k ++ g :: msgs.drop k) =
        navRun ((navRun s (msgs.take k)).onDevmgrMsg g).1 (msgs.drop k) := navRun_append ..
    rw [hrun]
    constructor
    · -- selected at once, and kept through the rest of the burst
      intro hlt
      obtain ⟨hfollows', hshows, hhead, hvalid⟩ := hshown e (hlisted hlt)
      refine shows_stays _ _ _ hfollows' hne hburst' hroom' hvalid ?_ hshows
      rw [hhead]
      exact hlisted hlt
    · -- no match yet: as if it had not come
      intro hge
      rw [hignored (hunlisted hge), ← navRun_append, hsplit]
  have hlt : e.idx.toNat < msgs.length := by
    rcases targetOf_cases hburst he with hhead | ⟨-, -, hnext⟩
    · rw [entryOf_idx hburst hhead]
      exact lt_of_entryOf hhead
    · rw [entryOf_idx hburst hnext]
      exact lt_of_entryOf hnext
  constructor
  · -- behind the burst everything is listed
    have hend := (hmain msgs.length (by omega) le_rfl).1 hlt
    rwa [List.take_length, List.drop_length] at hend
  · intro k hk hle
    refine ⟨(hmain k hk hle).1, fun hge => ⟨(hmain k hk hle).2 hge, ?_⟩⟩
    obtain ⟨-, -, -, hdisp⟩ :=
      run_burst s (List.length_pos_iff.mp (Nat.lt_of_le_of_lt (Nat.zero_le _) hlt)) hburst hroom
    split at hdisp
    · exact hdisp
    · exact hdisp.1

/-- Guidance for the first turn right behind it; the display ends with a left turn. -/
theorem selection_of_guidance_two_turns :
    (navRun {} [maneuverMsg 0 11, maneuverMsg 1 1, guidanceMsg 1, maneuverMsg 2 2]).disp.side =
      SIDE_LEFT := by
  have hg : IsGuidance 1 (guidanceMsg 1) := by constructor <;> decide +kernel
  have hshows := (selection_of_guidance {} twoTurns isBurst_twoTurns (by decide +kernel)
    (guidanceMsg 1) 1 hg (bufManeuver (maneuverMsg 1 1)) (by decide +kernel)).2 2 (by decide)
    (by decide)
  have hdisp := (hshows.1 (by decide +kernel)).1
  have hmsgs : twoTurns.take 2 ++ guidanceMsg 1 :: twoTurns.drop 2 =
      [maneuverMsg 0 11, maneuverMsg 1 1, guidanceMsg 1, maneuverMsg 2 2] := rfl
  rw [hmsgs] at hdisp
  rw [hdisp]
  decide +kernel

end OemAaMod.Carplay
