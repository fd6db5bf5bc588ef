import Mathlib.Data.Finset.Card
import Mathlib.Data.Fintype.Card
import OemAaMod.Touch.Send

/-!
# The lists a frame is made of

Each event of a frame lists contacts of one of the two snapshots: the survivors are
contacts of both, the fallen of the one before, the risen of the new one.

* `Leaves`, `Arrives` — what can happen in a slot; `categorise_falling` and
  `categorise_rising` say that the loop finds exactly these;
* `Lists` — a list with contacts of a snapshot, each slot once;
* `Lists.insert` — `insertSorted` adds a contact to such a list.
-/

namespace OemAaMod

/-! ## Slots -/

/-- The slots in use. -/
def MtState.live (m : MtState) : Finset Slot := Finset.univ.filter fun s => 0 ≤ m.id s

/-- The pointer id a contact is sent with. -/
def MtState.pointer (m : MtState) (s : Slot) : UInt32 := (m.id s).toUInt32

def MtState.contacts (m : MtState) : Finset UInt32 := m.live.image m.pointer

/-- No two contacts have one tracking id. -/
def MtState.Distinct (m : MtState) : Prop :=
  ∀ s ∈ m.live, ∀ t ∈ m.live, m.id s = m.id t → s = t

instance (m : MtState) : Decidable m.Distinct := inferInstanceAs (Decidable (∀ s ∈ m.live, _))

/-- The contact of the slot lifts, or another one takes its place. -/
def Leaves (prev cur : MtState) (s : Slot) : Prop := 0 ≤ prev.id s ∧ cur.id s ≠ prev.id s

/-- A contact lands in the slot. -/
def Arrives (prev cur : MtState) (s : Slot) : Prop := 0 ≤ cur.id s ∧ cur.id s ≠ prev.id s

def Stays (prev cur : MtState) (s : Slot) : Prop := 0 ≤ prev.id s ∧ cur.id s = prev.id s

instance (prev cur : MtState) : DecidablePred (Leaves prev cur) :=
  fun _ => inferInstanceAs (Decidable (_ ∧ _))

instance (prev cur : MtState) : DecidablePred (Arrives prev cur) :=
  fun _ => inferInstanceAs (Decidable (_ ∧ _))

instance (prev cur : MtState) : DecidablePred (Stays prev cur) :=
  fun _ => inferInstanceAs (Decidable (_ ∧ _))

/-- The contact of the slot stays, elsewhere. -/
def Moves (prev cur : MtState) (s : Slot) : Prop :=
  Stays prev cur s ∧ ((prev.finger s).x ≠ (cur.finger s).x ∨ (prev.finger s).y ≠ (cur.finger s).y)

instance (prev cur : MtState) : DecidablePred (Moves prev cur) :=
  fun _ => inferInstanceAs (Decidable (_ ∧ _))

variable {prev cur m : MtState} {s : Slot} {arr : List SnapEntry}

@[simp] theorem mem_live : s ∈ m.live ↔ 0 ≤ m.id s := by simp [MtState.live]

theorem MtState.Distinct.pointer_inj (h : m.Distinct) {t : Slot} (hs : 0 ≤ m.id s)
    (ht : 0 ≤ m.id t) (heq : m.pointer s = m.pointer t) : s = t :=
  h s (mem_live.mpr hs) t (mem_live.mpr ht) (congrArg Int32.ofUInt32 heq)

/-- A contact of the old snapshot stays or leaves. -/
theorem live_prev_iff : 0 ≤ prev.id s ↔ Stays prev cur s ∨ Leaves prev cur s := by
  unfold Stays Leaves
  tauto

/-- One of the new snapshot stayed or arrived. -/
theorem live_cur_iff : 0 ≤ cur.id s ↔ Stays prev cur s ∨ Arrives prev cur s := by
  unfold Stays Arrives
  constructor
  · intro h
    by_cases heq : cur.id s = prev.id s
    · exact .inl ⟨heq ▸ h, heq⟩
    · exact .inr ⟨h, heq⟩
  · rintro (⟨h, heq⟩ | ⟨h, -⟩)
    · exact heq ▸ h
    · exact h

/-! ## The loop over the slots -/

/-- **One slot.** It is empty in both snapshots, or its contact lands, lifts, is replaced
or stays. -/
theorem add_eq (t : Transitions) : t.add prev cur s =
    ⟨t.falling ++ if Leaves prev cur s then [s] else [],
      t.rising ++ if Arrives prev cur s then [s] else [],
      t.anyMoved || decide (Moves prev cur s)⟩ := by
  unfold Transitions.add
  dsimp only
  rcases Int32.lt_or_le (prev.id s) 0 with hp | hp
  · -- nothing was there, so nothing leaves or moves
    have hprev : ¬0 ≤ prev.id s := Int32.not_le.mpr hp
    have hleaves : ¬Leaves prev cur s := fun h => hprev h.1
    have hmoves : ¬Moves prev cur s := fun h => hprev h.1.1
    rcases Int32.lt_or_le (cur.id s) 0 with hc | hc
    · have harrives : ¬Arrives prev cur s := fun h => Int32.not_le.mpr hc h.1
      simp [hp, hc, hleaves, harrives, hmoves]
    · have hne : cur.id s ≠ prev.id s := fun heq => hprev (heq ▸ hc)
      have harrives : Arrives prev cur s := ⟨hc, hne⟩
      simp [hp, hc, Int32.not_lt.mpr hc, hleaves, harrives, hmoves]
  · have hprev : ¬prev.id s < 0 := Int32.not_lt.mpr hp
    rcases Int32.lt_or_le (cur.id s) 0 with hc | hc
    · -- the contact lifts
      have hcur : ¬0 ≤ cur.id s := Int32.not_le.mpr hc
      have hne : cur.id s ≠ prev.id s := fun heq => hprev (heq ▸ hc)
      have hleaves : Leaves prev cur s := ⟨hp, hne⟩
      have harrives : ¬Arrives prev cur s := fun h => hcur h.1
      have hmoves : ¬Moves prev cur s := fun h => hne h.1.2
      simp [hp, hc, hprev, hcur, hleaves, harrives, hmoves]
    · have hcur : ¬cur.id s < 0 := Int32.not_lt.mpr hc
      by_cases heq : cur.id s = prev.id s
      · -- the same contact: only its place can differ
        have hleaves : ¬Leaves prev cur s := fun h => h.2 heq
        have harrives : ¬Arrives prev cur s := fun h => h.2 heq
        have hmoves : Moves prev cur s ↔ (prev.finger s).x ≠ (cur.finger s).x ∨
            (prev.finger s).y ≠ (cur.finger s).y := and_iff_right ⟨hp, heq⟩
        by_cases hmoved : (prev.finger s).x ≠ (cur.finger s).x ∨
            (prev.finger s).y ≠ (cur.finger s).y
        · simp [hprev, heq, hleaves, harrives, hmoves.mpr hmoved, hmoved]
        · simp [hprev, heq, hleaves, harrives, mt hmoves.mp hmoved, hmoved]
      · -- another contact: a release and a landing
        have hleaves : Leaves prev cur s := ⟨hp, heq⟩
        have harrives : Arrives prev cur s := ⟨hc, heq⟩
        have hmoves : ¬Moves prev cur s := fun h => heq h.1.2
        simp [hprev, hcur, Ne.symm heq, hleaves, harrives, hmoves]

theorem foldl_add (slots : List Slot) (t : Transitions) :
    (slots.foldl (.add prev cur) t).falling = t.falling ++ slots.filter (Leaves prev cur) ∧
    (slots.foldl (.add prev cur) t).rising = t.rising ++ slots.filter (Arrives prev cur) := by
  induction slots generalizing t with
  | nil => simp
  | cons s slots ih =>
    obtain ⟨hf, hr⟩ := ih (t.add prev cur s)
    rw [List.foldl_cons, hf, hr, add_eq]
    constructor
    · by_cases h : Leaves prev cur s <;> simp [h]
    · by_cases h : Arrives prev cur s <;> simp [h]

theorem categorise_falling :
    (categorise prev cur).falling = (List.finRange kMaxFingers).filter (Leaves prev cur) :=
  (foldl_add (List.finRange kMaxFingers) {}).1

theorem categorise_rising :
    (categorise prev cur).rising = (List.finRange kMaxFingers).filter (Arrives prev cur) :=
  (foldl_add (List.finRange kMaxFingers) {}).2

theorem categorise_anyMoved :
    (categorise prev cur).anyMoved = true ↔ ∃ s, Moves prev cur s := by
  have hfold (slots : List Slot) (t : Transitions) :
      (slots.foldl (.add prev cur) t).anyMoved =
        (t.anyMoved || slots.any fun s => decide (Moves prev cur s)) := by
    induction slots generalizing t with
    | nil => simp
    | cons s slots ih => rw [List.foldl_cons, ih, add_eq, List.any_cons, Bool.or_assoc]
  unfold categorise
  rw [hfold]
  simp

/-! ## Lists of entries -/

def slots (arr : List SnapEntry) : List Slot := arr.map SnapEntry.slot

/-- The entries are contacts of `m`, no slot twice. -/
structure Lists (m : MtState) (arr : List SnapEntry) : Prop where
  ids   : ∀ e ∈ arr, e.fg.trackingId = m.id e.slot
  live  : ∀ e ∈ arr, 0 ≤ m.id e.slot
  nodup : (slots arr).Nodup

theorem Lists.pointers_eq (h : Lists m arr) : pointers arr = (slots arr).map m.pointer := by
  unfold pointers slots
  rw [List.map_map]
  refine List.map_congr_left fun e he => ?_
  show e.fg.trackingId.toUInt32 = (m.id e.slot).toUInt32
  rw [h.ids e he]

theorem Lists.live_of_mem (h : Lists m arr) (hs : s ∈ slots arr) : 0 ≤ m.id s := by
  obtain ⟨e, he, rfl⟩ := List.mem_map.mp hs
  exact h.live e he

theorem Lists.pointers_nodup (h : Lists m arr) (hm : m.Distinct) : (pointers arr).Nodup := by
  rw [h.pointers_eq]
  exact List.Nodup.map_on
    (fun _ hs _ ht heq => hm.pointer_inj (h.live_of_mem hs) (h.live_of_mem ht) heq) h.nodup

theorem Lists.length_le (h : Lists m arr) : arr.length ≤ kMaxFingers := by
  have hle := h.nodup.length_le_card
  rw [Fintype.card_fin, slots, List.length_map] at hle
  exact hle

/-- Its pointers are those of its slots. -/
theorem Lists.toFinset_pointers (h : Lists m arr) :
    (pointers arr).toFinset = (slots arr).toFinset.image m.pointer := by
  rw [h.pointers_eq]
  ext a
  simp

theorem Lists.pointer_mem (h : Lists m arr) (hm : m.Distinct) (hs : 0 ≤ m.id s) :
    m.pointer s ∈ (pointers arr).toFinset ↔ s ∈ slots arr := by
  rw [List.mem_toFinset, h.pointers_eq]
  constructor
  · intro hmem
    obtain ⟨t, ht, heq⟩ := List.mem_map.mp hmem
    exact hm.pointer_inj (h.live_of_mem ht) hs heq ▸ ht
  · exact List.mem_map_of_mem

/-! ## `insert_sorted` -/

variable {fg : Finger}

theorem insertSorted_perm : (insertSorted arr s fg).1.Perm (⟨s, fg⟩ :: arr) :=
  List.perm_insertIdx _ _ List.findIdx_le_length

theorem insertSorted_length : (insertSorted arr s fg).1.length = arr.length + 1 :=
  insertSorted_perm.length_eq

theorem insertSorted_pos_le : (insertSorted arr s fg).2 ≤ arr.length := List.findIdx_le_length

/-- The new entry is at the place returned. -/
theorem insertSorted_getElem? :
    (insertSorted arr s fg).1[(insertSorted arr s fg).2]? = some ⟨s, fg⟩ := by
  unfold insertSorted
  rw [List.getElem?_insertIdx_self, if_pos List.findIdx_le_length]

theorem slots_insertSorted : (slots (insertSorted arr s fg).1).Perm (s :: slots arr) :=
  insertSorted_perm.map _

/-- **Inserting a contact** of the same snapshot. -/
theorem Lists.insert (h : Lists m arr) (hs : 0 ≤ m.id s) (hnew : s ∉ slots arr) :
    Lists m (insertSorted arr s (m.finger s)).1 := by
  have hmem {e : SnapEntry} (he : e ∈ (insertSorted arr s (m.finger s)).1) :
      e = ⟨s, m.finger s⟩ ∨ e ∈ arr := List.mem_cons.mp (insertSorted_perm.mem_iff.mp he)
  refine ⟨?_, ?_, ?_⟩
  · intro e he
    rcases hmem he with rfl | he
    · rfl
    · exact h.ids e he
  · intro e he
    rcases hmem he with rfl | he
    · exact hs
    · exact h.live e he
  · exact slots_insertSorted.nodup_iff.mpr (List.nodup_cons.mpr ⟨hnew, h.nodup⟩)

/-! ## The survivors and the list of a move -/

theorem slots_buildSurvivors :
    slots (buildSurvivors prev cur) = (List.finRange kMaxFingers).filter (Stays prev cur) := by
  unfold slots buildSurvivors
  -- slot by slot: the source's test is `Stays`
  rw [List.map_filterMap, ← List.filterMap_eq_filter]
  refine List.filterMap_congr fun s _ => ?_
  by_cases h : Stays prev cur s
  · have h' : 0 ≤ prev.id s ∧ cur.id s = prev.id s := h
    simp [h, h', Option.guard]
  · have h' : ¬(0 ≤ prev.id s ∧ cur.id s = prev.id s) := h
    simp [h, h', Option.guard]

theorem mem_slots_buildSurvivors : s ∈ slots (buildSurvivors prev cur) ↔ Stays prev cur s := by
  rw [slots_buildSurvivors, List.mem_filter]
  simp

theorem mem_buildSurvivors {e : SnapEntry} (he : e ∈ buildSurvivors prev cur) :
    Stays prev cur e.slot ∧ e.fg = cur.finger e.slot := by
  obtain ⟨s, -, hs⟩ := List.mem_filterMap.mp he
  split at hs
  · rename_i hstays
    rw [Option.some_inj] at hs
    subst hs
    exact ⟨hstays, rfl⟩
  · exact absurd hs (by simp)

theorem nodup_buildSurvivors : (slots (buildSurvivors prev cur)).Nodup := by
  rw [slots_buildSurvivors]
  exact (List.nodup_finRange _).filter _

/-- The survivors are contacts of the new snapshot, -/
theorem buildSurvivors_lists_cur : Lists cur (buildSurvivors prev cur) := by
  refine ⟨?_, ?_, nodup_buildSurvivors⟩
  · intro e he
    rw [(mem_buildSurvivors he).2]
    rfl
  · intro e he
    exact live_cur_iff.mpr (.inl (mem_buildSurvivors he).1)

/-- and of the one before. -/
theorem buildSurvivors_lists_prev : Lists prev (buildSurvivors prev cur) := by
  refine ⟨?_, ?_, nodup_buildSurvivors⟩
  · intro e he
    obtain ⟨hstays, hfg⟩ := mem_buildSurvivors he
    rw [hfg]
    exact hstays.2
  · intro e he
    exact (mem_buildSurvivors he).1.1

theorem slots_moveSnap :
    slots (moveSnap cur) = (List.finRange kMaxFingers).filter fun s => decide (0 ≤ cur.id s) := by
  unfold slots moveSnap
  rw [List.map_filterMap, ← List.filterMap_eq_filter]
  refine List.filterMap_congr fun s _ => ?_
  by_cases h : cur.id s < 0
  · simp [h, Option.guard]
  · simp [h, Option.guard, Int32.not_lt.mp h]

theorem moveSnap_lists : Lists cur (moveSnap cur) := by
  refine ⟨?_, ?_, ?_⟩
  · intro e he
    obtain ⟨s, -, hs⟩ := List.mem_filterMap.mp he
    split at hs
    · exact absurd hs (by simp)
    · rw [Option.some_inj] at hs
      subst hs
      rfl
  · intro e he
    have hmem : e.slot ∈ slots (moveSnap cur) := List.mem_map_of_mem he
    rw [slots_moveSnap] at hmem
    simpa using hmem
  · rw [slots_moveSnap]
    exact (List.nodup_finRange _).filter _

end OemAaMod
