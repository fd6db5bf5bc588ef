import OemAaMod.Touch.Diff

/-!
# The touch stream

From a reset on, with video focus and sends that succeed, the receiver of the
events follows the contacts of the panel frame by frame — unless two of them leave
in one frame. The landings of a frame are listed one more each time, but each
leaving contact is listed with the survivors only, without the others that leave.

* `receive` — a receiver of at most ten pointers, on the events as they go out;
* `receive_frame` — a frame in which at most one contact leaves takes the receiver
  from the contacts before to the contacts after;
* `receive_frame_none` — any other frame is refused;
* `touch_stream_iff` — whole streams.
-/

namespace OemAaMod

/-- At most one contact lifts or is replaced. -/
def AtMostOneLeaves (prev cur : MtState) : Prop :=
  ∀ s t, Leaves prev cur s → Leaves prev cur t → s = t

instance : DecidableRel AtMostOneLeaves :=
  fun prev cur => inferInstanceAs (Decidable (∀ s t, Leaves prev cur s → Leaves prev cur t → s = t))

/-- What a receiver is told is down after the events, if it accepts them. -/
def receive (P : Finset UInt32) (es : List AapTouchEvent) : Option (Finset UInt32) :=
  Motion.run kMaxFingers P (es.map AapTouchEvent.motion)

/-- The events of one frame after another. -/
def touchStream (oem : OemTouch) : TouchSend → List MtState → List AapTouchEvent
  | _, [] => []
  | st, cur :: frames =>
    let (events, st') := touchOnFrame oem st cur
    events ++ touchStream oem st' frames

/-- The contacts on the panel after the frames. -/
def contactsAfter (frames : List MtState) : Finset UInt32 := (frames.getLastD noFingers).contacts

variable {prev cur m : MtState} {s : Slot} {arr : List SnapEntry} {P P' : Finset UInt32}

theorem receive_append {es fs : List AapTouchEvent} (h : receive P es = some P') :
    receive P (es ++ fs) = receive P' fs := by
  unfold receive
  rw [List.map_append]
  exact Motion.run_append_of_some h

/-! ## One event -/

/-- A list of all contacts of a snapshot. -/
theorem Lists.contacts_eq (h : Lists m arr) (hall : ∀ s, 0 ≤ m.id s → s ∈ slots arr) :
    (pointers arr).toFinset = m.contacts := by
  have hlive : (slots arr).toFinset = m.live := by
    ext s
    rw [List.mem_toFinset, mem_live]
    exact ⟨h.live_of_mem, hall s⟩
  rw [h.toFinset_pointers, hlive]
  rfl

theorem toFinset_pointers_insertSorted :
    (pointers (insertSorted arr s (m.finger s)).1).toFinset =
      insert (m.pointer s) (pointers arr).toFinset := by
  have hperm : (pointers (insertSorted arr s (m.finger s)).1).Perm
      (m.pointer s :: pointers arr) := insertSorted_perm.map _
  rw [List.toFinset_eq_of_perm _ _ hperm, List.toFinset_cons]

theorem pointers_insertSorted_getElem? :
    (pointers (insertSorted arr s (m.finger s)).1)[(insertSorted arr s (m.finger s)).2]? =
      some (m.pointer s) := by
  rw [pointers, List.getElem?_map, insertSorted_getElem?]
  rfl

/-- The event of a contact inserted into a list of others, as it is received. -/
theorem inserted_motion (h : Lists m arr) (hs : 0 ≤ m.id s) (hnew : s ∉ slots arr)
    (one more : AapTouchAction) :
    (sendEvent .ready (insertSorted arr s (m.finger s)).1
        (if (insertSorted arr s (m.finger s)).1.length = 1 then one else more)
        (if (insertSorted arr s (m.finger s)).1.length = 1 then 0
          else (insertSorted arr s (m.finger s)).2)).toList.map AapTouchEvent.motion =
      [⟨if (pointers (insertSorted arr s (m.finger s)).1).length = 1 then one else more,
        pointers (insertSorted arr s (m.finger s)).1, (insertSorted arr s (m.finger s)).2⟩] := by
  have hlen : (insertSorted arr s (m.finger s)).1.length = arr.length + 1 := insertSorted_length
  have hpos : (insertSorted arr s (m.finger s)).2 ≤ arr.length := insertSorted_pos_le
  have hle := (h.insert hs hnew).length_le
  -- a list of one has its contact at 0 anyway
  have hidx : (if (insertSorted arr s (m.finger s)).1.length = 1 then 0
      else (insertSorted arr s (m.finger s)).2) = (insertSorted arr s (m.finger s)).2 := by
    split
    · omega
    · rfl
  have hne : (insertSorted arr s (m.finger s)).1 ≠ [] := by
    intro hnil
    rw [hnil, List.length_nil] at hlen
    omega
  rw [hidx, sendEvent_motion _ hne hle (by omega), pointers, List.length_map]

/-! ## Step 1: what leaves -/

theorem mem_falling : s ∈ (categorise prev cur).falling ↔ Leaves prev cur s := by
  rw [categorise_falling, List.mem_filter]
  simp

theorem falling_nodup : (categorise prev cur).falling.Nodup := by
  rw [categorise_falling]
  exact (List.nodup_finRange _).filter _

theorem notMem_survivors_of_leaves (h : Leaves prev cur s) :
    s ∉ slots (buildSurvivors prev cur) := by
  intro hmem
  exact h.2 (mem_slots_buildSurvivors.mp hmem).2

/-- With at most one contact leaving, the receiver is left with the survivors. -/
theorem receive_falling (hprev : prev.Distinct) (hone : AtMostOneLeaves prev cur) :
    receive prev.contacts (fallingEvents .ready prev (buildSurvivors prev cur)
      (categorise prev cur).falling) = some (pointers (buildSurvivors prev cur)).toFinset := by
  have hlists : Lists prev (buildSurvivors prev cur) := buildSurvivors_lists_prev
  cases hf : (categorise prev cur).falling with
  | nil =>
    -- all the contacts survive
    have hall : ∀ s, 0 ≤ prev.id s → s ∈ slots (buildSurvivors prev cur) := by
      intro s hs
      rcases live_prev_iff.mp hs with hstays | hleaves
      · exact mem_slots_buildSurvivors.mpr hstays
      · have hmem := mem_falling.mpr hleaves
        rw [hf] at hmem
        exact absurd hmem (by simp)
    rw [hlists.contacts_eq hall]
    rfl
  | cons f rest =>
    have hnodup : (f :: rest).Nodup := hf ▸ falling_nodup
    have hleaves : Leaves prev cur f := mem_falling.mp (by simp [hf])
    -- only one contact leaves, and the list has no slot twice
    have hrest : rest = [] := by
      refine List.eq_nil_iff_forall_not_mem.mpr fun g hg => ?_
      have hg' : Leaves prev cur g := mem_falling.mp (by simp [hf, hg])
      exact (List.nodup_cons.mp hnodup).1 (hone f g hleaves hg' ▸ hg)
    subst hrest
    have hnew := notMem_survivors_of_leaves hleaves
    have hins := hlists.insert hleaves.1 hnew
    -- the survivors and the one that leaves are all there was
    have hall : ∀ s, 0 ≤ prev.id s → s ∈ slots (insertSorted (buildSurvivors prev cur) f
        (prev.finger f)).1 := by
      intro s hs
      rw [slots_insertSorted.mem_iff, List.mem_cons]
      rcases live_prev_iff.mp hs with hstays | hgone
      · exact .inr (mem_slots_buildSurvivors.mpr hstays)
      · exact .inl (hone s f hgone hleaves)
    have hnext := Motion.next_leave (m := kMaxFingers) (hins.pointers_nodup hprev)
      (by rw [pointers, List.length_map]; exact hins.length_le)
      pointers_insertSorted_getElem? (hins.contacts_eq hall)
    have hsurvivors : prev.contacts.erase (prev.pointer f) =
        (pointers (buildSurvivors prev cur)).toFinset := by
      rw [← hins.contacts_eq hall, toFinset_pointers_insertSorted, Finset.erase_insert]
      exact fun hmem => hnew ((hlists.pointer_mem hprev hleaves.1).mp hmem)
    unfold receive fallingEvents
    rw [List.flatMap_singleton]
    rw [inserted_motion hlists hleaves.1 hnew, Motion.run_cons, hnext, hsurvivors]
    rfl

/-- With two of them leaving, the first event does not list the second. -/
theorem receive_falling_none (hprev : prev.Distinct) (hmany : ¬AtMostOneLeaves prev cur) :
    receive prev.contacts (fallingEvents .ready prev (buildSurvivors prev cur)
      (categorise prev cur).falling) = none := by
  have hlists : Lists prev (buildSurvivors prev cur) := buildSurvivors_lists_prev
  -- two that leave: the first event lists the survivors and one of them
  obtain ⟨s, t, hs, ht, hne⟩ : ∃ s t, Leaves prev cur s ∧ Leaves prev cur t ∧ s ≠ t := by
    simpa [AtMostOneLeaves] using hmany
  cases hf : (categorise prev cur).falling with
  | nil =>
    have hmem := mem_falling.mpr hs
    rw [hf] at hmem
    exact absurd hmem (by simp)
  | cons f rest =>
    have hleaves : Leaves prev cur f := mem_falling.mp (by simp [hf])
    obtain ⟨g, hg, hgf⟩ : ∃ g, Leaves prev cur g ∧ g ≠ f := by
      by_cases hsf : s = f
      · exact ⟨t, ht, fun htf => hne (hsf.trans htf.symm)⟩
      · exact ⟨s, hs, hsf⟩
    have hnew := notMem_survivors_of_leaves hleaves
    have hins := hlists.insert hleaves.1 hnew
    have hrefused : Motion.next kMaxFingers prev.contacts
        ⟨if (pointers (insertSorted (buildSurvivors prev cur) f (prev.finger f)).1).length = 1
          then .up else .pointerUp,
          pointers (insertSorted (buildSurvivors prev cur) f (prev.finger f)).1,
          (insertSorted (buildSurvivors prev cur) f (prev.finger f)).2⟩ = none := by
      rw [Option.eq_none_iff_forall_ne_some]
      intro P' hP'
      have hact : (if (pointers (insertSorted (buildSurvivors prev cur) f
          (prev.finger f)).1).length = 1 then Motion.Action.up else .pointerUp) = .up ∨
          (if (pointers (insertSorted (buildSurvivors prev cur) f
            (prev.finger f)).1).length = 1 then Motion.Action.up else .pointerUp) = .pointerUp := by
        split
        · exact .inl rfl
        · exact .inr rfl
      have hlisted := Motion.listed_of_next_leave hact hP'
      -- so `g`, which is down, would have to be listed
      have hdown : prev.pointer g ∈ prev.contacts :=
        Finset.mem_image_of_mem _ (mem_live.mpr hg.1)
      rw [← hlisted] at hdown
      have hslot := (hins.pointer_mem hprev hg.1).mp hdown
      rw [slots_insertSorted.mem_iff, List.mem_cons] at hslot
      rcases hslot with hsame | hsurvives
      · exact hgf hsame
      · exact notMem_survivors_of_leaves hg hsurvives
    unfold receive fallingEvents
    rw [List.flatMap_cons, List.map_append]
    rw [inserted_motion hlists hleaves.1 hnew, List.singleton_append]
    exact Motion.run_cons_none hrefused

/-! ## Step 2: what arrives -/

/-- **The rising loop**, by induction on what is left of it: the receiver knows the
list so far, and then everything. -/
theorem receive_rising (hcur : cur.Distinct) (rising : List Slot) (inc : List SnapEntry)
    (hlists : Lists cur inc) (hlive : ∀ s ∈ rising, 0 ≤ cur.id s)
    (hnodup : (slots inc ++ rising).Nodup) :
    receive (pointers inc).toFinset (risingEvents .ready cur inc rising) =
      some ((slots inc ++ rising).toFinset.image cur.pointer) := by
  induction rising generalizing inc with
  | nil =>
    rw [List.append_nil, ← hlists.toFinset_pointers]
    rfl
  | cons s rising ih =>
    have hs : 0 ≤ cur.id s := hlive s List.mem_cons_self
    have hnew : s ∉ slots inc := by
      intro hmem
      exact (List.nodup_append.mp hnodup).2.2 s hmem s List.mem_cons_self rfl
    have hins := hlists.insert hs hnew
    have hperm : (slots (insertSorted inc s (cur.finger s)).1 ++ rising).Perm
        (slots inc ++ s :: rising) :=
      (slots_insertSorted.append_right rising).trans List.perm_middle.symm
    have hnext := Motion.next_land (m := kMaxFingers) (hins.pointers_nodup hcur)
      (by rw [pointers, List.length_map]; exact hins.length_le)
      pointers_insertSorted_getElem?
      (fun hmem => hnew ((hlists.pointer_mem hcur hs).mp hmem)) toFinset_pointers_insertSorted
    -- the event of this contact takes the receiver to the list with it
    have hevent : receive (pointers inc).toFinset
        (sendEvent .ready (insertSorted inc s (cur.finger s)).1
          (if (insertSorted inc s (cur.finger s)).1.length = 1 then .down else .pointerDown)
          (if (insertSorted inc s (cur.finger s)).1.length = 1 then 0
            else (insertSorted inc s (cur.finger s)).2)).toList =
        some (pointers (insertSorted inc s (cur.finger s)).1).toFinset := by
      unfold receive
      rw [inserted_motion hlists hs hnew, Motion.run_cons, hnext, toFinset_pointers_insertSorted]
      rfl
    calc receive (pointers inc).toFinset (risingEvents .ready cur inc (s :: rising))
        = receive (pointers (insertSorted inc s (cur.finger s)).1).toFinset
            (risingEvents .ready cur (insertSorted inc s (cur.finger s)).1 rising) :=
          receive_append hevent
      _ = some ((slots (insertSorted inc s (cur.finger s)).1 ++ rising).toFinset.image
            cur.pointer) :=
          ih _ hins (fun t ht => hlive t (List.mem_cons_of_mem _ ht)) (hperm.nodup_iff.mpr hnodup)
      _ = some ((slots inc ++ s :: rising).toFinset.image cur.pointer) := by
          rw [List.toFinset_eq_of_perm _ _ hperm]

theorem mem_rising : s ∈ (categorise prev cur).rising ↔ Arrives prev cur s := by
  rw [categorise_rising, List.mem_filter]
  simp

/-- The survivors and the risen are the new contacts. -/
theorem receive_rising_all (hcur : cur.Distinct) :
    receive (pointers (buildSurvivors prev cur)).toFinset
      (risingEvents .ready cur (buildSurvivors prev cur) (categorise prev cur).rising) =
        some cur.contacts := by
  have hnodup : (slots (buildSurvivors prev cur) ++ (categorise prev cur).rising).Nodup := by
    refine List.nodup_append.mpr ⟨nodup_buildSurvivors, ?_, ?_⟩
    · rw [categorise_rising]
      exact (List.nodup_finRange _).filter _
    · rintro s hs t ht rfl
      exact (mem_rising.mp ht).2 (mem_slots_buildSurvivors.mp hs).2
  have hall : (slots (buildSurvivors prev cur) ++ (categorise prev cur).rising).toFinset =
      cur.live := by
    ext s
    rw [List.mem_toFinset, List.mem_append, mem_slots_buildSurvivors, mem_rising, mem_live,
      live_cur_iff]
  rw [receive_rising hcur _ _ buildSurvivors_lists_cur (fun s hs => (mem_rising.mp hs).1) hnodup,
    hall]
  rfl

/-! ## A frame -/

/-- A move lists the contacts of the frame. -/
theorem receive_move (hcur : cur.Distinct) :
    receive cur.contacts (sendEvent .ready (moveSnap cur) .move 0).toList = some cur.contacts := by
  by_cases hnil : moveSnap cur = []
  · rw [hnil]
    rfl
  · have hlists : Lists cur (moveSnap cur) := moveSnap_lists
    have hall : ∀ s, 0 ≤ cur.id s → s ∈ slots (moveSnap cur) := by
      intro s hs
      rw [slots_moveSnap]
      simpa using hs
    have hne : pointers (moveSnap cur) ≠ [] := by simpa [pointers] using hnil
    have hnext := Motion.next_move (m := kMaxFingers) (i := 0) hne (hlists.pointers_nodup hcur)
      (by rw [pointers, List.length_map]; exact hlists.length_le) (hlists.contacts_eq hall)
    unfold receive
    rw [sendEvent_motion _ hnil hlists.length_le (Nat.zero_le _), Motion.run_cons, hnext]
    rfl

/-- **A frame in which at most one contact leaves.** -/
theorem receive_frame (hprev : prev.Distinct) (hcur : cur.Distinct)
    (hone : AtMostOneLeaves prev cur) :
    receive prev.contacts (frameEvents .ready prev cur) = some cur.contacts := by
  unfold frameEvents
  rw [receive_append ((receive_append (receive_falling hprev hone)).trans
    (receive_rising_all hcur))]
  split
  · exact receive_move hcur
  · rfl

/-- **Any other frame.** -/
theorem receive_frame_none (hprev : prev.Distinct) (hmany : ¬AtMostOneLeaves prev cur) :
    receive prev.contacts (frameEvents .ready prev cur) = none := by
  have hfirst := receive_falling_none hprev hmany
  unfold receive at hfirst ⊢
  unfold frameEvents
  rw [List.append_assoc, List.map_append, Motion.run_append, hfirst, Option.bind_none]

/-! ## Streams -/

theorem contacts_noFingers : noFingers.contacts = ∅ := by decide +kernel

theorem distinct_noFingers : noFingers.Distinct := by decide +kernel

/-- Nothing leaves an empty panel. -/
theorem atMostOneLeaves_noFingers : AtMostOneLeaves noFingers cur := by
  intro s t hs
  have hempty : ∀ s, ¬0 ≤ noFingers.id s := by decide +kernel
  exact absurd hs.1 (hempty s)

/-- After a reset the first frame is compared with an empty panel. -/
theorem touchStream_reset (oem : OemTouch) (st : TouchSend) (frames : List MtState) :
    touchStream oem (touchSendReset st) frames = touchStream oem ⟨noFingers, true⟩ frames := by
  cases frames with
  | nil => rfl
  | cons cur frames => rfl

/-- **Run lemma**, by induction on the frames: the receiver follows every prefix
exactly if each frame takes at most one contact away. -/
theorem receive_stream_iff (frames : List MtState) (prev : MtState) (hprev : prev.Distinct)
    (hdistinct : ∀ m ∈ frames, m.Distinct) :
    (∀ done, done <+: frames → receive prev.contacts (touchStream .ready ⟨prev, true⟩ done) =
      some (done.getLastD prev).contacts) ↔ (prev :: frames).IsChain AtMostOneLeaves := by
  induction frames generalizing prev with
  | nil =>
    constructor
    · intro _
      simp
    · intro _ done hdone
      rw [List.prefix_nil.mp hdone]
      rfl
  | cons cur frames ih =>
    have hcur : cur.Distinct := hdistinct cur List.mem_cons_self
    have hrest := ih cur hcur fun m hm => hdistinct m (List.mem_cons_of_mem _ hm)
    rw [List.isChain_cons_cons, ← hrest]
    constructor
    · -- the prefix of one frame decides about the first pair
      intro hall
      have hone : AtMostOneLeaves prev cur := by
        by_contra hmany
        have hframe := hall [cur] (List.prefix_append [cur] frames)
        have hstream : touchStream .ready ⟨prev, true⟩ [cur] = frameEvents .ready prev cur :=
          List.append_nil _
        rw [hstream, receive_frame_none hprev hmany] at hframe
        exact absurd hframe (by simp)
      refine ⟨hone, fun done hdone => ?_⟩
      have hnext := hall (cur :: done) (List.cons_prefix_cons.mpr ⟨rfl, hdone⟩)
      have happend : receive prev.contacts (touchStream .ready ⟨prev, true⟩ (cur :: done)) =
          receive cur.contacts (touchStream .ready ⟨cur, true⟩ done) :=
        receive_append (receive_frame hprev hcur hone)
      rw [happend, List.getLastD_cons] at hnext
      exact hnext
    · -- a prefix is empty, or starts with the first frame
      rintro ⟨hone, hall⟩ done hdone
      rcases List.prefix_cons_iff.mp hdone with rfl | ⟨done, rfl, hprefix⟩
      · rfl
      · have happend : receive prev.contacts (touchStream .ready ⟨prev, true⟩ (cur :: done)) =
            receive cur.contacts (touchStream .ready ⟨cur, true⟩ done) :=
          receive_append (receive_frame hprev hcur hone)
        rw [happend, List.getLastD_cons]
        exact hall done hprefix

/-- **The touch stream.** After a reset, with focus and sends that succeed: at every
frame of a sequence the receiver has accepted all events and knows exactly the
contacts, if and only if at most one contact leaves from each frame to the next. -/
theorem touch_stream_iff (st : TouchSend) (frames : List MtState)
    (hdistinct : ∀ m ∈ frames, m.Distinct) :
    (∀ done, done <+: frames → receive ∅ (touchStream .ready (touchSendReset st) done) =
      some (contactsAfter done)) ↔ frames.IsChain AtMostOneLeaves := by
  have hruns := receive_stream_iff frames noFingers distinct_noFingers hdistinct
  rw [contacts_noFingers] at hruns
  simp only [touchStream_reset]
  refine hruns.trans ?_
  cases frames with
  | nil => simp
  | cons cur frames =>
    rw [List.isChain_cons_cons]
    exact and_iff_right atMostOneLeaves_noFingers

/-- The panel with `n` contacts, in the first two slots. -/
def panel (a b : Int32) (n : Nat) : MtState :=
  ⟨(noFingers.fingers.set 0 ⟨a, 100, 100⟩).set 1 ⟨b, 300, 300⟩, n⟩

/-- Two fingers land together and lift one after the other. -/
theorem touch_stream_tap : receive ∅ (touchStream .ready (touchSendReset ⟨noFingers, false⟩)
    [panel 1 2 2, panel (-1) 2 1, noFingers]) = some ∅ :=
  (touch_stream_iff ⟨noFingers, false⟩ [panel 1 2 2, panel (-1) 2 1, noFingers]
    (by decide +kernel)).mpr (by decide +kernel) _ (List.prefix_refl _)

/-- Two fingers that lift together. -/
theorem two_lift_refused :
    ¬∀ st frames, (∀ m ∈ frames, m.Distinct) →
      ∀ done, done <+: frames → receive ∅ (touchStream .ready (touchSendReset st) done) =
        some (contactsAfter done) := by
  intro h
  have hlift := h ⟨noFingers, false⟩ [panel 1 2 2, noFingers] (by decide +kernel) _
    (List.prefix_refl _)
  have hrefused : receive ∅ (touchStream .ready (touchSendReset ⟨noFingers, false⟩)
      [panel 1 2 2, noFingers]) = none := by decide +kernel
  rw [hrefused] at hlift
  exact absurd hlift (by simp)

end OemAaMod
