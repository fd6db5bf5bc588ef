import OemAaMod.Touch.Stream

/-!
# Touch across changes of the video focus

`send_event` drops what happens while the phone's video is out of focus, but the
snapshot the next frame is compared with moves on all the same. So there are two
histories: what the panel has had, and what the phone was told.

* `focusStream` — the events delivered, with the focus changing between frames;
* `toldAfter` — the contacts that landed in focus and are still on the panel;
* `SafeFrom` — no such contact lifts out of focus, and in focus nothing happens
  beside a contact that landed out of it;
* `touch_focus_iff` — this is exactly when the phone gets a well-formed stream.
-/

namespace OemAaMod

/-- At most one contact lands or lifts; one that takes another's slot does both. -/
structure AtMostOneChanges (prev cur : MtState) : Prop where
  leaves  : AtMostOneLeaves prev cur
  arrives : ∀ s t, Arrives prev cur s → Arrives prev cur t → s = t
  one     : ∀ s t, Leaves prev cur s → ¬Arrives prev cur t

instance : DecidableRel AtMostOneChanges := fun prev cur =>
  decidable_of_iff (AtMostOneLeaves prev cur ∧
      (∀ s t, Arrives prev cur s → Arrives prev cur t → s = t) ∧
      ∀ s t, Leaves prev cur s → ¬Arrives prev cur t)
    ⟨fun h => ⟨h.1, h.2.1, h.2.2⟩, fun h => ⟨h.leaves, h.arrives, h.one⟩⟩

/-- Something lands, lifts or moves. -/
def Changes (prev cur : MtState) : Prop :=
  ∃ s, Leaves prev cur s ∨ Arrives prev cur s ∨ Moves prev cur s

instance (prev cur : MtState) : Decidable (Changes prev cur) :=
  inferInstanceAs (Decidable (∃ _, _))

/-- The OEM with sends that succeed, and with or without focus. -/
def OemTouch.focus (inFocus : Bool) : OemTouch := ⟨true, inFocus, true⟩

/-- The events delivered, frame after frame, each with the focus it finds. -/
def focusStream : TouchSend → List (Bool × MtState) → List AapTouchEvent
  | _, [] => []
  | st, (inFocus, cur) :: frames =>
    let (events, st') := touchOnFrame (.focus inFocus) st cur
    events ++ focusStream st' frames

/-! ## What the phone was told -/

/-- The contacts on the panel whose landing was in focus. -/
def toldAfter (inFocus : Bool) (prev cur : MtState) (told : Finset UInt32) : Finset UInt32 :=
  (told ∩ cur.contacts) ∪ if inFocus then cur.contacts \ prev.contacts else ∅

/-- Out of focus no contact lifts that the phone was told of; in focus nothing happens
unless it was told of all of them. -/
def SafeFrame (inFocus : Bool) (prev cur : MtState) (told : Finset UInt32) : Prop :=
  if inFocus then Changes prev cur → prev.contacts ⊆ told else told ⊆ cur.contacts

instance (inFocus : Bool) (prev cur : MtState) (told : Finset UInt32) :
    Decidable (SafeFrame inFocus prev cur told) := by
  unfold SafeFrame
  infer_instance

/-- Every frame is safe, from a panel `prev` on of which the phone was told `told`. -/
def SafeFrom : MtState → Finset UInt32 → List (Bool × MtState) → Prop
  | _, _, [] => True
  | prev, told, (inFocus, cur) :: frames =>
    SafeFrame inFocus prev cur told ∧ SafeFrom cur (toldAfter inFocus prev cur told) frames

instance decidableSafeFrom : ∀ prev told frames, Decidable (SafeFrom prev told frames)
  | _, _, [] => inferInstanceAs (Decidable True)
  | prev, told, (inFocus, cur) :: frames =>
    have := decidableSafeFrom cur (toldAfter inFocus prev cur told) frames
    inferInstanceAs (Decidable (_ ∧ _))

variable {prev cur : MtState} {told : Finset UInt32}

/-! ## One frame -/

theorem sendEvent_unfocused (entries : List SnapEntry) (action : AapTouchAction) (i : Nat) :
    sendEvent (.focus false) entries action i = none := by
  unfold sendEvent OemTouch.focus
  split
  · rfl
  · simp

/-- Out of focus nothing is delivered. -/
theorem frameEvents_unfocused (prev cur : MtState) :
    frameEvents (.focus false) prev cur = [] := by
  have hrising (inc : List SnapEntry) (rising : List Slot) :
      risingEvents (.focus false) cur inc rising = [] := by
    induction rising generalizing inc with
    | nil => rfl
    | cons s rising ih =>
      unfold risingEvents
      dsimp only
      rw [sendEvent_unfocused, ih]
      rfl
  have hfalling (survivors : List SnapEntry) (falling : List Slot) :
      fallingEvents (.focus false) prev survivors falling = [] := by
    unfold fallingEvents
    rw [List.flatMap_eq_nil_iff]
    intro s _
    dsimp only
    rw [sendEvent_unfocused]
    rfl
  unfold frameEvents
  dsimp only
  rw [hrising, hfalling, sendEvent_unfocused]
  simp

theorem sendEvent_ne_nil {entries : List SnapEntry} (action : AapTouchAction) (i : Nat)
    (hne : entries ≠ []) (hle : entries.length ≤ kMaxFingers) :
    (sendEvent .ready entries action i).toList ≠ [] := by
  have hpos : 0 < entries.length := List.length_pos_iff.mpr hne
  unfold sendEvent
  rw [dif_neg (by omega)]
  simp [OemTouch.ready]

/-- A contact inserted into a list of others is sent with them. -/
theorem sendEvent_insert_ne_nil {m : MtState} {s : Slot} {arr : List SnapEntry}
    (h : Lists m arr) (hs : 0 ≤ m.id s) (hnew : s ∉ slots arr) (action : AapTouchAction)
    (i : Nat) : (sendEvent .ready (insertSorted arr s (m.finger s)).1 action i).toList ≠ [] := by
  refine sendEvent_ne_nil action i ?_ (h.insert hs hnew).length_le
  intro hnil
  have hlen : (insertSorted arr s (m.finger s)).1.length = arr.length + 1 := insertSorted_length
  rw [hnil, List.length_nil] at hlen
  omega

theorem fallingEvents_ne_nil {s : Slot} (hs : Leaves prev cur s) :
    fallingEvents .ready prev (buildSurvivors prev cur) (categorise prev cur).falling ≠ [] := by
  unfold fallingEvents
  rw [Ne, List.flatMap_eq_nil_iff]
  intro hall
  exact sendEvent_insert_ne_nil buildSurvivors_lists_prev hs.1 (notMem_survivors_of_leaves hs) _ _
    (hall s (mem_falling.mpr hs))

theorem risingEvents_ne_nil {s : Slot} (hs : Arrives prev cur s) :
    risingEvents .ready cur (buildSurvivors prev cur) (categorise prev cur).rising ≠ [] := by
  -- the first of the risen is enough: its event is at the front
  cases hr : (categorise prev cur).rising with
  | nil =>
    have hmem := mem_rising.mpr hs
    rw [hr] at hmem
    exact absurd hmem (by simp)
  | cons r rest =>
    have harr : Arrives prev cur r := mem_rising.mp (by simp [hr])
    have hnew : r ∉ slots (buildSurvivors prev cur) := by
      intro hmem
      exact harr.2 (mem_slots_buildSurvivors.mp hmem).2
    unfold risingEvents
    intro hnil
    exact sendEvent_insert_ne_nil buildSurvivors_lists_cur harr.1 hnew _ _
      (List.append_eq_nil_iff.mp hnil).1

theorem moveEvent_ne_nil {s : Slot} (hs : Moves prev cur s) :
    (sendEvent .ready (moveSnap cur) .move 0).toList ≠ [] := by
  refine sendEvent_ne_nil .move 0 ?_ moveSnap_lists.length_le
  intro hnil
  have hmem : s ∈ slots (moveSnap cur) := by
    rw [slots_moveSnap]
    simpa using live_cur_iff.mpr (.inl hs.1)
  rw [hnil] at hmem
  exact absurd hmem (by simp [slots])

theorem falling_eq_nil : (categorise prev cur).falling = [] ↔ ∀ s, ¬Leaves prev cur s := by
  simp only [List.eq_nil_iff_forall_not_mem, mem_falling]

theorem rising_eq_nil : (categorise prev cur).rising = [] ↔ ∀ s, ¬Arrives prev cur s := by
  simp only [List.eq_nil_iff_forall_not_mem, mem_rising]

/-- In focus there is an event exactly if something happens. -/
theorem frameEvents_eq_nil_iff : frameEvents .ready prev cur = [] ↔ ¬Changes prev cur := by
  unfold frameEvents
  dsimp only
  rw [List.append_eq_nil_iff, List.append_eq_nil_iff]
  constructor
  · rintro ⟨⟨hfall, hrise⟩, hmove⟩ ⟨s, hleaves | harrives | hmoves⟩
    · exact fallingEvents_ne_nil hleaves hfall
    · exact risingEvents_ne_nil harrives hrise
    · -- a move goes out unless something else did
      have hnone : (categorise prev cur).falling = [] ∧ (categorise prev cur).rising = [] :=
        ⟨falling_eq_nil.mpr fun _ hl => fallingEvents_ne_nil hl hfall,
          rising_eq_nil.mpr fun _ ha => risingEvents_ne_nil ha hrise⟩
      rw [if_pos ⟨hnone.1, hnone.2, categorise_anyMoved.mpr ⟨s, hmoves⟩⟩] at hmove
      exact moveEvent_ne_nil hmoves hmove
  · intro hnone
    have hfall : (categorise prev cur).falling = [] :=
      falling_eq_nil.mpr fun s hs => hnone ⟨s, .inl hs⟩
    have hrise : (categorise prev cur).rising = [] :=
      rising_eq_nil.mpr fun s hs => hnone ⟨s, .inr (.inl hs)⟩
    have hmove : ¬(categorise prev cur).anyMoved = true := by
      rw [categorise_anyMoved]
      rintro ⟨s, hs⟩
      exact hnone ⟨s, .inr (.inr hs)⟩
    rw [hfall, hrise, if_neg fun h => hmove h.2.2]
    exact ⟨⟨rfl, rfl⟩, rfl⟩

/-- Where nothing happens the contacts are the same. -/
theorem contacts_eq_of_not_changes (h : ¬Changes prev cur) : cur.contacts = prev.contacts := by
  have hstays : ∀ s, 0 ≤ cur.id s ↔ Stays prev cur s := by
    intro s
    rw [live_cur_iff]
    exact or_iff_left fun ha => h ⟨s, .inr (.inl ha)⟩
  have hlive : cur.live = prev.live := by
    ext s
    have hold : 0 ≤ prev.id s ↔ Stays prev cur s ∨ Leaves prev cur s := live_prev_iff
    rw [mem_live, mem_live, hstays, hold]
    exact (or_iff_left fun hl => h ⟨s, .inl hl⟩).symm
  have hpointer : Set.EqOn cur.pointer prev.pointer cur.live := by
    intro s hs
    exact congrArg Int32.toUInt32 ((hstays s).mp (mem_live.mp hs)).2
  unfold MtState.contacts
  rw [Finset.image_congr hpointer, hlive]

theorem toldAfter_subset (inFocus : Bool) : toldAfter inFocus prev cur told ⊆ cur.contacts := by
  unfold toldAfter
  refine Finset.union_subset Finset.inter_subset_right ?_
  cases inFocus with
  | true => exact Finset.sdiff_subset
  | false => exact Finset.empty_subset _

/-- **A safe frame** leaves the receiver with the contacts that landed in focus. -/
theorem receive_safe {inFocus : Bool} (hprev : prev.Distinct) (hcur : cur.Distinct)
    (hone : AtMostOneLeaves prev cur) (htold : told ⊆ prev.contacts)
    (hsafe : SafeFrame inFocus prev cur told) :
    receive told (frameEvents (.focus inFocus) prev cur) =
      some (toldAfter inFocus prev cur told) := by
  cases inFocus with
  | false =>
    -- out of focus nothing is sent, so what the phone was told must still be there
    have hkept : told ⊆ cur.contacts := hsafe
    have hafter : toldAfter false prev cur told = told := by
      simp [toldAfter, Finset.inter_eq_left.mpr hkept]
    rw [frameEvents_unfocused, hafter]
    rfl
  | true =>
    have hwhole : Changes prev cur → prev.contacts ⊆ told := hsafe
    by_cases hchange : Changes prev cur
    · -- the phone was told of everything, so it follows as without focus changes
      have heq : told = prev.contacts := htold.antisymm (hwhole hchange)
      have hafter : toldAfter true prev cur told = cur.contacts := by
        rw [toldAfter, if_pos rfl, heq, Finset.inter_comm, Finset.union_comm,
          Finset.sdiff_union_inter]
      rw [hafter, heq]
      exact receive_frame hprev hcur hone
    · -- nothing happens: no event, and nothing to forget
      have hsame := contacts_eq_of_not_changes hchange
      have hafter : toldAfter true prev cur told = told := by
        simp [toldAfter, hsame, Finset.inter_eq_left.mpr htold]
      have hnone : frameEvents (.focus true) prev cur = [] := frameEvents_eq_nil_iff.mpr hchange
      rw [hafter, hnone]
      rfl

/-- **Any other frame** is refused, or leaves a pointer down whose finger is gone. -/
theorem receive_of_not_safe {inFocus : Bool} (hprev : prev.Distinct) (hcur : cur.Distinct)
    (hone : AtMostOneLeaves prev cur) (hbad : ¬SafeFrame inFocus prev cur told) :
    ¬∃ P, receive told (frameEvents (.focus inFocus) prev cur) = some P ∧ P ⊆ cur.contacts := by
  rintro ⟨P, hP, hsub⟩
  cases inFocus with
  | false =>
    rw [frameEvents_unfocused] at hP
    -- nothing was sent, so a finger that lifted is still down for the phone
    have heq : told = P := Option.some_inj.mp hP
    exact hbad (show told ⊆ cur.contacts from heq ▸ hsub)
  | true =>
    have hchange : Changes prev cur ∧ ¬prev.contacts ⊆ told := by
      simpa [SafeFrame] using hbad
    have haccepted : receive prev.contacts (frameEvents (.focus true) prev cur) =
        some cur.contacts := receive_frame hprev hcur hone
    cases hevents : frameEvents (.focus true) prev cur with
    | nil => exact frameEvents_eq_nil_iff.mp hevents hchange.1
    | cons e es =>
      -- the first event lists `prev.contacts`, whatever it is about
      rw [hevents] at hP haccepted
      obtain ⟨Q, hQ, -⟩ := Option.bind_eq_some_iff.mp hP
      obtain ⟨Q', hQ', -⟩ := Option.bind_eq_some_iff.mp haccepted
      exact hchange.2 (Motion.next_inj hQ hQ' ▸ subset_rfl)

/-! ## Streams -/

/-- After a reset the first frame is compared with an empty panel. -/
theorem focusStream_reset (st : TouchSend) (frames : List (Bool × MtState)) :
    focusStream (touchSendReset st) frames = focusStream ⟨noFingers, true⟩ frames := by
  cases frames with
  | nil => rfl
  | cons frame frames => rfl

/-- **Run lemma**, by induction on the frames; `told` is what the phone was told of the
contacts on the panel. -/
theorem receive_focusStream_iff (frames : List (Bool × MtState)) (prev : MtState)
    (told : Finset UInt32) (htold : told ⊆ prev.contacts) (hprev : prev.Distinct)
    (hdistinct : ∀ f ∈ frames, f.2.Distinct)
    (hchain : (prev :: frames.map Prod.snd).IsChain AtMostOneChanges) :
    (∀ done, done <+: frames → ∃ P, receive told (focusStream ⟨prev, true⟩ done) = some P ∧
      P ⊆ ((done.map Prod.snd).getLastD prev).contacts) ↔ SafeFrom prev told frames := by
  induction frames generalizing prev told with
  | nil =>
    constructor
    · intro _
      exact trivial
    · intro _ done hdone
      rw [List.prefix_nil.mp hdone]
      exact ⟨told, rfl, htold⟩
  | cons frame frames ih =>
    obtain ⟨inFocus, cur⟩ := frame
    have hcur : cur.Distinct := hdistinct (inFocus, cur) List.mem_cons_self
    obtain ⟨hone, hlater⟩ := List.isChain_cons_cons.mp hchain
    have hrest := ih cur (toldAfter inFocus prev cur told) (toldAfter_subset inFocus) hcur
      (fun f hf => hdistinct f (List.mem_cons_of_mem _ hf)) hlater
    have hnext (hsafe : SafeFrame inFocus prev cur told) (done : List (Bool × MtState)) :
        receive told (focusStream ⟨prev, true⟩ ((inFocus, cur) :: done)) =
          receive (toldAfter inFocus prev cur told) (focusStream ⟨cur, true⟩ done) :=
      receive_append (receive_safe hprev hcur hone.leaves htold hsafe)
    show _ ↔ SafeFrame inFocus prev cur told ∧
      SafeFrom cur (toldAfter inFocus prev cur told) frames
    rw [← hrest]
    constructor
    · -- the prefix of one frame shows that the first frame is safe
      intro hall
      have hsafe : SafeFrame inFocus prev cur told := by
        by_contra hbad
        have hframe := hall [(inFocus, cur)] (List.prefix_append [(inFocus, cur)] frames)
        have hstream : focusStream ⟨prev, true⟩ [(inFocus, cur)] =
            frameEvents (.focus inFocus) prev cur := List.append_nil _
        rw [hstream] at hframe
        exact receive_of_not_safe hprev hcur hone.leaves hbad hframe
      refine ⟨hsafe, fun done hdone => ?_⟩
      have hdone' := hall ((inFocus, cur) :: done) (List.cons_prefix_cons.mpr ⟨rfl, hdone⟩)
      rw [hnext hsafe, List.map_cons, List.getLastD_cons] at hdone'
      exact hdone'
    · rintro ⟨hsafe, hall⟩ done hdone
      rcases List.prefix_cons_iff.mp hdone with rfl | ⟨done, rfl, hprefix⟩
      · exact ⟨told, rfl, htold⟩
      · rw [hnext hsafe, List.map_cons, List.getLastD_cons]
        exact hall done hprefix

/-- **Touch across focus changes.** After a reset, with at most one contact landing or
lifting from each frame to the next: at every frame the receiver has accepted all that
was delivered, and has nothing down but contacts of the panel, if and only if every
frame is safe. -/
theorem touch_focus_iff (st : TouchSend) (frames : List (Bool × MtState))
    (hdistinct : ∀ f ∈ frames, f.2.Distinct)
    (hchain : (noFingers :: frames.map Prod.snd).IsChain AtMostOneChanges) :
    (∀ done, done <+: frames → ∃ P, receive ∅ (focusStream (touchSendReset st) done) = some P ∧
      P ⊆ contactsAfter (done.map Prod.snd)) ↔ SafeFrom noFingers ∅ frames := by
  simp only [focusStream_reset]
  exact receive_focusStream_iff frames noFingers ∅ (Finset.empty_subset _) distinct_noFingers
    hdistinct hchain

/-- A finger comes and goes in focus, and then another one out of it. -/
theorem touch_focus_tap : ∃ P, receive ∅ (focusStream (touchSendReset ⟨noFingers, false⟩)
    [(true, panel 1 (-1) 1), (true, noFingers), (false, panel 2 (-1) 1), (false, noFingers)]) =
      some P ∧ P ⊆ ∅ :=
  (touch_focus_iff ⟨noFingers, false⟩
    [(true, panel 1 (-1) 1), (true, noFingers), (false, panel 2 (-1) 1), (false, noFingers)]
    (by decide +kernel) (by decide +kernel)).mpr (by decide +kernel) _ (List.prefix_refl _)

/-- A finger that lands before the video has the focus: the phone gets an `UP` for a
pointer it never saw. -/
theorem unfocused_landing_refused :
    ¬∀ st frames, (∀ f ∈ frames, f.2.Distinct) →
      (noFingers :: frames.map Prod.snd).IsChain AtMostOneChanges →
      ∀ done, done <+: frames → ∃ P,
        receive ∅ (focusStream (touchSendReset st) done) = some P ∧
          P ⊆ contactsAfter (done.map Prod.snd) := by
  intro h
  obtain ⟨P, hP, -⟩ := h ⟨noFingers, false⟩ [(false, panel 1 (-1) 1), (true, noFingers)]
    (by decide +kernel) (by decide +kernel) _ (List.prefix_refl _)
  have hrefused : receive ∅ (focusStream (touchSendReset ⟨noFingers, false⟩)
      [(false, panel 1 (-1) 1), (true, noFingers)]) = none := by decide +kernel
  rw [hrefused] at hP
  exact absurd hP (by simp)

end OemAaMod
