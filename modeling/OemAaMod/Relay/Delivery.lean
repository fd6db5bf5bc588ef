import OemAaMod.Relay.Paths

/-!
# Every update exactly once, or not at all

The invariant of the two paths: what is delivered is what its path makes of its
frame, no frame is in two places, and where a combination carries a version's
updates each of them is in some place.

* `turns_lost_to_hook` — a phone that keeps speaking 1.5 under the hook gets
  nothing on the HUD;
* `delivered_once_iff` — nothing is delivered twice, and the updates of a session
  are delivered exactly in the combinations of `Carries`.
-/

namespace OemAaMod

/-- The delivery is what its path makes of the frame. -/
def DeliveredAs (cfg : RelayConfig) (f : NavFrame) : Delivery → Prop
  | .callback c => ∃ e, cfg.routeMessage f = some e ∧ ourNavCb cfg.hudFoldLatin false e = some c
  | .sink c => hudNav16Feed hudSink (f.raw.take AA_NAV16_MAX_FRAME) = some c

/-- Nothing is in flight. -/
def Quiescent (s : RelayState) : Prop := s.dgrams = [] ∧ s.events = []

instance (s : RelayState) : Decidable (Quiescent s) := inferInstanceAs (Decidable (_ ∧ _))

/-- The places of the frames in flight or delivered. -/
def RelayState.places (s : RelayState) : List Nat :=
  s.dgrams.map Prod.fst ++ (s.events.map Prod.fst ++ s.log.map Prod.fst)

structure RelayInv (cfg : RelayConfig) (v : GalVersion) (s : RelayState) : Prop where
  spoken   : ∀ f ∈ s.sent, Speaks v f
  seen     : s.seen = true → cfg.hook = true
  dgrams   : ∀ x ∈ s.dgrams, cfg.hook = true ∧ cfg.listening = true ∧
    ∃ f, s.sent[x.1]? = some f ∧ relayFrame f.raw = some x.2
  events   : ∀ x ∈ s.events, cfg.hook = false ∧
    ∃ f, s.sent[x.1]? = some f ∧ cfg.routeMessage f = some x.2
  log      : ∀ x ∈ s.log, ∃ f, s.sent[x.1]? = some f ∧ DeliveredAs cfg f x.2 ∧
    (IsUpdate f → Carries cfg v)
  nodup    : s.places.Nodup
  /-- No update is lost on the way. -/
  complete : Carries cfg v → ∀ i f, s.sent[i]? = some f → IsUpdate f → i ∈ s.places

variable {cfg : RelayConfig} {v : GalVersion} {s s' : RelayState}

theorem relayInv_init : RelayInv cfg v {} :=
  ⟨fun _ h => absurd h (by simp), fun h => absurd h (by simp), fun _ h => absurd h (by simp),
    fun _ h => absurd h (by simp), fun _ h => absurd h (by simp), List.nodup_nil,
    fun _ _ _ h => absurd h (by simp)⟩

theorem lookup_append {sent : List NavFrame} {f g : NavFrame} {i : Nat}
    (h : sent[i]? = some g) : (sent ++ [f])[i]? = some g := by
  have hlt : i < sent.length := (List.getElem?_eq_some_iff.mp h).1
  rw [List.getElem?_append_left hlt]
  exact h

theorem RelayInv.places_lt (hinv : RelayInv cfg v s) : ∀ i ∈ s.places, i < s.sent.length := by
  intro i hi
  have hfound {f : NavFrame} (h : s.sent[i]? = some f) : i < s.sent.length :=
    (List.getElem?_eq_some_iff.mp h).1
  unfold RelayState.places at hi
  rcases List.mem_append.mp hi with hi | hi
  · obtain ⟨x, hx, rfl⟩ := List.mem_map.mp hi
    obtain ⟨-, -, f, hf, -⟩ := hinv.dgrams x hx
    exact hfound hf
  · rcases List.mem_append.mp hi with hi | hi
    · obtain ⟨x, hx, rfl⟩ := List.mem_map.mp hi
      obtain ⟨-, f, hf, -⟩ := hinv.events x hx
      exact hfound hf
    · obtain ⟨x, hx, rfl⟩ := List.mem_map.mp hi
      obtain ⟨f, hf, -⟩ := hinv.log x hx
      exact hfound hf

/-! ## The phone -/

/-- A frame that goes nowhere. -/
theorem relayInv_dropped (hinv : RelayInv cfg v s) {f : NavFrame} (hspeaks : Speaks v f)
    (hlost : Carries cfg v → ¬IsUpdate f) : RelayInv cfg v { s with sent := s.sent ++ [f] } := by
  refine ⟨?_, hinv.seen, ?_, ?_, ?_, hinv.nodup, ?_⟩
  · intro g hg
    rcases List.mem_append.mp hg with hg | hg
    · exact hinv.spoken g hg
    · rw [List.mem_singleton] at hg
      exact hg ▸ hspeaks
  · intro x hx
    obtain ⟨hhook, hlistening, g, hg, hrelay⟩ := hinv.dgrams x hx
    exact ⟨hhook, hlistening, g, lookup_append hg, hrelay⟩
  · intro x hx
    obtain ⟨hhook, g, hg, hroute⟩ := hinv.events x hx
    exact ⟨hhook, g, lookup_append hg, hroute⟩
  · intro x hx
    obtain ⟨g, hg, hrest⟩ := hinv.log x hx
    exact ⟨g, lookup_append hg, hrest⟩
  · intro hcarries i g hg hupd
    have hg : (s.sent ++ [f])[i]? = some g := hg
    rcases Nat.lt_or_ge i s.sent.length with hlt | hge
    · rw [List.getElem?_append_left hlt] at hg
      exact hinv.complete hcarries i g hg hupd
    · -- the new frame itself
      rw [List.getElem?_append_right hge] at hg
      have hmem : g ∈ [f] := List.mem_of_getElem? hg
      rw [List.mem_singleton] at hmem
      exact absurd (hmem ▸ hupd) (hlost hcarries)

/-- A frame put in flight, in one of the two queues: `places` gains its place. -/
theorem relayInv_inFlight (hinv : RelayInv cfg v s) {f : NavFrame} (hspeaks : Speaks v f)
    (hsent : s'.sent = s.sent ++ [f]) (hseen : s'.seen = s.seen) (hlog : s'.log = s.log)
    (hdgrams : ∀ x ∈ s'.dgrams, x ∈ s.dgrams ∨ (x.1 = s.sent.length ∧ cfg.hook = true ∧
      cfg.listening = true ∧ relayFrame f.raw = some x.2))
    (hevents : ∀ x ∈ s'.events, x ∈ s.events ∨ (x.1 = s.sent.length ∧ cfg.hook = false ∧
      cfg.routeMessage f = some x.2))
    (hplaces : s'.places.Perm (s.sent.length :: s.places)) : RelayInv cfg v s' := by
  have hnew : s'.sent[s.sent.length]? = some f := by
    rw [hsent]
    exact List.getElem?_concat_length
  have hold {i : Nat} {g : NavFrame} (h : s.sent[i]? = some g) : s'.sent[i]? = some g := by
    rw [hsent]
    exact lookup_append h
  refine ⟨?_, fun h => hinv.seen (hseen ▸ h), ?_, ?_, ?_, ?_, ?_⟩
  · intro g hg
    rw [hsent] at hg
    rcases List.mem_append.mp hg with hg | hg
    · exact hinv.spoken g hg
    · rw [List.mem_singleton] at hg
      exact hg ▸ hspeaks
  · intro x hx
    rcases hdgrams x hx with hx | ⟨hplace, hhook, hlistening, hrelay⟩
    · obtain ⟨hhook, hlistening, g, hg, hrelay⟩ := hinv.dgrams x hx
      exact ⟨hhook, hlistening, g, hold hg, hrelay⟩
    · exact ⟨hhook, hlistening, f, hplace ▸ hnew, hrelay⟩
  · intro x hx
    rcases hevents x hx with hx | ⟨hplace, hhook, hroute⟩
    · obtain ⟨hhook, g, hg, hroute⟩ := hinv.events x hx
      exact ⟨hhook, g, hold hg, hroute⟩
    · exact ⟨hhook, f, hplace ▸ hnew, hroute⟩
  · intro x hx
    rw [hlog] at hx
    obtain ⟨g, hg, hrest⟩ := hinv.log x hx
    exact ⟨g, hold hg, hrest⟩
  · rw [hplaces.nodup_iff, List.nodup_cons]
    exact ⟨fun h => Nat.lt_irrefl _ (hinv.places_lt _ h), hinv.nodup⟩
  · intro hcarries i g hg hupd
    rw [hplaces.mem_iff]
    rcases Nat.lt_trichotomy i s.sent.length with hlt | heq | hgt
    · rw [hsent, List.getElem?_append_left hlt] at hg
      exact List.mem_cons_of_mem _ (hinv.complete hcarries i g hg hupd)
    · rw [heq]
      exact List.mem_cons_self ..
    · have hlt := (List.getElem?_eq_some_iff.mp hg).1
      rw [hsent, List.length_append, List.length_singleton] at hlt
      omega

theorem relayInv_phone (hroute : OemRoutes cfg.routeMessage) (hinv : RelayInv cfg v s)
    {f : NavFrame} (hspeaks : Speaks v f) :
    RelayInv cfg v { s.route cfg f with sent := s.sent ++ [f] } := by
  have hswallows : swallows f.id := swallows_of_speaks hspeaks
  unfold RelayState.route
  by_cases hhook : cfg.hook = true
  · rw [if_pos ⟨hhook, hswallows⟩]
    obtain ⟨dgram, hrelay⟩ := relayFrame_raw f
    rw [hrelay]
    -- with a listener the datagram is queued, without one `sendto` loses it
    by_cases hlistening : cfg.listening = true
    · refine relayInv_inFlight hinv hspeaks rfl rfl rfl ?_ (fun x hx => .inl hx) ?_
      · intro x hx
        have hx : x ∈ if cfg.listening then s.dgrams ++ [(s.sent.length, dgram)] else s.dgrams := hx
        rw [if_pos hlistening] at hx
        rcases List.mem_append.mp hx with hx | hx
        · exact .inl hx
        · rw [List.mem_singleton] at hx
          subst hx
          exact .inr ⟨rfl, hhook, hlistening, hrelay⟩
      · show ((if cfg.listening then s.dgrams ++ [(s.sent.length, dgram)] else s.dgrams).map Prod.fst ++
          _).Perm _
        rw [if_pos hlistening, List.map_append, List.append_assoc]
        exact List.perm_middle
    · -- nobody is bound to the socket
      have hsame : (if cfg.listening then s.dgrams ++ [(s.sent.length, dgram)] else s.dgrams) =
          s.dgrams := if_neg hlistening
      simp only [hsame]
      refine relayInv_dropped hinv hspeaks ?_
      rintro (⟨hno, -⟩ | ⟨-, hyes, -⟩)
      · exact absurd (hhook.symm.trans hno) (by simp)
      · exact absurd hyes hlistening
  · rw [if_neg (fun h => hhook h.1)]
    have hoff : cfg.hook = false := by simpa using hhook
    -- without the hook the frame goes to the OEM's endpoint
    cases hmsg : cfg.routeMessage f with
    | some e =>
      refine relayInv_inFlight hinv hspeaks rfl rfl rfl (fun x hx => .inl hx) ?_ ?_
      · intro x hx
        rcases List.mem_append.mp hx with hx | hx
        · exact .inl hx
        · rw [List.mem_singleton] at hx
          subst hx
          exact .inr ⟨rfl, hoff, hmsg⟩
      · show (s.dgrams.map Prod.fst ++ ((s.events ++ [(s.sent.length, e)]).map Prod.fst ++
          s.log.map Prod.fst)).Perm _
        rw [List.map_append, List.append_assoc, ← List.append_assoc]
        refine List.perm_middle.trans ?_
        rw [List.append_assoc]
        exact List.Perm.refl _
    | none =>
      refine relayInv_dropped hinv hspeaks ?_
      -- the OEM makes an event of every 1.5 update, and 1.6 is not carried without the hook
      rintro (⟨-, rfl⟩ | ⟨hno, -⟩) hupd
      · obtain ⟨e, he, -⟩ := route_v15 hroute hspeaks hupd
        exact absurd (hmsg.symm.trans he) (by simp)
      · exact absurd hno hhook

/-! ## The ends of the paths -/

/-- A frame comes out of one of the queues: it is delivered, or it was no update. -/
theorem relayInv_out (hinv : RelayInv cfg v s) {i : Nat} {f : NavFrame} (d? : Option Delivery)
    (hf : s.sent[i]? = some f) (hsent : s'.sent = s.sent) (hseen : s'.seen = true → cfg.hook = true)
    (hdgrams : ∀ x ∈ s'.dgrams, x ∈ s.dgrams) (hevents : ∀ x ∈ s'.events, x ∈ s.events)
    (hlog : s'.log = s.log ++ (d?.map fun d => (i, d)).toList)
    (hplaces : s.places.Perm (i :: (s'.dgrams.map Prod.fst ++ (s'.events.map Prod.fst ++
      s.log.map Prod.fst))))
    (hd : ∀ d ∈ d?, DeliveredAs cfg f d ∧ (IsUpdate f → Carries cfg v))
    (hnone : d? = none → Carries cfg v → ¬IsUpdate f) : RelayInv cfg v s' := by
  refine ⟨by rw [hsent]; exact hinv.spoken, hseen, ?_, ?_, ?_, ?_, ?_⟩
  · intro x hx
    rw [hsent]
    exact hinv.dgrams x (hdgrams x hx)
  · intro x hx
    rw [hsent]
    exact hinv.events x (hevents x hx)
  · intro x hx
    rw [hlog] at hx
    rw [hsent]
    rcases List.mem_append.mp hx with hx | hx
    · exact hinv.log x hx
    · rw [Option.mem_toList, Option.map_eq_some_iff] at hx
      obtain ⟨d, hmem, rfl⟩ := hx
      exact ⟨f, hf, hd d hmem⟩
  · -- the place moves from its queue to the log, or is gone
    have hnodup := hplaces.nodup_iff.mp hinv.nodup
    unfold RelayState.places
    rw [hlog]
    cases d? with
    | none =>
      rw [Option.map_none, Option.toList_none, List.append_nil]
      exact (List.nodup_cons.mp hnodup).2
    | some d =>
      have hperm : (s'.dgrams.map Prod.fst ++ (s'.events.map Prod.fst ++
          (s.log ++ [(i, d)]).map Prod.fst)).Perm (i :: (s'.dgrams.map Prod.fst ++
            (s'.events.map Prod.fst ++ s.log.map Prod.fst))) := by
        rw [List.map_append, ← List.append_assoc, ← List.append_assoc, ← List.append_assoc]
        exact List.perm_append_singleton i _
      exact hperm.nodup_iff.mpr hnodup
  · intro hcarries j g hg hupd
    rw [hsent] at hg
    have hmem := hplaces.mem_iff.mp (hinv.complete hcarries j g hg hupd)
    unfold RelayState.places
    rw [hlog, List.map_append]
    -- the frame that comes out, or another one, which stays where it is
    rcases List.mem_cons.mp hmem with rfl | hmem
    · cases d? with
      | none =>
        have hsame : f = g := Option.some_inj.mp (hf.symm.trans hg)
        exact absurd (hsame ▸ hupd) (hnone rfl hcarries)
      | some d => simp
    · simp only [List.mem_append] at hmem ⊢
      tauto

theorem relayInv_rx (hinv : RelayInv cfg v s) (hstep : relayStep cfg s .rx = some s') :
    RelayInv cfg v s' := by
  simp only [relayStep] at hstep
  split at hstep
  · exact absurd hstep (by simp)
  · rename_i i dgram dgrams hq
    obtain ⟨hhook, hlistening, f, hf, hrelay⟩ := hinv.dgrams (i, dgram) (by simp [hq])
    have hf : s.sent[i]? = some f := hf
    have hspeaks : Speaks v f := hinv.spoken f (List.mem_of_getElem? hf)
    rw [rxRecv_relayFrame hrelay, Option.some_inj] at hstep
    subst hstep
    refine relayInv_out hinv ((hudNav16Feed hudSink (f.raw.take AA_NAV16_MAX_FRAME)).map .sink)
      hf rfl (fun _ => hhook) ?_ (fun _ hx => hx) ?_ ?_ ?_ ?_
    · intro x hx
      rw [hq]
      exact List.mem_cons_of_mem _ hx
    · show s.log ++ ((hudNav16Feed hudSink _).map fun c => (i, Delivery.sink c)).toList = _
      rw [Option.map_map]
      rfl
    · unfold RelayState.places
      rw [hq]
      exact List.Perm.refl _
    · intro d hd
      obtain ⟨c, hc, rfl⟩ := Option.map_eq_some_iff.mp hd
      refine ⟨hc, fun hupd => .inr ⟨hhook, hlistening, ?_⟩⟩
      -- the sink gets nothing of a 1.5 update
      cases v with
      | v15 =>
        rw [feed_eq_none (update_v15 hspeaks hupd)] at hc
        exact absurd hc (by simp)
      | v16 => rfl
    · intro hnone hcarries hupd
      rcases hcarries with ⟨hno, -⟩ | ⟨-, -, rfl⟩
      · exact absurd (hhook.symm.trans hno) (by simp)
      · obtain ⟨c, hc⟩ := feed_isSome (update_v16 hspeaks hupd)
        rw [hc] at hnone
        exact absurd hnone (by simp)

theorem relayInv_oem (hroute : OemRoutes cfg.routeMessage) (hinv : RelayInv cfg v s)
    (hstep : relayStep cfg s .oem = some s') : RelayInv cfg v s' := by
  simp only [relayStep] at hstep
  split at hstep
  · exact absurd hstep (by simp)
  · rename_i i e events hq
    obtain ⟨hoff, f, hf, hmsg⟩ := hinv.events (i, e) (by simp [hq])
    have hf : s.sent[i]? = some f := hf
    have hspeaks : Speaks v f := hinv.spoken f (List.mem_of_getElem? hf)
    -- without the hook no 1.6 frame was ever seen
    have hseen : s.seen = false := by
      by_contra hyes
      have hhook := hinv.seen (by simpa using hyes)
      exact absurd (hoff.symm.trans hhook) (by simp)
    rw [Option.some_inj, hseen] at hstep
    subst hstep
    refine relayInv_out hinv ((ourNavCb cfg.hudFoldLatin false e).map .callback)
      hf rfl (fun h => absurd h (by simp)) (fun _ hx => hx) ?_ ?_ ?_ ?_ ?_
    · intro x hx
      rw [hq]
      exact List.mem_cons_of_mem _ hx
    · show s.log ++ ((ourNavCb _ _ e).map fun c => (i, Delivery.callback c)).toList = _
      rw [Option.map_map]
      rfl
    · unfold RelayState.places
      rw [hq]
      exact List.perm_middle
    · intro d hd
      obtain ⟨c, hc, rfl⟩ := Option.map_eq_some_iff.mp hd
      refine ⟨⟨e, hmsg, hc⟩, fun hupd => .inl ⟨hoff, ?_⟩⟩
      cases v with
      | v15 => rfl
      | v16 =>
        rw [route_v16 hroute hspeaks hupd] at hmsg
        exact absurd hmsg (by simp)
    · intro hnone hcarries hupd
      rcases hcarries with ⟨-, rfl⟩ | ⟨hno, -⟩
      · obtain ⟨e', he', c, hc⟩ := route_v15 hroute hspeaks hupd
        have hsame : e' = e := Option.some_inj.mp (he'.symm.trans hmsg)
        rw [hsame] at hc
        rw [hc] at hnone
        exact absurd hnone (by simp)
      · exact absurd (hoff.symm.trans hno) (by simp)

/-- **Step lemma.** -/
theorem relayInv_step (hroute : OemRoutes cfg.routeMessage) {a : RelayAction}
    (hinv : RelayInv cfg v s) (hspeaks : SpeaksOnly v a) (hstep : relayStep cfg s a = some s') :
    RelayInv cfg v s' := by
  cases a with
  | phone f =>
    simp only [relayStep, Option.some_inj] at hstep
    subst hstep
    exact relayInv_phone hroute hinv hspeaks
  | rx => exact relayInv_rx hinv hstep
  | oem => exact relayInv_oem hroute hinv hstep

/-! ## Results -/

/-- An endpoint like the OEM's. -/
def exampleRoute (f : NavFrame) : Option NavEvent :=
  if f.id = AA_NAV16_MSG_STATUS then some (.status 1)
  else if f.id = AA_NAV16_MSG_NEXT_TURN then some (.nextTurn (some [65, 0]) 2 4 0 0)
  else if f.id = AA_NAV16_MSG_NEXT_TURN_DIST then some (.distance 120 10 120000 1)
  else none

theorem exampleRoute_routes : OemRoutes exampleRoute := by
  refine ⟨fun f h => ⟨1, ?_⟩, fun f h => ⟨some [65, 0], 2, 4, 0, 0, ?_⟩,
    fun f h => ⟨120, 10, 120000, 1, ?_⟩, fun f h₁ h₂ h₃ => ?_⟩
  · unfold exampleRoute
    rw [if_pos h]
  · unfold exampleRoute
    rw [h]
    rfl
  · unfold exampleRoute
    rw [h]
    rfl
  · unfold exampleRoute
    rw [if_neg h₁, if_neg h₂, if_neg h₃]

/-- With the hook installed a phone that speaks 1.5 sends a turn: it is relayed,
and nobody renders it. -/
theorem turns_lost_to_hook :
    ¬∀ cfg v s, OemRoutes cfg.routeMessage →
      Run.Reach (relayStep cfg) (fun _ a => SpeaksOnly v a) {} s → Quiescent s →
      ∀ i f, s.sent[i]? = some f → IsUpdate f → (s.log.map Prod.fst).count i = 1 := by
  intro h
  obtain ⟨s, hreach, hquiet, hsent, hlog⟩ : ∃ s,
      Run.Reach (relayStep ⟨true, true, true, exampleRoute⟩) (fun _ a => SpeaksOnly .v15 a) {} s ∧
        (Quiescent s ∧ s.sent[0]? = some ⟨0x80, 0x04, []⟩ ∧ s.log = []) :=
    Run.Reach.exists_of_replay [.phone ⟨0x80, 0x04, []⟩, .rx] (by decide +kernel)
  have hone := h ⟨true, true, true, exampleRoute⟩ .v15 s exampleRoute_routes hreach hquiet 0
    ⟨0x80, 0x04, []⟩ hsent (by decide)
  rw [hlog] at hone
  exact absurd hone (by simp)

/-- What is in flight arrives: by induction on how much there is of it. -/
theorem drains (cfg : RelayConfig) (n : Nat) :
    ∀ s : RelayState, s.dgrams.length + s.events.length = n →
      ∃ t, Run.Reach (relayStep cfg) (fun _ a => a = .rx ∨ a = .oem) s t ∧ Quiescent t ∧
        t.sent = s.sent := by
  induction n with
  | zero =>
    intro s hlen
    have hd : s.dgrams = [] := List.eq_nil_of_length_eq_zero (by omega)
    have he : s.events = [] := List.eq_nil_of_length_eq_zero (by omega)
    exact ⟨s, .start, ⟨hd, he⟩, rfl⟩
  | succ n ih =>
    intro s hlen
    obtain ⟨a, s', ha, hstep, hless, hsent⟩ : ∃ a s', (a = .rx ∨ a = .oem) ∧
        relayStep cfg s a = some s' ∧ s'.dgrams.length + s'.events.length = n ∧
        s'.sent = s.sent := by
      -- any queue that is not empty can be taken from, and each step takes one
      cases hd : s.dgrams with
      | cons x dgrams =>
        have hless : dgrams.length + s.events.length = n := by
          rw [hd, List.length_cons] at hlen
          omega
        cases hrecv : rxRecv x.2 with
        | none => exact ⟨.rx, { s with dgrams }, .inl rfl, by simp [relayStep, hd, hrecv], hless, rfl⟩
        | some frame =>
          let log := s.log ++ ((hudNav16Feed hudSink frame).map fun c => (x.1, .sink c)).toList
          exact ⟨.rx, { s with seen := true, dgrams, log }, .inl rfl,
            by simp [relayStep, hd, hrecv, log], hless, rfl⟩
      | nil =>
        cases he : s.events with
        | cons x events =>
          have hless : s.dgrams.length + events.length = n := by
            rw [he, List.length_cons] at hlen
            omega
          let log := s.log ++
            ((ourNavCb cfg.hudFoldLatin s.seen x.2).map fun c => (x.1, .callback c)).toList
          exact ⟨.oem, { s with events, log }, .inr rfl, by simp [relayStep, he, log], hless, rfl⟩
        | nil =>
          rw [hd, he] at hlen
          exact absurd hlen (by simp)
    obtain ⟨t, hrest, hquiet, hsame⟩ := ih s' hless
    exact ⟨t, (Run.Reach.next .start hstep ha).trans hrest, hquiet, hsame.trans hsent⟩

/-- **Exactly once, or not at all.** In every run: what is delivered is what its
path makes of a frame that was sent; no frame is delivered twice; once nothing is
in flight, every update sent has been delivered exactly once if and only if none
was sent or the combination carries the version; and what is in flight arrives. -/
theorem delivered_once_iff (cfg : RelayConfig) (hroute : OemRoutes cfg.routeMessage)
    (v : GalVersion) (s : RelayState)
    (h : Run.Reach (relayStep cfg) (fun _ a => SpeaksOnly v a) {} s) :
    (∀ x ∈ s.log, ∃ f, s.sent[x.1]? = some f ∧ DeliveredAs cfg f x.2) ∧
    (s.log.map Prod.fst).Nodup ∧
    (Quiescent s →
      ((∀ i f, s.sent[i]? = some f → IsUpdate f → (s.log.map Prod.fst).count i = 1) ↔
        ((∃ f ∈ s.sent, IsUpdate f) → Carries cfg v))) ∧
    (∃ t, Run.Reach (relayStep cfg) (fun _ a => a = .rx ∨ a = .oem) s t ∧ Quiescent t ∧
      t.sent = s.sent) := by
  have hinv : RelayInv cfg v s :=
    Run.Reach.invariant relayInv_init (fun _ _ _ hi hg hs => relayInv_step hroute hi hg hs) h
  have hnodup : (s.log.map Prod.fst).Nodup :=
    (List.nodup_append.mp (List.nodup_append.mp hinv.nodup).2.1).2.1
  refine ⟨fun x hx => ?_, hnodup, fun hquiet => ⟨?_, ?_⟩, drains cfg _ s rfl⟩
  · obtain ⟨f, hf, hd, -⟩ := hinv.log x hx
    exact ⟨f, hf, hd⟩
  · rintro hall ⟨f, hmem, hupd⟩
    obtain ⟨i, hi⟩ := List.mem_iff_getElem?.mp hmem
    have hone := hall i f hi hupd
    -- an update that is in the log was carried
    have hlogged : i ∈ s.log.map Prod.fst := List.count_pos_iff.mp (by omega)
    obtain ⟨x, hx, rfl⟩ := List.mem_map.mp hlogged
    obtain ⟨g, hg, -, hcarries⟩ := hinv.log x hx
    have hsame : f = g := Option.some_inj.mp (hi.symm.trans hg)
    exact hcarries (hsame ▸ hupd)
  · intro hcarries i f hi hupd
    -- a carried update is in one of the places, and only the log is left
    have hmem := hinv.complete (hcarries ⟨f, List.mem_of_getElem? hi, hupd⟩) i f hi hupd
    unfold RelayState.places at hmem
    rw [hquiet.1, hquiet.2] at hmem
    exact List.count_eq_one_of_mem hnodup hmem

/-- A 1.5 session without the hook, and a 1.6 session with it: both updates arrive. -/
theorem delivered_once_iff_examples :
    (∃ s, Run.Reach (relayStep ⟨false, true, true, exampleRoute⟩) (fun _ a => SpeaksOnly .v15 a)
        {} s ∧
      s.sent = [⟨0x80, 0x04, []⟩, ⟨0x80, 0x05, []⟩] ∧
      (s.log.map Prod.fst).count 0 = 1 ∧ (s.log.map Prod.fst).count 1 = 1) ∧
    (∃ s, Run.Reach (relayStep ⟨true, true, true, exampleRoute⟩) (fun _ a => SpeaksOnly .v16 a)
        {} s ∧
      s.sent = [⟨0x80, 0x06, []⟩, ⟨0x80, 0x07, []⟩] ∧
      (s.log.map Prod.fst).count 0 = 1 ∧ (s.log.map Prod.fst).count 1 = 1) := by
  constructor
  · obtain ⟨s, hreach, hquiet, hsent⟩ : ∃ s,
        Run.Reach (relayStep ⟨false, true, true, exampleRoute⟩) (fun _ a => SpeaksOnly .v15 a)
          {} s ∧ (Quiescent s ∧ s.sent = [⟨0x80, 0x04, []⟩, ⟨0x80, 0x05, []⟩]) :=
      Run.Reach.exists_of_replay
        [.phone ⟨0x80, 0x04, []⟩, .phone ⟨0x80, 0x05, []⟩, .oem, .oem] (by decide +kernel)
    have hiff := (delivered_once_iff ⟨false, true, true, exampleRoute⟩ exampleRoute_routes .v15 s
      hreach).2.2.1 hquiet
    have hall := hiff.mpr fun _ => by decide
    exact ⟨s, hreach, hsent, hall 0 ⟨0x80, 0x04, []⟩ (by rw [hsent]; rfl) (by decide),
      hall 1 ⟨0x80, 0x05, []⟩ (by rw [hsent]; rfl) (by decide)⟩
  · obtain ⟨s, hreach, hquiet, hsent⟩ : ∃ s,
        Run.Reach (relayStep ⟨true, true, true, exampleRoute⟩) (fun _ a => SpeaksOnly .v16 a)
          {} s ∧ (Quiescent s ∧ s.sent = [⟨0x80, 0x06, []⟩, ⟨0x80, 0x07, []⟩]) :=
      Run.Reach.exists_of_replay
        [.phone ⟨0x80, 0x06, []⟩, .rx, .phone ⟨0x80, 0x07, []⟩, .rx] (by decide +kernel)
    have hiff := (delivered_once_iff ⟨true, true, true, exampleRoute⟩ exampleRoute_routes .v16 s
      hreach).2.2.1 hquiet
    have hall := hiff.mpr fun _ => by decide
    exact ⟨s, hreach, hsent, hall 0 ⟨0x80, 0x06, []⟩ (by rw [hsent]; rfl) (by decide),
      hall 1 ⟨0x80, 0x07, []⟩ (by rw [hsent]; rfl) (by decide)⟩

end OemAaMod
