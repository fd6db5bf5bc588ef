import OemAaMod.Lib.Run
import OemAaMod.Hud.Callback
import OemAaMod.Nav16.Feed
import OemAaMod.Relay.Frame

/-!
# The two paths from the phone to the HUD

A navigation frame goes either through the OEM endpoint and its callbacks to
`our_nav_cb`, or through the hook, the datagram socket and the receiver thread to
the 1.6 sink. Which of them depends on whether the hook is installed and whether
the receiver listens; the phone speaks GAL 1.5 or 1.6 for the whole session.

* `RelayState`, `relayStep` — the three processes, with datagrams and callbacks in
  flight; a frame is known by its place in the session;
* `OemRoutes` — what the OEM endpoint does with the frames it gets;
* `Carries` — the combinations in which updates arrive at all.
-/

namespace OemAaMod

/-! ## The system -/

/-- A frame of the navigation channel. -/
structure NavFrame where
  b₀   : UInt8
  b₁   : UInt8
  body : List UInt8 := []
deriving DecidableEq

def NavFrame.raw (f : NavFrame) : List UInt8 := f.b₀ :: f.b₁ :: f.body

def NavFrame.id (f : NavFrame) : UInt32 := msgId f.b₀ f.b₁

/-- What a session is set up with. `routeMessage` is the OEM endpoint's own: the
callback it makes of a frame, if any. -/
structure RelayConfig where
  hook         : Bool
  listening    : Bool
  hudFoldLatin : Bool
  routeMessage : NavFrame → Option NavEvent

/-- A call at the end of a path: of the transport by `our_nav_cb`, or of the 1.6
sink by `hud_nav16_feed`. -/
inductive Delivery
  | callback (call : TxCall)
  | sink (call : SinkCall)
deriving DecidableEq

structure RelayState where
  /-- `g_seen` -/
  seen   : Bool := false
  /-- The frames the phone has sent. -/
  sent   : List NavFrame := []
  /-- Datagrams in the socket, oldest first, each with the place of its frame. -/
  dgrams : List (Nat × List UInt8) := []
  /-- OEM callbacks on their way, likewise. -/
  events : List (Nat × NavEvent) := []
  log    : List (Nat × Delivery) := []

inductive RelayAction
  | phone (f : NavFrame)
  /-- A turn of the receiver's loop. -/
  | rx
  /-- The next OEM callback runs. -/
  | oem
deriving DecidableEq

/-- `hook_routeMessage` if it is installed, else the OEM's `routeMessage`. A
datagram to a socket that is not bound is dropped. -/
def RelayState.route (cfg : RelayConfig) (s : RelayState) (f : NavFrame) : RelayState :=
  if cfg.hook = true ∧ swallows f.id then
    match relayFrame f.raw with
    | some dgram =>
      { s with dgrams := if cfg.listening then s.dgrams ++ [(s.sent.length, dgram)] else s.dgrams }
    | none => s
  else
    match cfg.routeMessage f with
    | some e => { s with events := s.events ++ [(s.sent.length, e)] }
    | none => s

def relayStep (cfg : RelayConfig) (s : RelayState) : RelayAction → Option RelayState
  | .phone f => some { s.route cfg f with sent := s.sent ++ [f] }
  | .rx =>
    match s.dgrams with
    | [] => none
    | (i, dgram) :: dgrams =>
      match rxRecv dgram with
      | none => some { s with dgrams }
      | some frame => some { s with
          seen := true
          dgrams
          log := s.log ++ ((hudNav16Feed hudSink frame).map fun c => (i, .sink c)).toList }
  | .oem =>
    match s.events with
    | [] => none
    | (i, e) :: events => some { s with
        events
        log := s.log ++ ((ourNavCb cfg.hudFoldLatin s.seen e).map fun c => (i, .callback c)).toList }

/-! ## The OEM endpoint and the phone -/

/-- The OEM endpoint turns the three messages it knows into its three callbacks,
and refuses the others. -/
structure OemRoutes (routeMessage : NavFrame → Option NavEvent) : Prop where
  status : ∀ f, f.id = AA_NAV16_MSG_STATUS → ∃ status, routeMessage f = some (.status status)
  nextTurn : ∀ f, f.id = AA_NAV16_MSG_NEXT_TURN → ∃ road side event angle number,
    routeMessage f = some (.nextTurn road side event angle number)
  distance : ∀ f, f.id = AA_NAV16_MSG_NEXT_TURN_DIST → ∃ meters seconds dist unit,
    routeMessage f = some (.distance meters seconds dist unit)
  other : ∀ f, f.id ≠ AA_NAV16_MSG_STATUS → f.id ≠ AA_NAV16_MSG_NEXT_TURN →
    f.id ≠ AA_NAV16_MSG_NEXT_TURN_DIST → routeMessage f = none

inductive GalVersion
  | v15
  | v16
deriving DecidableEq

/-- The messages of a protocol version. -/
def Speaks (v : GalVersion) (f : NavFrame) : Prop :=
  match v with
  | .v15 => f.id = AA_NAV16_MSG_STATUS ∨ f.id = AA_NAV16_MSG_NEXT_TURN ∨
      f.id = AA_NAV16_MSG_NEXT_TURN_DIST
  | .v16 => f.id = AA_NAV16_MSG_CLUSTER_START ∨ f.id = AA_NAV16_MSG_CLUSTER_STOP ∨
      f.id = AA_NAV16_MSG_STATUS ∨ f.id = AA_NAV16_MSG_NAV_STATE ∨ f.id = AA_NAV16_MSG_POSITION

/-- The turn and distance updates of both versions. -/
def IsUpdate (f : NavFrame) : Prop :=
  f.id = AA_NAV16_MSG_NEXT_TURN ∨ f.id = AA_NAV16_MSG_NEXT_TURN_DIST ∨
    f.id = AA_NAV16_MSG_NAV_STATE ∨ f.id = AA_NAV16_MSG_POSITION

/-- A phone that speaks `v` only. -/
def SpeaksOnly (v : GalVersion) : RelayAction → Prop
  | .phone f => Speaks v f
  | _ => True

instance (v : GalVersion) (f : NavFrame) : Decidable (Speaks v f) :=
  match v with
  | .v15 => inferInstanceAs (Decidable (_ ∨ _ ∨ _))
  | .v16 => inferInstanceAs (Decidable (_ ∨ _ ∨ _ ∨ _ ∨ _))

instance (f : NavFrame) : Decidable (IsUpdate f) := inferInstanceAs (Decidable (_ ∨ _ ∨ _ ∨ _))

instance (v : GalVersion) : (a : RelayAction) → Decidable (SpeaksOnly v a)
  | .phone f => inferInstanceAs (Decidable (Speaks v f))
  | .rx | .oem => inferInstanceAs (Decidable True)

/-- The combinations that carry a version's updates. -/
def Carries (cfg : RelayConfig) (v : GalVersion) : Prop :=
  (cfg.hook = false ∧ v = .v15) ∨ (cfg.hook = true ∧ cfg.listening = true ∧ v = .v16)

instance (cfg : RelayConfig) (v : GalVersion) : Decidable (Carries cfg v) :=
  inferInstanceAs (Decidable ((_ ∧ _) ∨ (_ ∧ _ ∧ _)))

/-! ## What each path makes of a frame -/

theorem swallows_of_speaks {v : GalVersion} {f : NavFrame} (h : Speaks v f) : swallows f.id := by
  cases v with
  | v15 =>
    rcases h with h | h | h
    all_goals
      rw [h]
      decide
  | v16 =>
    rcases h with h | h | h | h | h
    all_goals
      rw [h]
      decide

theorem relayFrame_raw (f : NavFrame) : ∃ dgram, relayFrame f.raw = some dgram := by
  unfold relayFrame
  rw [if_neg]
  · exact ⟨_, rfl⟩
  · show ¬(f.b₀ :: f.b₁ :: f.body).length < 2
    simp

/-- The receiver feeds the decoder a frame with the id of the one relayed. -/
theorem take_raw (f : NavFrame) :
    f.raw.take AA_NAV16_MAX_FRAME = f.b₀ :: f.b₁ :: f.body.take 1022 := rfl

/-- The sink gets the 1.6 updates. -/
theorem feed_isSome {f : NavFrame} (h : f.id = AA_NAV16_MSG_NAV_STATE ∨
    f.id = AA_NAV16_MSG_POSITION) :
    ∃ c, hudNav16Feed hudSink (f.raw.take AA_NAV16_MAX_FRAME) = some c := by
  rw [take_raw, ← Option.isSome_iff_exists]
  -- both callbacks are registered, and a short body decodes too
  rcases h with h | h
  · have hid : msgId f.b₀ f.b₁ = AA_NAV16_MSG_NAV_STATE := h
    simp [hudNav16Feed, hudNav16OnFrame, hid, hudSink]
  · have hid : msgId f.b₀ f.b₁ = AA_NAV16_MSG_POSITION := h
    have hne : AA_NAV16_MSG_POSITION ≠ AA_NAV16_MSG_NAV_STATE := by decide
    simp [hudNav16Feed, hudNav16OnFrame, hid, hne, hudSink]

/-- It renders nothing of the 1.5 updates. -/
theorem feed_eq_none {f : NavFrame} (h : f.id = AA_NAV16_MSG_NEXT_TURN ∨
    f.id = AA_NAV16_MSG_NEXT_TURN_DIST) :
    hudNav16Feed hudSink (f.raw.take AA_NAV16_MAX_FRAME) = none := by
  rw [take_raw]
  unfold hudNav16Feed
  dsimp only
  -- the 1.5 ids are fed, and fall through to the last branch
  rcases h with h | h
  · rw [show msgId f.b₀ f.b₁ = AA_NAV16_MSG_NEXT_TURN from h]
    rfl
  · rw [show msgId f.b₀ f.b₁ = AA_NAV16_MSG_NEXT_TURN_DIST from h]
    rfl

theorem update_v15 {f : NavFrame} (hspeaks : Speaks .v15 f) (hupd : IsUpdate f) :
    f.id = AA_NAV16_MSG_NEXT_TURN ∨ f.id = AA_NAV16_MSG_NEXT_TURN_DIST := by
  -- a status is no update
  rcases hspeaks with h | h | h
  · unfold IsUpdate at hupd
    rw [h] at hupd
    exact absurd hupd (by decide)
  · exact .inl h
  · exact .inr h

theorem update_v16 {f : NavFrame} (hspeaks : Speaks .v16 f) (hupd : IsUpdate f) :
    f.id = AA_NAV16_MSG_NAV_STATE ∨ f.id = AA_NAV16_MSG_POSITION := by
  unfold IsUpdate at hupd
  -- a start, a stop or a status is none
  rcases hspeaks with h | h | h | h | h
  · rw [h] at hupd
    exact absurd hupd (by decide)
  · rw [h] at hupd
    exact absurd hupd (by decide)
  · rw [h] at hupd
    exact absurd hupd (by decide)
  · exact .inl h
  · exact .inr h

/-- The OEM endpoint refuses the 1.6 updates. -/
theorem route_v16 {cfg : RelayConfig} (hroute : OemRoutes cfg.routeMessage) {f : NavFrame}
    (hspeaks : Speaks .v16 f) (hupd : IsUpdate f) : cfg.routeMessage f = none := by
  rcases update_v16 hspeaks hupd with h | h
  · exact hroute.other f (by rw [h]; decide) (by rw [h]; decide) (by rw [h]; decide)
  · exact hroute.other f (by rw [h]; decide) (by rw [h]; decide) (by rw [h]; decide)

/-- `our_nav_cb` serves what it makes of the 1.5 updates, as long as no 1.6 frame
was seen. -/
theorem route_v15 {cfg : RelayConfig} (hroute : OemRoutes cfg.routeMessage) {f : NavFrame}
    (hspeaks : Speaks .v15 f) (hupd : IsUpdate f) :
    ∃ e, cfg.routeMessage f = some e ∧ ∃ c, ourNavCb cfg.hudFoldLatin false e = some c := by
  rcases update_v15 hspeaks hupd with h | h
  · obtain ⟨road, side, event, angle, number, heq⟩ := hroute.nextTurn f h
    exact ⟨_, heq, _, rfl⟩
  · obtain ⟨meters, seconds, dist, unit, heq⟩ := hroute.distance f h
    exact ⟨_, heq, _, rfl⟩

end OemAaMod
