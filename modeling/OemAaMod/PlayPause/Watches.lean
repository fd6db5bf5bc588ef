import OemAaMod.Bus.LibDbus
import OemAaMod.Lib.SlotTable

/-!
# The bus connection of the mute bridge

The watcher thread of `playpause.cpp` polls the sockets of its private HMI-bus connection
itself: libdbus hands it the watches, which it keeps in a table of four, and it hands the
events back. It reconnects for as long as the session lasts.

* `addDbusWatch`, `removeDbusWatch` — the callbacks;
* `watchesStep` — the thread from one call of libdbus to the next, with what it calls; the
  callbacks come in between, so that an event may find its watch gone;
* `Sees` — the table is what libdbus has handed out.
-/

namespace OemAaMod.PlayPause

open Bus (BusCall Connection libDbus)

def POLLIN : UInt16 := 0x001
def POLLOUT : UInt16 := 0x004
def POLLERR : UInt16 := 0x008
def POLLHUP : UInt16 := 0x010
def POLLNVAL : UInt16 := 0x020

def DBUS_WATCH_READABLE : UInt32 := 1
def DBUS_WATCH_WRITABLE : UInt32 := 2
def DBUS_WATCH_ERROR : UInt32 := 4
def DBUS_WATCH_HANGUP : UInt32 := 8

variable {Watch : Type*} [DecidableEq Watch]

/-! ## The table -/

def kMaxDbusWatches : ℕ := 4

def clearDbusWatches : List (Option Watch) := List.replicate kMaxDbusWatches none

def dbusWatchIsRegistered (watch : Watch) (items : List (Option Watch)) : Bool :=
  items.any fun item => item = some watch

/-- `add_dbus_watch`: the result, and the table after it. -/
def addDbusWatch (watch : Watch) (items : List (Option Watch)) : Bool × List (Option Watch) :=
  if dbusWatchIsRegistered watch items then (true, items)
  else if SlotTable.HasFree id items then (true, SlotTable.insert id (some watch) items)
  else (false, items)

def removeDbusWatch (watch : Watch) (items : List (Option Watch)) : List (Option Watch) :=
  SlotTable.remove id none (some watch) items

/-! ## Polling -/

/-- What libdbus answers about a watch. -/
structure WatchInfo where
  enabled : Bool
  fd      : Int32
  flags   : UInt32
deriving DecidableEq

/-- `events` of a watch. -/
def pollEvents (flags : UInt32) : UInt16 :=
  (if flags &&& DBUS_WATCH_READABLE ≠ 0 then POLLIN else 0) |||
    (if flags &&& DBUS_WATCH_WRITABLE ≠ 0 then POLLOUT else 0)

/-- `pfds` and `poll_watches`, behind the stop eventfd. -/
def pollSet (info : Watch → WatchInfo) (items : List (Option Watch)) :
    List (Watch × Int32 × UInt16) :=
  items.filterMap fun item => item.bind fun watch =>
    if (info watch).enabled then
      if (info watch).fd < 0 then none
      else some (watch, (info watch).fd, pollEvents (info watch).flags)
    else none

/-- The flags `dbus_watch_handle` is given. -/
def readyFlags (revents : UInt16) (requested : UInt32) : UInt32 :=
  (if revents &&& POLLIN ≠ 0 ∧ requested &&& DBUS_WATCH_READABLE ≠ 0 then DBUS_WATCH_READABLE
    else 0) |||
  (if revents &&& POLLOUT ≠ 0 ∧ requested &&& DBUS_WATCH_WRITABLE ≠ 0 then DBUS_WATCH_WRITABLE
    else 0) |||
  (if revents &&& (POLLERR ||| POLLNVAL) ≠ 0 then DBUS_WATCH_ERROR else 0) |||
  (if revents &&& POLLHUP ≠ 0 then DBUS_WATCH_HANGUP else 0)

/-! ## The thread -/

inductive WatchesPc (Watch : Type*)
  | looping                                    -- before `while (!stop_requested())`
  | opening                                    -- in `setup_connection`
  | registering
  | settingWatches                             -- in `dbus_connection_set_watch_functions`
  | draining (first : Bool)                    -- in `drain_messages`
  | polling                                    -- in the loop of `run_watch_loop`
  | handling (rest : List (Watch × UInt16))    -- the watches polled, with their events
  | checking
  | leaving                                    -- in `teardown_connection`
  | closing
  | backoff                                    -- in `wait_stop`
  | exited
deriving DecidableEq

/-- `g_dbus_watches`, and whether `g_conn` is set. -/
structure WatchesState (Watch : Type*) where
  pc    : WatchesPc Watch := .looping
  conn  : Bool := false
  items : List (Option Watch) := clearDbusWatches

inductive WatchesAction (Watch : Type*)
  | loop (stop : Bool)
  | opened (ok : Bool)
  | register (ok : Bool)
  | watchesSet (ok : Bool)
  /-- libdbus calls back. -/
  | addWatch (watch : Watch)
  | removeWatch (watch : Watch)
  /-- `dbus_connection_pop_message`: was there one? -/
  | pop (message : Bool)
  /-- A turn of the loop up to `poll`: its result, with the events of the eventfd and of
  each watch. -/
  | poll (stop : Bool) (info : Watch → WatchInfo) (result : Option (UInt16 × (Watch → UInt16)))
  /-- The next watch, with the answer of `dbus_watch_handle`. -/
  | handle (info : WatchInfo) (ok : Bool)
  | handled
  | isConnected (connected : Bool)
  | close
  | free
  | wait (stop : Bool)

/-- `dbus_connection_close` and `dbus_connection_unref` where `setup_connection` fails. -/
def releaseCalls : List (BusCall Watch) := [.close, .unref]

def watchesStep (s : WatchesState Watch) :
    WatchesAction Watch → Option (WatchesState Watch × List (BusCall Watch))
  | .loop stop =>
    if s.pc = .looping then
      some (if stop then { s with pc := .exited }
        else { s with items := clearDbusWatches, pc := .opening }, [])
    else none
  | .opened ok =>
    if s.pc = .opening then
      some (if ok then
          ({ s with conn := true, pc := .registering }, [.openPrivate true, .setExitOnDisconnect false])
        else ({ s with pc := .backoff }, [.openPrivate false]))
    else none
  | .register ok =>
    if s.pc = .registering then
      some (if ok then ({ s with pc := .settingWatches }, [.register true, .setWatchFunctions])
        else ({ s with conn := false, pc := .backoff }, .register false :: releaseCalls))
    else none
  | .watchesSet ok =>
    if s.pc = .settingWatches then
      some (if ok then ({ s with pc := .draining true }, [.addMatch])
        else ({ s with conn := false, items := clearDbusWatches, pc := .backoff }, releaseCalls))
    else none
  | .addWatch watch =>
    let r := addDbusWatch watch s.items
    some ({ s with items := r.2 }, if r.1 then [.added watch] else [])
  | .removeWatch watch => some ({ s with items := removeDbusWatch watch s.items }, [.removed watch])
  | .pop message =>
    match s.pc with
    | .draining first =>
      some ({ s with pc := if message then s.pc else if first then .polling else .checking },
        [.popMessage])
    | _ => none
  | .poll stop info result =>
    if s.pc = .polling then
      if stop then some ({ s with pc := .leaving }, [])
      else
        let polled := pollSet info s.items
        let pc := match result with
          | some (stopRevents, revents) =>
            if polled = [] then .leaving
            else if stopRevents &&& (POLLIN ||| POLLERR ||| POLLHUP ||| POLLNVAL) ≠ 0 then .leaving
            else .handling (polled.map fun p => (p.1, revents p.1))
          | none => .leaving
        some ({ s with pc }, (SlotTable.keys id s.items).map .query)
    else none
  | .handle info ok =>
    match s.pc with
    | .handling ((watch, revents) :: rest) =>
      if revents = 0 ∨ ¬dbusWatchIsRegistered watch s.items then
        some ({ s with pc := .handling rest }, [])
      else if ¬info.enabled then some ({ s with pc := .handling rest }, [.query watch])
      else
        let flags := readyFlags revents info.flags
        if flags = 0 then some ({ s with pc := .handling rest }, [.query watch])
        else some ({ s with pc := if ok then .handling rest else .leaving },
          [.query watch, .handle watch flags])
    | _ => none
  | .handled => if s.pc = .handling [] then some ({ s with pc := .draining false }, []) else none
  | .isConnected connected =>
    if s.pc = .checking then
      some ({ s with pc := if connected then .polling else .leaving }, [.getIsConnected])
    else none
  | .close => if s.pc = .leaving then some ({ s with pc := .closing }, [.close]) else none
  | .free =>
    if s.pc = .closing then
      some ({ s with conn := false, items := clearDbusWatches, pc := .backoff }, [.unref])
    else none
  | .wait stop =>
    if s.pc = .backoff then some ({ s with pc := if stop then .exited else .looping }, []) else none

/-! ## libdbus -/

/-- libdbus hands out and takes back watches by its own rules. -/
def CallsBack (s : WatchesState Watch × Option (Option (Connection Watch))) :
    WatchesAction Watch → Prop
  | .addWatch watch => s.2.bind (libDbus · (.added watch)) ≠ none
  | .removeWatch watch => s.2.bind (libDbus · (.removed watch)) ≠ none
  | _ => True

instance (s : WatchesState Watch × Option (Option (Connection Watch))) :
    (a : WatchesAction Watch) → Decidable (CallsBack s a)
  | .addWatch _ | .removeWatch _ => inferInstanceAs (Decidable (_ ≠ none))
  | .loop _ | .opened _ | .register _ | .watchesSet _ | .pop _ | .poll .. | .handle .. | .handled
  | .isConnected _ | .close | .free | .wait _ => isTrue trivial

/-- Where the thread is, by the connection. -/
def Stage (lib : Option (Connection Watch)) : WatchesPc Watch → Prop
  | .looping | .opening | .backoff | .exited => lib = none
  | .registering => lib = some { exitOnDisconnect := false }
  | .closing => ∃ c, lib = some c ∧ c.closed = true
  | _ => ∃ c, lib = some c ∧ c.Usable

/-- The watches libdbus has handed out. -/
def handedOut (lib : Option (Connection Watch)) : List Watch := lib.elim [] Connection.watches

/-- `g_conn` is the connection, and the table is what libdbus has handed out. -/
structure Sees (s : WatchesState Watch) (lib : Option (Connection Watch)) : Prop where
  conn  : s.conn = lib.isSome
  table : (SlotTable.keys id s.items).Perm (handedOut lib)
  nodup : (handedOut lib).Nodup
  stage : Stage lib s.pc

variable {s : WatchesState Watch} {lib : Option (Connection Watch)} {watch : Watch}
  {items : List (Option Watch)}

omit [DecidableEq Watch] in
@[simp] theorem keys_clearDbusWatches :
    SlotTable.keys id (clearDbusWatches : List (Option Watch)) = [] := rfl

theorem dbusWatchIsRegistered_iff :
    dbusWatchIsRegistered watch items = true ↔ watch ∈ SlotTable.keys id items := by
  unfold dbusWatchIsRegistered SlotTable.keys
  simp

omit [DecidableEq Watch] in
theorem sees_init : Sees ({} : WatchesState Watch) none := ⟨rfl, .refl _, .nil, rfl⟩

/-- A watch in the table is good. -/
theorem Sees.query (h : Sees s lib) (hmem : watch ∈ SlotTable.keys id s.items) :
    libDbus lib (.query watch) = some lib := by
  have hmem : watch ∈ handedOut lib := h.table.mem_iff.mp hmem
  cases lib with
  | none => exact absurd hmem List.not_mem_nil
  | some c => exact if_pos hmem

theorem Sees.handle (h : Sees s lib) (hmem : watch ∈ SlotTable.keys id s.items) {flags : UInt32}
    (hflags : flags ≠ 0) : libDbus lib (.handle watch flags) = some lib := by
  have hmem : watch ∈ handedOut lib := h.table.mem_iff.mp hmem
  cases lib with
  | none => exact absurd hmem List.not_mem_nil
  | some c => exact if_pos ⟨hmem, hflags⟩

omit [DecidableEq Watch] in
/-- Another place with the same connection. -/
theorem Sees.goto (h : Sees s lib) {pc : WatchesPc Watch} (hstage : Stage lib pc) :
    Sees { s with pc } lib := ⟨h.conn, h.table, h.nodup, hstage⟩

omit [DecidableEq Watch] in
theorem Stage.map {f : Connection Watch → Connection Watch} {c : Connection Watch}
    {pc : WatchesPc Watch} (hreg : (f c).registered = c.registered)
    (hclosed : (f c).closed = c.closed) (hpc : pc ≠ .registering) (h : Stage (some c) pc) :
    Stage (some (f c)) pc := by
  cases pc with
  | looping | opening | backoff | exited => exact absurd h (by simp [Stage])
  | registering => exact absurd rfl hpc
  | closing =>
    obtain ⟨c', hc', hclosed'⟩ := h
    obtain rfl := Option.some_inj.mp hc'
    exact ⟨_, rfl, hclosed.trans hclosed'⟩
  | settingWatches | draining | polling | handling | checking | leaving =>
    obtain ⟨c', hc', husable⟩ := h
    obtain rfl := Option.some_inj.mp hc'
    exact ⟨_, rfl, hreg.trans husable.1, hclosed.trans husable.2⟩

/-- The table takes a new watch, or libdbus keeps it to itself. -/
theorem Sees.addWatch (h : Sees s lib) (hcalls : libDbus lib (.added watch) ≠ none) :
    ∃ lib', Contract.after libDbus lib (if (addDbusWatch watch s.items).1 then [.added watch] else [])
        = some lib' ∧
      Sees { s with items := (addDbusWatch watch s.items).2 } lib' := by
  cases lib with
  | none => exact absurd rfl hcalls
  | some c =>
    by_cases hnew : c.watchFunctions = true ∧ c.closed = false ∧ watch ∉ c.watches
    · -- libdbus adds a watch once
      have hnot : ¬dbusWatchIsRegistered watch s.items = true := fun hreg =>
        hnew.2.2 (h.table.mem_iff.mp (dbusWatchIsRegistered_iff.mp hreg))
      unfold addDbusWatch
      rw [if_neg hnot]
      by_cases hfree : SlotTable.HasFree id s.items
      · rw [if_pos hfree]
        have hrule : libDbus (some c) (.added watch) =
            some (some { c with watches := watch :: c.watches }) := if_pos hnew
        refine ⟨some { c with watches := watch :: c.watches }, ?_, h.conn, ?_, ?_, ?_⟩
        · rw [if_pos rfl, Contract.after_cons, hrule]
          rfl
        · have hkey : id (some watch) = some watch := rfl
          exact (SlotTable.keys_insert hkey hfree).trans (h.table.cons watch)
        · exact List.nodup_cons.mpr ⟨hnew.2.2, h.nodup⟩
        · refine Stage.map (f := fun c => { c with watches := watch :: c.watches }) rfl rfl ?_ h.stage
          -- before the watch functions are set there are no callbacks
          intro hpc
          have hstage := h.stage
          rw [hpc] at hstage
          obtain rfl := Option.some_inj.mp hstage
          exact absurd hnew.1 (by simp)
      · rw [if_neg hfree]
        -- the table is full: libdbus hears that, and does not keep it
        exact ⟨some c, rfl, h⟩
    · exact absurd (if_neg hnew) hcalls

theorem Sees.removeWatch (h : Sees s lib) (hcalls : libDbus lib (.removed watch) ≠ none) :
    ∃ lib', libDbus lib (.removed watch) = some lib' ∧
      Sees { s with items := removeDbusWatch watch s.items } lib' := by
  cases lib with
  | none => exact absurd rfl hcalls
  | some c =>
    by_cases hmem : watch ∈ c.watches
    · refine ⟨_, if_pos hmem, h.conn, ?_, h.nodup.erase watch, ?_⟩
      · show (SlotTable.keys id (removeDbusWatch watch s.items)).Perm (c.watches.erase watch)
        unfold removeDbusWatch
        rw [SlotTable.keys_remove rfl]
        exact h.table.erase watch
      · refine Stage.map (f := fun c => { c with watches := c.watches.erase watch }) rfl rfl ?_ h.stage
        intro hpc
        have hstage := h.stage
        rw [hpc] at hstage
        obtain rfl := Option.some_inj.mp hstage
        exact absurd hmem List.not_mem_nil
    · exact absurd (if_neg hmem) hcalls

/-! ## The steps -/

/-- What a usable connection allows. -/
theorem Sees.usable (h : Sees s lib) (hstage : ∃ c, lib = some c ∧ c.Usable) {call : BusCall Watch}
    (hcall : call ∈ [.addMatch, .popMessage, .getIsConnected]) : libDbus lib call = some lib := by
  obtain ⟨c, rfl, husable⟩ := hstage
  simp only [List.mem_cons, List.not_mem_nil, or_false] at hcall
  rcases hcall with rfl | rfl | rfl <;> exact if_pos husable

/-- The next watch: a good one, if it is in the table still. -/
theorem Sees.handleNext (h : Sees s lib) {revents : UInt16} {rest : List (Watch × UInt16)}
    (hpc : s.pc = .handling ((watch, revents) :: rest)) (info : WatchInfo) (ok : Bool)
    {r : WatchesState Watch × List (BusCall Watch)} (hstep : watchesStep s (.handle info ok) = some r) :
    Contract.after libDbus lib r.2 = some lib ∧ Sees r.1 lib := by
  have hstage : ∃ c, lib = some c ∧ c.Usable := by
    have hstage := h.stage
    rw [hpc] at hstage
    exact hstage
  simp only [watchesStep, hpc] at hstep
  by_cases hskip : revents = 0 ∨ ¬dbusWatchIsRegistered watch s.items = true
  · -- no events, or taken back while the others were handled
    rw [if_pos hskip, Option.some_inj] at hstep
    subst hstep
    exact ⟨rfl, h.goto hstage⟩
  rw [if_neg hskip] at hstep
  obtain ⟨-, hreg⟩ := not_or.mp hskip
  have hmem := dbusWatchIsRegistered_iff.mp (not_not.mp hreg)
  have hquery := h.query hmem
  by_cases henabled : info.enabled = true
  · rw [if_neg (not_not.mpr henabled)] at hstep
    by_cases hflags : readyFlags revents info.flags = 0
    · rw [if_pos hflags, Option.some_inj] at hstep
      subst hstep
      exact ⟨by simp [hquery], h.goto hstage⟩
    · rw [if_neg hflags, Option.some_inj] at hstep
      subst hstep
      have hhandle := h.handle hmem hflags
      refine ⟨by simp [hquery, hhandle], h.goto ?_⟩
      cases ok with
      | true => exact hstage
      | false => exact hstage
  · rw [if_pos henabled, Option.some_inj] at hstep
    subst hstep
    exact ⟨by simp [hquery], h.goto hstage⟩

/-- **Step lemma.** -/
theorem sees_step (h : Sees s lib) {a : WatchesAction Watch} (hback : CallsBack (s, some lib) a)
    {r : WatchesState Watch × List (BusCall Watch)} (hstep : watchesStep s a = some r) :
    ∃ lib', Contract.after libDbus lib r.2 = some lib' ∧ Sees r.1 lib' := by
  have hstage := h.stage
  cases a with
  | loop stop =>
    simp only [watchesStep, Option.ite_none_right_eq_some, Option.some_inj] at hstep
    obtain ⟨hpc, rfl⟩ := hstep
    rw [hpc] at hstage
    obtain rfl : lib = none := hstage
    cases stop with
    | true => exact ⟨none, rfl, h.goto rfl⟩
    | false => exact ⟨none, rfl, h.conn, .refl _, .nil, rfl⟩
  | opened ok =>
    simp only [watchesStep, Option.ite_none_right_eq_some, Option.some_inj] at hstep
    obtain ⟨hpc, rfl⟩ := hstep
    rw [hpc] at hstage
    obtain rfl : lib = none := hstage
    cases ok with
    | true => exact ⟨some { exitOnDisconnect := false }, rfl, rfl, h.table, .nil, rfl⟩
    | false => exact ⟨none, rfl, h.goto rfl⟩
  | register ok =>
    simp only [watchesStep, Option.ite_none_right_eq_some, Option.some_inj] at hstep
    obtain ⟨hpc, rfl⟩ := hstep
    rw [hpc] at hstage
    obtain rfl : lib = some { exitOnDisconnect := false } := hstage
    cases ok with
    | true => exact ⟨_, rfl, h.conn, h.table, .nil, _, rfl, rfl, rfl⟩
    | false => exact ⟨none, rfl, rfl, h.table, .nil, rfl⟩
  | watchesSet ok =>
    simp only [watchesStep, Option.ite_none_right_eq_some, Option.some_inj] at hstep
    obtain ⟨hpc, rfl⟩ := hstep
    rw [hpc] at hstage
    have hstage : ∃ c, lib = some c ∧ c.Usable := hstage
    cases ok with
    | true =>
      -- the match is asked for before any message is read
      have hmatch : libDbus lib .addMatch = some lib := h.usable hstage (by simp)
      exact ⟨lib, by simp [hmatch], h.goto hstage⟩
    | false =>
      -- no watch functions: closed and given back at once
      obtain ⟨c, rfl, -, hclosed⟩ := hstage
      have hclose : libDbus (some c) .close = some (some { c with closed := true }) :=
        if_neg (by simp [hclosed])
      refine ⟨none, ?_, rfl, .refl _, .nil, rfl⟩
      simp only [releaseCalls, Bool.false_eq_true, if_false, Contract.after_cons, hclose,
        Option.bind_some]
      rfl
  | addWatch watch =>
    obtain rfl := Option.some_inj.mp hstep
    exact h.addWatch hback
  | removeWatch watch =>
    obtain rfl := Option.some_inj.mp hstep
    obtain ⟨lib', hrule, hsees⟩ := h.removeWatch hback
    exact ⟨lib', by simp [hrule], hsees⟩
  | pop message =>
    simp only [watchesStep] at hstep
    split at hstep
    · rename_i first hpc
      rw [hpc] at hstage
      have hstage : ∃ c, lib = some c ∧ c.Usable := hstage
      have hpop : libDbus lib .popMessage = some lib := h.usable hstage (by simp)
      obtain rfl := Option.some_inj.mp hstep
      refine ⟨lib, by simp [hpop], h.goto ?_⟩
      -- a message is dispatched and the next one is read
      cases message with
      | true =>
        rw [if_pos rfl, hpc]
        exact hstage
      | false =>
        rw [if_neg Bool.false_ne_true]
        cases first with
        | true => exact hstage
        | false => exact hstage
    · exact absurd hstep (by simp)
  | poll stop info result =>
    simp only [watchesStep] at hstep
    rw [Option.ite_none_right_eq_some] at hstep
    obtain ⟨hpc, hstep⟩ := hstep
    rw [hpc] at hstage
    have hstage : ∃ c, lib = some c ∧ c.Usable := hstage
    cases stop with
    | true =>
      obtain rfl := Option.some_inj.mp hstep
      exact ⟨lib, rfl, h.goto hstage⟩
    | false =>
      obtain rfl := Option.some_inj.mp hstep
      refine ⟨lib, Contract.after_of_forall fun call hcall => ?_, h.goto ?_⟩
      · obtain ⟨watch, hwatch, rfl⟩ := List.mem_map.mp hcall
        exact h.query hwatch
      · -- to the events or out of the loop
        split
        · split
          · exact hstage
          · split
            · exact hstage
            · exact hstage
        · exact hstage
  | handle info ok =>
    cases hpc : s.pc with
    | handling polled =>
      cases polled with
      | nil => simp [watchesStep, hpc] at hstep
      | cons p rest => exact ⟨lib, h.handleNext hpc info ok hstep⟩
    | _ => simp [watchesStep, hpc] at hstep
  | handled =>
    simp only [watchesStep, Option.ite_none_right_eq_some, Option.some_inj] at hstep
    obtain ⟨hpc, rfl⟩ := hstep
    rw [hpc] at hstage
    exact ⟨lib, rfl, h.goto hstage⟩
  | isConnected connected =>
    simp only [watchesStep, Option.ite_none_right_eq_some, Option.some_inj] at hstep
    obtain ⟨hpc, rfl⟩ := hstep
    rw [hpc] at hstage
    have hstage : ∃ c, lib = some c ∧ c.Usable := hstage
    have hget : libDbus lib .getIsConnected = some lib := h.usable hstage (by simp)
    refine ⟨lib, by simp [hget], h.goto ?_⟩
    cases connected with
    | true => exact hstage
    | false => exact hstage
  | close =>
    simp only [watchesStep, Option.ite_none_right_eq_some, Option.some_inj] at hstep
    obtain ⟨hpc, rfl⟩ := hstep
    rw [hpc] at hstage
    obtain ⟨c, rfl, -, hclosed⟩ := hstage
    have hclose : libDbus (some c) .close = some (some { c with closed := true }) :=
      if_neg (by simp [hclosed])
    refine ⟨some { c with closed := true }, by simp [hclose], h.conn, h.table, h.nodup, _, rfl, rfl⟩
  | free =>
    simp only [watchesStep, Option.ite_none_right_eq_some, Option.some_inj] at hstep
    obtain ⟨hpc, rfl⟩ := hstep
    rw [hpc] at hstage
    obtain ⟨c, rfl, hclosed⟩ := hstage
    have hunref : libDbus (some c) .unref = some none := if_pos hclosed
    exact ⟨none, by simp [hunref], rfl, .refl _, .nil, rfl⟩
  | wait stop =>
    simp only [watchesStep, Option.ite_none_right_eq_some, Option.some_inj] at hstep
    obtain ⟨hpc, rfl⟩ := hstep
    rw [hpc] at hstage
    obtain rfl : lib = none := hstage
    refine ⟨none, rfl, h.goto ?_⟩
    cases stop with
    | true => rfl
    | false => rfl

/-! ## Results -/

/-- The watches that are to be polled. -/
def Pollable (info : Watch → WatchInfo) (watch : Watch) : Prop :=
  (info watch).enabled = true ∧ 0 ≤ (info watch).fd

instance (info : Watch → WatchInfo) : DecidablePred (Pollable info) := fun _ =>
  inferInstanceAs (Decidable (_ ∧ _))

omit [DecidableEq Watch] in
theorem map_pollSet (info : Watch → WatchInfo) (items : List (Option Watch)) :
    (pollSet info items).map Prod.fst = (SlotTable.keys id items).filter (Pollable info) := by
  unfold pollSet SlotTable.keys
  induction items with
  | nil => rfl
  | cons item items ih =>
    cases item with
    | none => exact ih
    | some watch =>
      have hkey : id (some watch) = some watch := rfl
      rw [List.filterMap_cons, List.filterMap_cons_some hkey, List.filter_cons]
      by_cases henabled : (info watch).enabled = true
      · by_cases hfd : (info watch).fd < 0
        · have hnot : ¬Pollable info watch := fun hp => absurd hfd (Int32.not_lt.mpr hp.2)
          simp only [Option.bind_some, henabled, if_true, if_pos hfd, hnot, decide_false,
            Bool.false_eq_true, if_false, ih]
        · have hp : Pollable info watch := ⟨henabled, Int32.not_lt.mp hfd⟩
          simp only [Option.bind_some, henabled, if_true, if_neg hfd, hp, decide_true,
            List.map_cons, ih]
      · have hnot : ¬Pollable info watch := fun hp => henabled hp.1
        simp only [Option.bind_some, if_neg henabled, hnot, decide_false, Bool.false_eq_true,
          if_false, ih]

/-- **The watcher plays by the rules of libdbus**, whatever libdbus calls back in between: no
watch is used that was taken back, and no connection is left behind, used before it is
registered or after it is closed. All that is to be polled is polled, each watch once. -/
theorem watches_honoured (s : WatchesState Watch × Option (Option (Connection Watch)))
    (h : Run.Reach (Contract.withLibrary watchesStep libDbus) CallsBack ({}, some none) s) :
    ∃ lib, s.2 = some lib ∧ s.1.conn = lib.isSome ∧
      (s.1.pc ∈ [.looping, .opening, .backoff, .exited] → lib = none) ∧
      (∀ info, ((pollSet info s.1.items).map Prod.fst).Perm
        ((handedOut lib).filter (Pollable info))) ∧ (handedOut lib).Nodup := by
  obtain ⟨lib, hlib, hsees⟩ : ∃ lib, s.2 = some lib ∧ Sees s.1 lib :=
    Contract.sees_of_reach sees_init (fun _ _ _ _ hs hg hstep => sees_step hs hg hstep) h
  refine ⟨lib, hlib, hsees.conn, fun hpc => ?_, fun info => ?_, hsees.nodup⟩
  · have hstage := hsees.stage
    simp only [List.mem_cons, List.not_mem_nil, or_false] at hpc
    rcases hpc with hpc | hpc | hpc | hpc <;> rw [hpc] at hstage <;> exact hstage
  · rw [map_pollSet]
    exact hsees.table.filter _

/-- Two watches are polled, and the events of the first take the second back; then the bus
goes away. -/
def secondTakenBack : List (WatchesAction ℕ) :=
  [.loop false, .opened true, .register true, .addWatch 1, .addWatch 2, .watchesSet true, .pop false,
    .poll false (fun _ => ⟨true, 7, 3⟩) (some (0, fun _ => POLLIN)), .handle ⟨true, 7, 3⟩ true,
    .removeWatch 2, .handle ⟨true, 7, 3⟩ true, .handled, .pop true, .pop false, .isConnected false,
    .close, .removeWatch 1, .free, .wait true]

theorem watches_honoured_second_taken_back : ∃ s : WatchesState ℕ × Option (Option (Connection ℕ)),
    s.1.pc = .exited ∧ ∃ lib, s.2 = some lib ∧ lib = none := by
  obtain ⟨s, hreach, hpc⟩ : ∃ s, Run.Reach (Contract.withLibrary watchesStep libDbus) CallsBack
      (({} : WatchesState ℕ), some none) s ∧ s.1.pc = .exited :=
    Run.Reach.exists_of_replay secondTakenBack (by decide +kernel)
  obtain ⟨lib, hlib, -, hdone, -⟩ := watches_honoured s hreach
  exact ⟨s, hpc, lib, hlib, hdone (by simp [hpc])⟩

end OemAaMod.PlayPause
