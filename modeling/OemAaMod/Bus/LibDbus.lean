import OemAaMod.Lib.Contract
import Mathlib.Data.List.Basic

/-!
# What libdbus asks of its callers

A private connection: opened, registered with the bus, watched, closed and given back. Its
watches are handed out to a callback and are good until another one takes them back.

* `BusCall` — the calls, and the callbacks on the way;
* `libDbus` — the rules.
-/

namespace OemAaMod.Bus

/-- A private connection that is open, or closed and not given back yet. libdbus has
`exit_on_disconnect` on for shared connections only; that it is on here asks for more. -/
structure Connection (Watch : Type*) where
  exitOnDisconnect : Bool := true
  registered       : Bool := false
  watchFunctions   : Bool := false
  closed           : Bool := false
  watches          : List Watch := []
deriving DecidableEq

/-- The results are those that change something. -/
inductive BusCall (Watch : Type*)
  | openPrivate (ok : Bool)
  | setExitOnDisconnect (exit : Bool)
  | register (ok : Bool)
  | setWatchFunctions
  /-- The callback took a watch. -/
  | added (watch : Watch)
  | removed (watch : Watch)
  | addMatch
  | popMessage
  | getIsConnected
  | send
  | flush
  /-- `dbus_watch_get_*` -/
  | query (watch : Watch)
  | handle (watch : Watch) (flags : UInt32)
  | close
  | unref
deriving DecidableEq

variable {Watch : Type*} [DecidableEq Watch]

/-- A connection that messages go over. -/
def Connection.Usable (c : Connection Watch) : Prop := c.registered = true ∧ c.closed = false

instance (c : Connection Watch) : Decidable c.Usable := inferInstanceAs (Decidable (_ ∧ _))

/-- One connection at a time. A bus that goes away while `exit_on_disconnect` is on takes
the process with it, so it is to be off before the connection is registered; and a private
connection is to be closed before it is given back. -/
def libDbus : Option (Connection Watch) → BusCall Watch → Option (Option (Connection Watch))
  | none, .openPrivate ok => some (if ok then some {} else none)
  | some c, .setExitOnDisconnect exit =>
    if c.closed then none else some (some { c with exitOnDisconnect := exit })
  | some c, .register ok =>
    if c.closed ∨ c.exitOnDisconnect ∨ c.registered then none
    else some (some { c with registered := ok })
  | some c, .setWatchFunctions =>
    if c.Usable then some (some { c with watchFunctions := true }) else none
  | some c, .added watch =>
    if c.watchFunctions ∧ c.closed = false ∧ watch ∉ c.watches then
      some (some { c with watches := watch :: c.watches })
    else none
  | some c, .removed watch =>
    if watch ∈ c.watches then some (some { c with watches := c.watches.erase watch }) else none
  | some c, .addMatch | some c, .popMessage | some c, .getIsConnected | some c, .send
  | some c, .flush => if c.Usable then some (some c) else none
  | some c, .query watch => if watch ∈ c.watches then some (some c) else none
  | some c, .handle watch flags => if watch ∈ c.watches ∧ flags ≠ 0 then some (some c) else none
  | some c, .close => if c.closed then none else some (some { c with closed := true })
  | some c, .unref => if c.closed then some none else none
  | _, _ => none

end OemAaMod.Bus
