import Mathlib.Data.List.Basic

/-!
# The calls to libjcidbus

`JCIDBUS_conn_*` and `JCIDBUS_worker_*` of the OEM library, and the VBS_NAVI calls of its
clients, by their results. `JciSession` is the order in which a connection is made, used and
given back.
-/

namespace OemAaMod.Bus

inductive JciCall
  | create (ok : Bool)
  | connect (ok : Bool)
  | workerStart (ok : Bool)
  /-- `VBS_NAVI_*` -/
  | clientCall
  | workerStop
  | disconnect
  | free
deriving DecidableEq

/-- The calls on one connection, if there is one. What came of the start of the worker makes
no difference to what follows. -/
inductive JciSession : List JciCall → Prop
  | notCreated : JciSession [.create false]
  | refused : JciSession [.create true, .connect false, .free]
  | whole (started : Bool) {uses : List JciCall} (h : ∀ c ∈ uses, c = .clientCall) :
    JciSession ([.create true, .connect true, .workerStart started] ++ uses ++
      [.workerStop, .disconnect, .free])

end OemAaMod.Bus
