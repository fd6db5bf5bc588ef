import Mathlib.Logic.Function.Basic
import Mathlib.Data.List.Basic

/-!
# Write logs

Registers that are written one at a time, and the log of the writes, newest first.
A write names its register by an address; several addresses may reach one register.

* `newest` — the newest value among the addresses of some kind;
* `store` — the registers after a log, `reach` being the register of an address;
* `store_eq_newest` — a register holds the newest value of all that reach it;
* `store_eq_of_own` — of one address alone, if no other has reached it.
-/

namespace WriteLog

variable {κ ι β : Type*}

/-- The newest value written at an address with `p`. -/
def newest (p : κ → Bool) : List (κ × β) → Option β
  | [] => none
  | w :: log => if p w.1 then some w.2 else newest p log

@[simp] theorem newest_nil (p : κ → Bool) : newest p ([] : List (κ × β)) = none := rfl

theorem newest_cons (p : κ → Bool) (w : κ × β) (log : List (κ × β)) :
    newest p (w :: log) = if p w.1 then some w.2 else newest p log := rfl

/-- Only the addresses that were written count. -/
theorem newest_congr {p q : κ → Bool} {log : List (κ × β)} (h : ∀ w ∈ log, p w.1 = q w.1) :
    newest p log = newest q log := by
  induction log with
  | nil => rfl
  | cons w log ih =>
    rw [newest_cons, newest_cons, h w List.mem_cons_self,
      ih fun w' hw' => h w' (List.mem_cons_of_mem w hw')]

section Store

variable [DecidableEq ι] (reach : κ → ι) (init : ι → β)

def store : List (κ × β) → ι → β
  | [] => init
  | w :: log => Function.update (store log) (reach w.1) w.2

@[simp] theorem store_nil : store reach init [] = init := rfl

theorem store_cons (w : κ × β) (log : List (κ × β)) (i : ι) :
    store reach init (w :: log) i =
      if reach w.1 = i then w.2 else store reach init log i := by
  rw [store, Function.update_apply]
  by_cases h : reach w.1 = i
  · rw [if_pos h, if_pos h.symm]
  · rw [if_neg h, if_neg fun h' => h h'.symm]

/-- **A register holds the newest value of the addresses that reach it.** -/
theorem store_eq_newest (log : List (κ × β)) (i : ι) :
    store reach init log i = (newest (fun k => decide (reach k = i)) log).getD (init i) := by
  induction log with
  | nil => rfl
  | cons w log ih =>
    rw [store_cons, newest_cons]
    by_cases h : reach w.1 = i
    · rw [if_pos h, if_pos (decide_eq_true h), Option.getD_some]
    · rw [if_neg h, if_neg (by simpa using h), ih]

/-- A register that only the address `a` has reached. -/
theorem store_eq_of_own [DecidableEq κ] {log : List (κ × β)} {a : κ} {i : ι} (ha : reach a = i)
    (hown : ∀ w ∈ log, reach w.1 = i → w.1 = a) :
    store reach init log i = (newest (fun k => decide (k = a)) log).getD (init i) := by
  rw [store_eq_newest]
  congr 1
  refine newest_congr fun w hw => ?_
  rw [decide_eq_decide]
  exact ⟨hown w hw, fun h => h ▸ ha⟩

end Store

end WriteLog
