import Mathlib.Data.List.Destutter
import Mathlib.Data.List.ReduceOption

/-!
# Change gates

A change gate passes a value on unless it is the same as the last one it passed. A
break makes it forget that one, so that the next value passes whatever it is.

* `next`, `emits` — the gate on one item, `none` being a break;
* `passed`, `held` — what passes of a list of items, and the value held after it;
* `collapse` — the runs between breaks, equal neighbours collapsed;
* `passed_eq_collapse` — that is what passes;
* `getLast?_passed`, `exists_held_concat` — the value held is the last one passed, and the
  same as the last one offered.
-/

namespace ChangeGate

variable {α : Type*} (same : α → α → Prop) [DecidableRel same]

/-- The value held after an item. -/
def next : Option α → Option α → Option α
  | _, none => none
  | none, some a => some a
  | some b, some a => if same b a then some b else some a

/-- What passes of an item. -/
def emits : Option α → Option α → Option α
  | _, none => none
  | none, some a => some a
  | some b, some a => if same b a then none else some a

def held (h : Option α) (items : List (Option α)) : Option α := items.foldl (next same) h

def passed : Option α → List (Option α) → List α
  | _, [] => []
  | h, x :: items => (emits same h x).toList ++ passed (next same h x) items

/-- Equal neighbours collapsed, from break to break. -/
def collapse (items : List (Option α)) : List α :=
  (items.splitOnP Option.isNone).flatMap fun run => run.reduceOption.destutter (¬same · ·)

variable {same}

theorem held_append (h : Option α) (items items' : List (Option α)) :
    held same h (items ++ items') = held same (held same h items) items' := List.foldl_append

@[simp] theorem passed_singleton (h x : Option α) : passed same h [x] = (emits same h x).toList :=
  List.append_nil _

theorem passed_append (h : Option α) (items items' : List (Option α)) :
    passed same h (items ++ items') =
      passed same h items ++ passed same (held same h items) items' := by
  induction items generalizing h with
  | nil => rfl
  | cons x items ih =>
    rw [List.cons_append, passed, passed, ih, List.append_assoc]
    rfl

/-! ## What passes -/

/-- From a held value on: the first run goes on from it, the others stand for themselves. -/
theorem passed_split (same : α → α → Prop) [DecidableRel same] (items : List (Option α)) :
    ∃ run runs, items.splitOnP Option.isNone = run :: runs ∧
      passed same none items =
        run.reduceOption.destutter (¬same · ·) ++
          runs.flatMap (fun r => r.reduceOption.destutter (¬same · ·)) ∧
      ∀ b, b :: passed same (some b) items =
        run.reduceOption.destutter' (¬same · ·) b ++
          runs.flatMap (fun r => r.reduceOption.destutter (¬same · ·)) := by
  induction items with
  | nil => exact ⟨[], [], rfl, rfl, fun b => rfl⟩
  | cons x items ih =>
    obtain ⟨run, runs, hsplit, hnone, hsome⟩ := ih
    cases x with
    | none =>
      -- a break: an empty run, and the gate starts anew
      refine ⟨[], run :: runs, ?_, ?_, fun b => ?_⟩
      · rw [List.splitOnP_cons_eq_if_modifyHead, if_pos (by simp), hsplit]
      · exact hnone
      · exact congrArg (b :: ·) hnone
    | some a =>
      have hrun : (some a :: run).reduceOption = a :: run.reduceOption :=
        List.reduceOption_cons_of_some ..
      refine ⟨some a :: run, runs, ?_, ?_, fun b => ?_⟩
      · rw [List.splitOnP_cons_eq_if_modifyHead, if_neg (by simp), hsplit, List.modifyHead_cons]
      · rw [hrun, List.destutter_cons']
        exact hsome a
      · rw [hrun, List.destutter'_cons]
        by_cases hsame : same b a
        · have hstep : passed same (some b) (some a :: items) = passed same (some b) items := by
            simp [passed, emits, next, hsame]
          rw [hstep, if_neg (not_not.mpr hsame)]
          exact hsome b
        · have hstep : passed same (some b) (some a :: items) = a :: passed same (some a) items := by
            simp [passed, emits, next, hsame]
          rw [hstep, if_pos hsame, List.cons_append, hsome a]

/-- **A change gate collapses equal neighbours**, and a break starts it anew. -/
theorem passed_eq_collapse (items : List (Option α)) :
    passed same none items = collapse same items := by
  obtain ⟨run, runs, hsplit, hnone, -⟩ := passed_split same items
  rw [collapse, hsplit, hnone, List.flatMap_cons]

/-! ## The value held -/

/-- The value held is the last one passed. -/
theorem getLast?_passed {items : List (Option α)} {b : α} (h : held same none items = some b) :
    (passed same none items).getLast? = some b := by
  induction items using List.reverseRecOn generalizing b with
  | nil => exact absurd h (by simp [held])
  | append_singleton items x ih =>
    rw [held_append] at h
    rw [passed_append]
    generalize hbefore : held same none items = before at h ih ⊢
    cases x with
    | none => exact absurd h (by simp [held, next])
    | some a =>
      cases before with
      | none =>
        obtain rfl : a = b := Option.some_inj.mp h
        exact List.getLast?_concat
      | some c =>
        by_cases hsame : same c a
        · -- shut: nothing is added, and the value stays
          have hnothing : passed same (some c) [some a] = [] := by
            simp [emits, hsame]
          have hstay : held same (some c) [some a] = some c := by
            simp [held, next, hsame]
          rw [hnothing, List.append_nil]
          exact ih (hstay.symm.trans h)
        · have hpass : passed same (some c) [some a] = [a] := by
            simp [emits, hsame]
          have hmove : held same (some c) [some a] = some a := by
            simp [held, next, hsame]
          obtain rfl : a = b := Option.some_inj.mp (hmove.symm.trans h)
          rw [hpass]
          exact List.getLast?_concat

/-- A value offered is the same as the one held then. -/
theorem exists_held_concat (hrefl : ∀ a, same a a) (h : Option α) (items : List (Option α)) (a : α) :
    ∃ b, held same h (items ++ [some a]) = some b ∧ same b a := by
  rw [held_append]
  cases held same h items with
  | none => exact ⟨a, rfl, hrefl a⟩
  | some c =>
    by_cases hsame : same c a
    · exact ⟨c, by simp [held, next, hsame], hsame⟩
    · exact ⟨a, by simp [held, next, hsame], hrefl a⟩

end ChangeGate
