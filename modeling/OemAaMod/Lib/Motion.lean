import Mathlib.Data.Finset.Card

/-!
# Pointer-event streams

A receiver of touch events keeps the set `P` of the pointers it was told are
down. Each event lists the pointers it knows of; a landing or a leaving pointer
is named by its position in the list. `next` says which events a receiver
accepts with `P` down, and what is down afterwards.

* `next_land`, `next_leave`, `next_move` — the events a sender may always send;
* `listed_of_next_leave` — a leave lists everything that is down;
* `next_inj` — an event says what is down before it;
* `run` — a whole stream, refused as soon as one event is.
-/

namespace Motion

inductive Action
  | down
  | up
  | move
  | pointerDown
  | pointerUp
deriving DecidableEq, Repr

/-- An event: the pointers it lists, and the position of the one it is about. -/
structure Event (α : Type*) where
  action : Action
  ids    : List α
  index  : Nat
deriving DecidableEq

variable {α : Type*} [DecidableEq α]

/-- The pointers down after the event, where a receiver of at most `m` pointers
accepts it. -/
def next (m : Nat) (P : Finset α) (e : Event α) : Option (Finset α) :=
  if 1 ≤ e.ids.length ∧ e.ids.length ≤ m ∧ e.ids.Nodup then
    match e.action with
    | .down => if P = ∅ ∧ e.ids.length = 1 then some e.ids.toFinset else none
    | .pointerDown =>
      match e.ids[e.index]? with
      | some a => if a ∉ P ∧ e.ids.toFinset = insert a P then some (insert a P) else none
      | none => none
    | .move => if e.ids.toFinset = P then some P else none
    | .pointerUp =>
      match e.ids[e.index]? with
      | some a => if 2 ≤ e.ids.length ∧ e.ids.toFinset = P then some (P.erase a) else none
      | none => none
    | .up => if e.ids.length = 1 ∧ e.ids.toFinset = P then some ∅ else none
  else none

/-- A whole stream. -/
def run (m : Nat) (P : Finset α) (es : List (Event α)) : Option (Finset α) :=
  es.foldlM (next m) P

variable {m : Nat} {P : Finset α} {e : Event α}

/-! ## What may be sent -/

/-- The event of a pointer `a` that lands among others: `DOWN` if there are none. -/
theorem next_land {ids : List α} {i : Nat} {a : α} (hnodup : ids.Nodup) (hle : ids.length ≤ m)
    (ha : ids[i]? = some a) (hnew : a ∉ P) (hids : ids.toFinset = insert a P) :
    next m P ⟨if ids.length = 1 then .down else .pointerDown, ids, i⟩ = some (insert a P) := by
  have hpos : 1 ≤ ids.length := List.length_pos_of_mem (List.mem_of_getElem? ha)
  unfold next
  rw [if_pos ⟨hpos, hle, hnodup⟩]
  by_cases hone : ids.length = 1
  · have hP : P = ∅ := by
      have hcard := congrArg Finset.card hids
      rw [List.toFinset_card_of_nodup hnodup, Finset.card_insert_of_notMem hnew] at hcard
      exact Finset.card_eq_zero.mp (by omega)
    simp [hone, hP, hids]
  · simp [hone, ha, hnew, hids]

/-- The event of a pointer `a` that leaves: `UP` if it is the last. -/
theorem next_leave {ids : List α} {i : Nat} {a : α} (hnodup : ids.Nodup) (hle : ids.length ≤ m)
    (ha : ids[i]? = some a) (hids : ids.toFinset = P) :
    next m P ⟨if ids.length = 1 then .up else .pointerUp, ids, i⟩ = some (P.erase a) := by
  have hmem : a ∈ ids := List.mem_of_getElem? ha
  have hpos : 1 ≤ ids.length := List.length_pos_of_mem hmem
  unfold next
  rw [if_pos ⟨hpos, hle, hnodup⟩]
  by_cases hone : ids.length = 1
  · obtain ⟨b, rfl⟩ := List.length_eq_one_iff.mp hone
    rw [List.mem_singleton] at hmem
    subst hmem
    simp [← hids]
  · have htwo : 2 ≤ ids.length := by omega
    simp [hone, ha, htwo, hids]

theorem next_move {ids : List α} {i : Nat} (hne : ids ≠ []) (hnodup : ids.Nodup)
    (hle : ids.length ≤ m) (hids : ids.toFinset = P) : next m P ⟨.move, ids, i⟩ = some P := by
  have hpos : 1 ≤ ids.length := List.length_pos_iff.mpr hne
  simp [next, hpos, hle, hnodup, hids]

/-! ## What an accepted event says -/

/-- An event of a leaving pointer lists exactly what is down. -/
theorem listed_of_next_leave {P' : Finset α} (hact : e.action = .up ∨ e.action = .pointerUp)
    (h : next m P e = some P') : e.ids.toFinset = P := by
  unfold next at h
  split at h
  · rcases hact with hact | hact
    · rw [hact] at h
      dsimp only at h
      split at h
      · rename_i hlists
        exact hlists.2
      · exact absurd h (by simp)
    · rw [hact] at h
      dsimp only at h
      split at h
      · split at h
        · rename_i hlists
          exact hlists.2
        · exact absurd h (by simp)
      · exact absurd h (by simp)
  · exact absurd h (by simp)

/-- Whatever it is about, an event is accepted with one set of pointers down only. -/
theorem next_inj {P' Q Q' : Finset α} (h : next m P e = some Q) (h' : next m P' e = some Q') :
    P = P' := by
  unfold next at h h'
  split at h
  · rename_i hlist
    rw [if_pos hlist] at h'
    cases hact : e.action with
    | down =>
      simp only [hact, Option.ite_none_right_eq_some] at h h'
      rw [h.1.1, h'.1.1]
    | up =>
      simp only [hact, Option.ite_none_right_eq_some] at h h'
      rw [← h.1.2, ← h'.1.2]
    | move =>
      simp only [hact, Option.ite_none_right_eq_some] at h h'
      rw [← h.1, ← h'.1]
    | pointerDown =>
      cases ha : e.ids[e.index]? with
      | none => simp [hact, ha] at h
      | some a =>
        simp only [hact, ha, Option.ite_none_right_eq_some] at h h'
        obtain ⟨⟨hnew, hids⟩, -⟩ := h
        obtain ⟨⟨hnew', hids'⟩, -⟩ := h'
        -- both are the list without the pointer that lands
        rw [← Finset.erase_insert hnew, ← hids, hids', Finset.erase_insert hnew']
    | pointerUp =>
      cases ha : e.ids[e.index]? with
      | none => simp [hact, ha] at h
      | some a =>
        simp only [hact, ha, Option.ite_none_right_eq_some] at h h'
        rw [← h.1.2, ← h'.1.2]
  · exact absurd h (by simp)

/-! ## Streams -/

@[simp] theorem run_nil : run m P ([] : List (Event α)) = some P := rfl

@[simp] theorem run_cons (es : List (Event α)) :
    run m P (e :: es) = (next m P e).bind fun P' => run m P' es := rfl

theorem run_append (es fs : List (Event α)) :
    run m P (es ++ fs) = (run m P es).bind fun P' => run m P' fs :=
  List.foldlM_append

/-- What follows an accepted stream is judged from where it ended. -/
theorem run_append_of_some {P' : Finset α} {es fs : List (Event α)}
    (h : run m P es = some P') : run m P (es ++ fs) = run m P' fs := by
  rw [run_append, h, Option.bind_some]

/-- A refused event refuses the stream. -/
theorem run_cons_none {es : List (Event α)} (h : next m P e = none) : run m P (e :: es) = none := by
  rw [run_cons, h, Option.bind_none]

end Motion
