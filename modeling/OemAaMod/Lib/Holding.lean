import Mathlib.Data.Finset.Basic

/-!
# Who holds what

Places that hold one item each, and the set of the items that are out.

* `Holds` — the items that are out are held, each at one place;
* `Holds.take`, `Holds.give` — an item is handed out and comes back.
-/

namespace Holding

variable {ι α : Type*}

/-- The items `s` are out, and each is at one of the places `held`. -/
structure Holds (held : ι → Option α) (s : Finset α) : Prop where
  mem : ∀ x, x ∈ s ↔ ∃ i, held i = some x
  own : ∀ i j x, held i = some x → held j = some x → i = j

variable {held : ι → Option α} {s : Finset α} {i : ι} {x : α}

theorem holds_empty : Holds (fun _ : ι => (none : Option α)) ∅ where
  mem _ := by simp
  own _ _ _ h := nomatch h

/-- Nothing is out if no place holds anything. -/
theorem Holds.eq_empty (h : Holds held s) (hnone : ∀ i, held i = none) : s = ∅ := by
  rw [Finset.eq_empty_iff_forall_notMem]
  intro x hx
  obtain ⟨i, hi⟩ := (h.mem x).mp hx
  rw [hnone i] at hi
  exact nomatch hi

variable [DecidableEq ι]

/-- An empty place stays empty. -/
theorem Holds.keep (h : Holds held s) (hi : held i = none) :
    Holds (Function.update held i none) s := by
  rw [← hi, Function.update_eq_self]
  exact h

variable [DecidableEq α]

/-- A new item goes to an empty place. -/
theorem Holds.take (h : Holds held s) (hi : held i = none) (hx : x ∉ s) :
    Holds (Function.update held i (some x)) (insert x s) where
  mem y := by
    rw [Finset.mem_insert, h.mem]
    constructor
    · rintro (rfl | ⟨j, hj⟩)
      · exact ⟨i, Function.update_self ..⟩
      · have hne : j ≠ i := by
          rintro rfl
          rw [hi] at hj
          exact nomatch hj
        exact ⟨j, (Function.update_of_ne hne ..).trans hj⟩
    · rintro ⟨j, hj⟩
      by_cases hji : j = i
      · subst hji
        rw [Function.update_self] at hj
        exact .inl (Option.some_inj.mp hj).symm
      · rw [Function.update_of_ne hji] at hj
        exact .inr ⟨j, hj⟩
  own j j' y hj hj' := by
    have hnew : ∀ j, j ≠ i → Function.update held i (some x) j = some x → False := by
      intro j hji hj
      rw [Function.update_of_ne hji] at hj
      exact hx ((h.mem x).mpr ⟨j, hj⟩)
    by_cases hji : j = i
    · by_cases hji' : j' = i
      · rw [hji, hji']
      · rw [hji, Function.update_self, Option.some_inj] at hj
        exact (hnew j' hji' (hj ▸ hj')).elim
    · by_cases hji' : j' = i
      · rw [hji', Function.update_self, Option.some_inj] at hj'
        exact (hnew j hji (hj' ▸ hj)).elim
      · rw [Function.update_of_ne hji] at hj
        rw [Function.update_of_ne hji'] at hj'
        exact h.own j j' y hj hj'

/-- An item comes back. -/
theorem Holds.give (h : Holds held s) (hi : held i = some x) :
    Holds (Function.update held i none) (s.erase x) where
  mem y := by
    rw [Finset.mem_erase, h.mem]
    constructor
    · rintro ⟨hne, j, hj⟩
      have hji : j ≠ i := by
        rintro rfl
        exact hne (Option.some_inj.mp (hj.symm.trans hi))
      exact ⟨j, (Function.update_of_ne hji ..).trans hj⟩
    · rintro ⟨j, hj⟩
      have hji : j ≠ i := by
        rintro rfl
        rw [Function.update_self] at hj
        exact nomatch hj
      rw [Function.update_of_ne hji] at hj
      refine ⟨?_, j, hj⟩
      rintro rfl
      exact hji (h.own j i y hj hi)
  own j j' y hj hj' := by
    have hother : ∀ j, Function.update held i none j = some y → held j = some y := by
      intro j hj
      by_cases hji : j = i
      · subst hji
        rw [Function.update_self] at hj
        exact nomatch hj
      · rwa [Function.update_of_ne hji] at hj
    exact h.own j j' y (hother j hj) (hother j' hj')

end Holding
