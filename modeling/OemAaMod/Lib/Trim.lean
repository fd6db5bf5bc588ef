import Mathlib.Data.List.DropRight

/-!
# Trimming

What is left of a list without the elements of a kind at its right end, or at both.

* `IsRtrim`, `isRtrim_iff` — at the right end: `List.rdropWhile`;
* `IsTrim`, `isTrim_iff` — at both: `trim`.
-/

namespace Trim

variable {α : Type*} (p : α → Bool)

/-- `t` is `l` up to its trailing `p`. -/
def IsRtrim (l t : List α) : Prop :=
  ∃ right, l = t ++ right ∧ (∀ a ∈ right, p a = true) ∧ ∀ a ∈ t.getLast?, p a = false

/-- `t` is `l` between its leading and its trailing `p`. -/
def IsTrim (l t : List α) : Prop :=
  ∃ left right, l = left ++ t ++ right ∧ (∀ a ∈ left, p a = true) ∧ (∀ a ∈ right, p a = true) ∧
    (∀ a ∈ t.head?, p a = false) ∧ ∀ a ∈ t.getLast?, p a = false

def trim (l : List α) : List α := (l.dropWhile p).rdropWhile p

variable {p} {l t : List α}

theorem rdropWhile_append_of_all {right : List α} (hright : ∀ a ∈ right, p a = true) :
    (t ++ right).rdropWhile p = t.rdropWhile p := by
  induction right using List.reverseRecOn with
  | nil => rw [List.append_nil]
  | append_singleton right a ih =>
    rw [← List.append_assoc, List.rdropWhile_concat_pos _ _ _ (hright a (by simp))]
    exact ih fun b hb => hright b (List.mem_append_left _ hb)

theorem rdropWhile_eq_self (h : ∀ a ∈ t.getLast?, p a = false) : t.rdropWhile p = t := by
  rw [List.rdropWhile_eq_self_iff]
  intro hne
  rw [h _ (List.getLast?_eq_some_getLast hne)]
  exact Bool.false_ne_true

theorem getLast?_rdropWhile : ∀ a ∈ (l.rdropWhile p).getLast?, p a = false := by
  intro a ha
  have hne : l.rdropWhile p ≠ [] := by
    rintro hnil
    rw [hnil] at ha
    cases ha
  rw [List.getLast?_eq_some_getLast hne] at ha
  obtain rfl := Option.some_inj.mp ha
  simpa using List.rdropWhile_last_not p l hne

theorem isRtrim_iff : IsRtrim p l t ↔ l.rdropWhile p = t := by
  constructor
  · rintro ⟨right, rfl, hright, hlast⟩
    rw [rdropWhile_append_of_all hright, rdropWhile_eq_self hlast]
  · rintro rfl
    refine ⟨l.rtakeWhile p, List.rdropWhile_append_rtakeWhile.symm, ?_, getLast?_rdropWhile⟩
    exact fun a ha => List.mem_rtakeWhile_imp ha

theorem dropWhile_append_of_all {left : List α} (hleft : ∀ a ∈ left, p a = true) :
    (left ++ t).dropWhile p = t.dropWhile p := by
  rw [List.dropWhile_append, List.dropWhile_eq_nil_iff.mpr hleft]
  rfl

theorem dropWhile_eq_self (h : ∀ a ∈ t.head?, p a = false) : t.dropWhile p = t := by
  cases t with
  | nil => rfl
  | cons a t => rw [List.dropWhile_cons_of_neg (by simp [h a rfl])]

theorem head?_dropWhile : ∀ a ∈ (l.dropWhile p).head?, p a = false := by
  induction l with
  | nil => exact fun _ h => by cases h
  | cons a l ih =>
    rw [List.dropWhile_cons]
    split
    · exact ih
    · rename_i hneg
      rintro _ ⟨⟩
      simpa using hneg

theorem isTrim_iff : IsTrim p l t ↔ trim p l = t := by
  unfold trim
  constructor
  · rintro ⟨left, right, rfl, hleft, hright, hhead, hlast⟩
    rw [List.append_assoc, dropWhile_append_of_all hleft]
    cases t with
    | nil => rw [List.nil_append, List.dropWhile_eq_nil_iff.mpr hright, List.rdropWhile_nil]
    | cons a t =>
      rw [dropWhile_eq_self (by simpa using hhead), rdropWhile_append_of_all hright,
        rdropWhile_eq_self hlast]
  · rintro rfl
    refine ⟨l.takeWhile p, (l.dropWhile p).rtakeWhile p, ?_, ?_, ?_, ?_, getLast?_rdropWhile⟩
    · rw [List.append_assoc, List.rdropWhile_append_rtakeWhile, List.takeWhile_append_dropWhile]
    · exact fun a ha => List.mem_takeWhile_imp ha
    · exact fun a ha => List.mem_rtakeWhile_imp ha
    · intro a ha
      obtain ⟨rest, hrest⟩ := List.rdropWhile_prefix p (l := l.dropWhile p)
      have hhead : a ∈ (l.dropWhile p).head? := by
        rw [← hrest, List.head?_append]
        simp [Option.mem_def.mp ha]
      exact head?_dropWhile a hhead

end Trim
