import Mathlib.Data.List.Induction

/-!
# The last assignment wins

A list of items is gone through in order, and some of them assign a value.

* `last` — the value of the last item that assigns one;
* `foldl_last` — what a fold that assigns on its way ends with;
* `last_flatMap` — items that come in parts;
* `IsLast`, `isLast_iff` — the same, said of the items.
-/

namespace LastAssign

variable {ι β σ : Type*} {f : ι → Option β} {items : List ι}

/-- The value that the last assigning item assigns. -/
def last (f : ι → Option β) (items : List ι) : Option β := items.reverse.findSome? f

@[simp] theorem last_nil : last f [] = none := rfl

theorem last_concat (items : List ι) (x : ι) :
    last f (items ++ [x]) = (f x).or (last f items) := by
  unfold last
  rw [List.reverse_append, List.reverse_singleton, List.singleton_append, List.findSome?_cons]
  cases f x <;> rfl

theorem last_append (items items' : List ι) :
    last f (items ++ items') = (last f items').or (last f items) := by
  unfold last
  rw [List.reverse_append, List.findSome?_append]

/-- Items that assign nothing do not count. -/
theorem last_congr {f' : ι → Option β} {items' : List ι}
    (h : items.filterMap f = items'.filterMap f') : last f items = last f' items' := by
  have hlast (g : ι → Option β) (l : List ι) : last g l = (l.filterMap g).getLast? := by
    unfold last
    rw [← List.head?_reverse, ← List.filterMap_reverse, List.head?_filterMap]
  rw [hlast, hlast, h]

/-- A fold whose steps assign. -/
theorem foldl_last (step : σ → ι → σ) (get : σ → β) (h : ∀ s x, get (step s x) = (f x).getD (get s))
    (s : σ) (items : List ι) :
    get (items.foldl step s) = (last f items).getD (get s) := by
  induction items using List.reverseRecOn with
  | nil => rfl
  | append_singleton items x ih =>
    rw [List.foldl_append, List.foldl_cons, List.foldl_nil, h, ih, last_concat]
    cases f x <;> rfl

theorem last_eq_none : last f items = none ↔ ∀ x ∈ items, f x = none := by
  unfold last
  rw [List.findSome?_eq_none_iff]
  simp only [List.mem_reverse]

theorem last_eq_some {b : β} : last f items = some b ↔
    ∃ before x after, items = before ++ x :: after ∧ f x = some b ∧ ∀ y ∈ after, f y = none := by
  constructor
  · intro h
    induction items using List.reverseRecOn with
    | nil => exact absurd h (by simp)
    | append_singleton items x ih =>
      rw [last_concat] at h
      cases hx : f x with
      | some c =>
        rw [hx, Option.some_or, Option.some_inj] at h
        exact ⟨items, x, [], rfl, h ▸ hx, fun y hy => absurd hy List.not_mem_nil⟩
      | none =>
        rw [hx, Option.none_or] at h
        obtain ⟨before, y, after, rfl, hy, hafter⟩ := ih h
        refine ⟨before, y, after ++ [x], by simp, hy, ?_⟩
        exact List.forall_mem_append.mpr ⟨hafter, List.forall_mem_singleton.mpr hx⟩
  · rintro ⟨before, x, after, rfl, hx, hafter⟩
    rw [last_append, ← List.singleton_append, last_append, last_eq_none.mpr hafter]
    simp [last, hx]

/-! ### Items in parts -/

section Parts

variable {κ : Type*} {parts : ι → List κ} {g : κ → Option β}

/-- Items whose parts come to what they are. -/
theorem last_flatMap (h : ∀ x ∈ items, last g (parts x) = f x) :
    last g (items.flatMap parts) = last f items := by
  induction items using List.reverseRecOn with
  | nil => rfl
  | append_singleton items x ih =>
    obtain ⟨hitems, hx⟩ := List.forall_mem_append.mp h
    rw [List.flatMap_append, last_append, ih hitems, last_concat, List.flatMap_singleton,
      hx x (List.mem_singleton_self x)]

/-- Where no two items are for the same thing they come to the same only one by one. -/
theorem last_flatMap_iff {names : ι → Prop} (hnames : ∀ x ∈ items, ¬names x →
    f x = none ∧ last g (parts x) = none) (honce : items.Pairwise fun x y => ¬(names x ∧ names y)) :
    last g (items.flatMap parts) = last f items ↔ ∀ x ∈ items, last g (parts x) = f x := by
  refine ⟨fun h x hx => ?_, last_flatMap⟩
  by_cases hname : names x
  · obtain ⟨before, after, rfl⟩ := List.append_of_mem hx
    obtain ⟨-, hafter, hbefore⟩ := List.pairwise_append.mp honce
    have hnone (l : List ι) (hl : ∀ y ∈ l, y ∈ before ++ x :: after ∧ ¬names y) :
        last f l = none ∧ last g (l.flatMap parts) = none := by
      have hf : last f l = none :=
        last_eq_none.mpr fun y hy => (hnames y (hl y hy).1 (hl y hy).2).1
      refine ⟨hf, (last_flatMap fun y hy => ?_).trans hf⟩
      obtain ⟨hy, hg⟩ := hnames y (hl y hy).1 (hl y hy).2
      rw [hy, hg]
    have hleft := hnone before fun y hy =>
      ⟨List.mem_append_left _ hy, fun hn => hbefore y hy x List.mem_cons_self ⟨hn, hname⟩⟩
    have hright := hnone after fun y hy =>
      ⟨by simp [hy], fun hn => (List.pairwise_cons.mp hafter).1 y hy ⟨hname, hn⟩⟩
    -- only this one assigns, whole or in parts
    rw [List.flatMap_append, List.flatMap_cons, last_append, last_append, hright.2, hleft.2,
      last_append, ← List.singleton_append, last_append, hright.1, hleft.1] at h
    simpa [last] using h
  · obtain ⟨hf, hg⟩ := hnames x hx hname
    rw [hf, hg]

end Parts

/-- `r` is what the last assigning item assigns, or `init` where none assigns. -/
def IsLast (assigns : ι → β → Prop) (items : List ι) (init r : β) : Prop :=
  (∃ before x after, items = before ++ x :: after ∧ assigns x r ∧ ∀ y ∈ after, ∀ b, ¬assigns y b) ∨
    ((∀ y ∈ items, ∀ b, ¬assigns y b) ∧ r = init)

theorem isLast_iff {assigns : ι → β → Prop} (hf : ∀ x ∈ items, ∀ b, assigns x b ↔ f x = some b)
    {init r : β} : IsLast assigns items init r ↔ r = (last f items).getD init := by
  have hnone {x : ι} (hx : x ∈ items) : (∀ b, ¬assigns x b) ↔ f x = none := by
    rw [Option.eq_none_iff_forall_ne_some]
    exact forall_congr' fun b => not_congr (hf x hx b)
  unfold IsLast
  cases hlast : last f items with
  | none =>
    have hall := last_eq_none.mp hlast
    constructor
    · rintro (⟨before, x, after, heq, hassigns, -⟩ | ⟨-, rfl⟩)
      · have hx : x ∈ items := by simp [heq]
        rw [hf x hx, hall x hx] at hassigns
        exact absurd hassigns (by simp)
      · rfl
    · rintro rfl
      exact .inr ⟨fun y hy => (hnone hy).mpr (hall y hy), rfl⟩
  | some b =>
    obtain ⟨before, x, after, heq, hx, hafter⟩ := last_eq_some.mp hlast
    have hmem : x ∈ items := by simp [heq]
    constructor
    · rintro (⟨before', y, after', heq', hassigns, hafter'⟩ | ⟨hall, -⟩)
      · have hy : y ∈ items := by simp [heq']
        have hlast' : last f items = some r := last_eq_some.mpr ⟨before', y, after', heq',
          (hf y hy r).mp hassigns, fun z hz => (hnone (by simp [heq', hz])).mp (hafter' z hz)⟩
        exact Option.some_inj.mp (hlast'.symm.trans hlast)
      · exact absurd ((hf x hmem b).mpr hx) (hall x hmem b)
    · rintro rfl
      exact .inl ⟨before, x, after, heq, (hf x hmem _).mpr hx,
        fun y hy => (hnone (by simp [heq, hy])).mpr (hafter y hy)⟩

end LastAssign
