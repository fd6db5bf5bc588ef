import Mathlib.Data.List.Basic
import Mathlib.Data.List.Nodup

/-!
# A table of slots

A table of fixed length, each slot free or under a key.

* `insert` — into the first free slot, if there is one;
* `remove` — the first slot under a key;
* `keys` — the keys in the table: `insert` adds one unless the table is full, `remove`
  takes one away.
-/

namespace SlotTable

variable {σ κ : Type*} (key : σ → Option κ)

def keys (t : List σ) : List κ := t.filterMap key

def insert (x : σ) (t : List σ) : List σ :=
  t.replaceF fun y => if key y = none then some x else none

def remove [DecidableEq κ] (free : σ) (k : Option κ) (t : List σ) : List σ :=
  t.replaceF fun y => if key y = k then some free else none

/-- A slot is free. -/
def HasFree (t : List σ) : Prop := ∃ y ∈ t, key y = none

instance (t : List σ) : Decidable (HasFree key t) := inferInstanceAs (Decidable (∃ y ∈ t, _))

variable {key} {t : List σ} {x free : σ} {k : Option κ}

@[simp] theorem length_insert : (insert key x t).length = t.length := List.length_replaceF

@[simp] theorem length_remove [DecidableEq κ] : (remove key free k t).length = t.length :=
  List.length_replaceF

theorem mem_of_mem_replaceF {f : σ → Option σ} {z : σ} (h : z ∈ t.replaceF f) :
    z ∈ t ∨ ∃ y, f y = some z := by
  rcases List.exists_or_eq_self_of_replaceF f t with heq | ⟨y, y', l, r, -, hy, rfl, heq⟩
  · exact .inl (heq ▸ h)
  · rw [heq, List.mem_append, List.mem_cons] at h
    rcases h with h | rfl | h
    · exact .inl (List.mem_append_left _ h)
    · exact .inr ⟨y, hy⟩
    · exact .inl (List.mem_append_right _ (List.mem_cons_of_mem _ h))

theorem mem_insert {z : σ} (h : z ∈ insert key x t) : z ∈ t ∨ z = x := by
  rcases mem_of_mem_replaceF h with h | ⟨y, hy⟩
  · exact .inl h
  · obtain ⟨-, hz⟩ := Option.ite_none_right_eq_some.mp hy
    exact .inr (Option.some_inj.mp hz).symm

theorem mem_remove [DecidableEq κ] {z : σ} (h : z ∈ remove key free k t) : z ∈ t ∨ z = free := by
  rcases mem_of_mem_replaceF h with h | ⟨y, hy⟩
  · exact .inl h
  · obtain ⟨-, hz⟩ := Option.ite_none_right_eq_some.mp hy
    exact .inr (Option.some_inj.mp hz).symm

/-- A full table takes nothing. -/
theorem insert_full (h : ¬HasFree key t) : insert key x t = t :=
  List.replaceF_of_forall_none fun y hy => if_neg fun hnone => h ⟨y, hy, hnone⟩

/-- A free slot takes the key. -/
theorem keys_insert {a : κ} (hx : key x = some a) (h : HasFree key t) :
    (keys key (insert key x t)).Perm (a :: keys key t) := by
  obtain ⟨y, hy, hnone⟩ := h
  obtain ⟨z, z', l, r, -, hz, rfl, heq⟩ :=
    List.exists_of_replaceF (p := fun y => if key y = none then some x else none) hy (if_pos hnone)
  obtain ⟨hfree, hz'⟩ := Option.ite_none_right_eq_some.mp hz
  obtain rfl := Option.some_inj.mp hz'
  unfold insert keys
  rw [heq, List.filterMap_append, List.filterMap_append, List.filterMap_cons_some hx,
    List.filterMap_cons_none hfree]
  exact List.perm_middle

/-- What is removed is the first under its key. -/
theorem keys_remove [DecidableEq κ] {a : κ} (hfree : key free = none) :
    keys key (remove key free (some a) t) = (keys key t).erase a := by
  induction t with
  | nil => rfl
  | cons y t ih =>
    unfold remove keys at ih ⊢
    rw [List.replaceF_cons]
    by_cases hy : key y = some a
    · rw [if_pos hy]
      simp only [List.filterMap_cons, hfree, hy, List.erase_cons_head]
    · rw [if_neg hy]
      cases hkey : key y with
      | none => simpa only [List.filterMap_cons, hkey] using ih
      | some b =>
        have hne : b ≠ a := fun hba => hy (hkey.trans (congrArg some hba))
        have hbeq : ¬(b == a) = true := by simpa using hne
        simp only [List.filterMap_cons, hkey, ih]
        rw [List.erase_cons_tail hbeq]

/-- Nothing is under no key. -/
theorem keys_remove_none [DecidableEq κ] (hfree : key free = none) :
    keys key (remove key free none t) = keys key t := by
  rcases List.exists_or_eq_self_of_replaceF (fun y => if key y = none then some free else none) t
    with heq | ⟨y, y', l, r, -, hy, rfl, heq⟩
  · exact congrArg (keys key) heq
  · obtain ⟨hnone, hy'⟩ := Option.ite_none_right_eq_some.mp hy
    obtain rfl := Option.some_inj.mp hy'
    unfold remove keys
    rw [heq]
    simp only [List.filterMap_append, List.filterMap_cons, hfree, hnone]

end SlotTable
