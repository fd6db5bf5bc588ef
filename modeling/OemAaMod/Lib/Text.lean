import Mathlib.Data.List.Basic

/-!
# Text files

A text file is its lines, each with a newline, and what is behind the last newline. The
line tools see that rest as a line of its own where it is not empty.

* `grepQ`, `grepV`, `awk`, `sed`, `wcL` — `grep -q`, `grep -v`, an awk program that makes
  lines of each line, a sed program on single lines, `wc -l`;
* `strip` — `grep -v … > tmp && cp tmp file`;
* `ext_records` — a file is known by its lines and whether the last one ends in a newline.
-/

namespace Text

variable {α : Type*}

/-- The lines that end in a newline, and the rest. -/
@[ext] structure File (α : Type*) where
  lines : List (List α)
  rest  : List α := []
deriving DecidableEq

variable (p : List α → Bool) (t : File α)

/-- The lines as the tools see them. -/
def records : List (List α) := t.lines ++ if t.rest = [] then [] else [t.rest]

def grepQ : Bool := (records t).any p

def grepV : File α := ⟨(records t).filter fun l => !p l, []⟩

def awk (f : List α → List (List α)) : File α := ⟨(records t).flatMap f, []⟩

def sed (f : List α → List α) : File α := ⟨t.lines.map f, if t.rest = [] then [] else f t.rest⟩

def wcL : Nat := t.lines.length

/-- `grep -v` fails where it selects nothing. -/
def strip : File α := if (records t).all p then t else grepV p t

variable {p t} {t' : File α} {f : List α → List α}

/-! ## What the tools see of what they write -/

theorem ext_records (h : records t = records t') (hrest : t.rest = [] ↔ t'.rest = []) : t = t' := by
  unfold records at h
  by_cases hempty : t.rest = []
  · have hempty' := hrest.mp hempty
    rw [if_pos hempty, if_pos hempty', List.append_nil, List.append_nil] at h
    exact File.ext h (hempty.trans hempty'.symm)
  · rw [if_neg hempty, if_neg fun hempty' => hempty (hrest.mpr hempty')] at h
    obtain ⟨hlines, hlast⟩ := List.append_inj' h rfl
    exact File.ext hlines (List.cons.inj hlast).1

@[simp] theorem records_grepV : records (grepV p t) = (records t).filter fun l => !p l := by
  unfold grepV
  rw [records, if_pos rfl, List.append_nil]

@[simp] theorem records_awk (f : List α → List (List α)) :
    records (awk t f) = (records t).flatMap f := by
  unfold awk
  rw [records, if_pos rfl, List.append_nil]

theorem records_sed (hf : ∀ l, l ≠ [] → f l ≠ []) : records (sed t f) = (records t).map f := by
  unfold records sed
  rw [List.map_append]
  by_cases hempty : t.rest = []
  · simp [hempty]
  · simp [hempty, hf t.rest hempty]

theorem rest_sed (hf : ∀ l, l ≠ [] → f l ≠ []) : (sed t f).rest = [] ↔ t.rest = [] := by
  unfold sed
  by_cases hempty : t.rest = []
  · simp [hempty]
  · simp [hempty, hf t.rest hempty]

theorem length_records : (records t).length = wcL t + if t.rest = [] then 0 else 1 := by
  unfold records wcL
  by_cases hempty : t.rest = [] <;> simp [hempty]

theorem map_eq_self {β : Type*} {h : β → β} {l : List β} : l.map h = l ↔ ∀ a ∈ l, h a = a := by
  conv_lhs => rw [← List.map_id l, List.map_map]
  exact List.map_inj_left

/-- A sed program leaves a file as it is exactly if it does so with every line. -/
theorem sed_eq_self (hf : ∀ l, l ≠ [] → f l ≠ []) : sed t f = t ↔ ∀ l ∈ records t, f l = l := by
  constructor
  · intro h l hl
    have hmap := records_sed (t := t) hf
    rw [h] at hmap
    exact map_eq_self.mp hmap.symm l hl
  · intro h
    exact ext_records (by rw [records_sed hf, map_eq_self.mpr h]) (rest_sed hf)

theorem records_strip_sublist (p : List α → Bool) (t : File α) :
    (records (strip p t)).Sublist (records t) := by
  unfold strip
  split
  · exact List.Sublist.refl _
  · rw [records_grepV]
    exact List.filter_sublist

/-- A line that others are not like goes. -/
theorem not_mem_strip {l : List α} (hl : p l = true) (hall : (records t).all p = false) :
    l ∉ records (strip p t) := by
  rw [strip, if_neg (Bool.eq_false_iff.mp hall), records_grepV, List.mem_filter, hl]
  exact fun h => absurd h.2 (by simp)

/-- Lines are left to strip only where nothing was stripped. -/
theorem strip_eq_self (h : grepQ p (strip p t) = true) : strip p t = t := by
  unfold strip at h ⊢
  split
  · rfl
  · rename_i hall
    rw [if_neg hall, grepQ, records_grepV, List.any_eq_true] at h
    obtain ⟨l, hl, hp⟩ := h
    rw [List.mem_filter, hp] at hl
    exact absurd hl.2 (by simp)

/-! ## Inserting lines behind one -/

variable {β : Type*} {q : β → Bool} {l : List β}

/-- A list with one element that has a property. -/
theorem countP_eq_one_iff : l.countP q = 1 ↔ ∃ before x after,
    l = before ++ x :: after ∧ q x = true ∧ ∀ y ∈ before ++ after, q y = false := by
  constructor
  · intro h
    obtain ⟨x, hx, hqx⟩ := List.countP_pos_iff.mp (Nat.lt_of_lt_of_eq Nat.one_pos h.symm)
    obtain ⟨before, after, rfl⟩ := List.append_of_mem hx
    refine ⟨before, x, after, rfl, hqx, ?_⟩
    rw [List.countP_append, List.countP_cons_of_pos hqx] at h
    have hrest : (before ++ after).countP q = 0 := by
      rw [List.countP_append]
      omega
    simpa using List.countP_eq_zero.mp hrest
  · rintro ⟨before, x, after, rfl, hqx, hrest⟩
    have hnone : (before ++ after).countP q = 0 := by
      rw [List.countP_eq_zero]
      exact fun y hy => by simp [hrest y hy]
    rw [List.countP_append] at hnone
    rw [List.countP_append, List.countP_cons_of_pos hqx]
    omega

/-- `ins` behind every element that has the property. -/
def insertBehind (q : β → Bool) (ins : List β) (x : β) : List β := if q x then x :: ins else [x]

theorem length_insertBehind (ins : List β) :
    (l.flatMap (insertBehind q ins)).length = l.length + l.countP q * ins.length := by
  induction l with
  | nil => simp
  | cons x l ih =>
    rw [List.flatMap_cons, List.length_append, ih]
    by_cases hx : q x = true
    · simp only [insertBehind, if_pos hx, List.length_cons, List.countP_cons_of_pos hx, Nat.add_mul]
      omega
    · simp only [insertBehind, if_neg hx, List.length_cons, List.length_nil,
        List.countP_cons_of_neg hx]
      omega

theorem insertBehind_of_none (ins : List β) (h : ∀ x ∈ l, q x = false) :
    l.flatMap (insertBehind q ins) = l := by
  induction l with
  | nil => rfl
  | cons x l ih =>
    rw [List.flatMap_cons, ih fun y hy => h y (List.mem_cons_of_mem _ hy), insertBehind,
      h x List.mem_cons_self]
    rfl

end Text
