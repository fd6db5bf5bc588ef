import OemAaMod.Lib.Text

/-!
# Edited text files

A file that comes of another by rewriting each line and adding lines behind it.

* `Edited` — how the lines are rewritten, and what is added;
* `Edited.insert`, `Edited.sed`, `Edited.strip` — the line tools go on with an edited file;
* `Edited.eq`, `Edited.inj` — two edits of a file have the same result.
-/

namespace Text

variable {α : Type*}

/-- `t` is `p` with every line `l` rewritten to `b l` and followed by the lines `ins l`. -/
structure Edited (b : List α → List α) (ins : List α → List (List α)) (p t : File α) : Prop where
  records : records t = (records p).flatMap fun l => b l :: ins l
  rest    : t.rest = [] ↔ p.rest = []

variable {b b' g : List α → List α} {ins ins' : List α → List (List α)} {p t t' : File α}
variable {q : List α → Bool}

theorem Edited.refl (p : File α) : Edited id (fun _ => []) p p where
  records := (List.flatMap_singleton' _).symm
  rest := Iff.rfl

theorem Edited.congr (h : Edited b ins p t)
    (heq : ∀ l ∈ Text.records p, b l = b' l ∧ ins l = ins' l) : Edited b' ins' p t where
  records := by
    rw [h.records]
    refine List.flatMap_congr fun l hl => ?_
    rw [(heq l hl).1, (heq l hl).2]
  rest := h.rest

theorem Edited.eq (h : Edited b ins p t) (h' : Edited b' ins' p t')
    (heq : ∀ l ∈ Text.records p, b l = b' l ∧ ins l = ins' l) : t = t' :=
  ext_records ((h.congr heq).records.trans h'.records.symm) (h.rest.trans h'.rest.symm)

/-- With the same lines added the lines are rewritten in the same way. -/
theorem Edited.inj (h : Edited b ins p t) (h' : Edited b' ins p t) :
    ∀ l ∈ Text.records p, b l = b' l := by
  have heq := h.records.symm.trans h'.records
  generalize Text.records p = ls at heq
  induction ls with
  | nil => exact fun l hl => absurd hl List.not_mem_nil
  | cons l ls ih =>
    rw [List.flatMap_cons, List.flatMap_cons, List.cons_append, List.cons_append,
      List.cons.injEq] at heq
    intro l' hl'
    rcases List.mem_cons.mp hl' with rfl | hl'
    · exact heq.1
    · exact ih (List.append_cancel_left heq.2) l' hl'

theorem Edited.mem {l : List α} (h : Edited b ins p t) (hl : l ∈ Text.records p) :
    b l ∈ Text.records t := by
  rw [h.records, List.mem_flatMap]
  exact ⟨l, hl, List.mem_cons_self⟩

/-- What is found in an edited file. -/
theorem Edited.grepQ_iff (h : Edited b ins p t) : grepQ q t = true ↔
    ∃ l ∈ Text.records p, q (b l) = true ∨ ∃ x ∈ ins l, q x = true := by
  rw [grepQ, h.records, List.any_flatMap, List.any_eq_true]
  simp only [List.any_cons, Bool.or_eq_true, List.any_eq_true]

theorem Edited.countP (h : Edited b ins p t) (hb : ∀ l, q (b l) = q l)
    (hins : ∀ l ∈ Text.records p, ∀ x ∈ ins l, q x = false) :
    (Text.records t).countP q = (Text.records p).countP q := by
  rw [h.records]
  generalize hls : Text.records p = ls at hins
  clear hls
  induction ls with
  | nil => rfl
  | cons l ls ih =>
    have hnone : (ins l).countP q = 0 :=
      List.countP_eq_zero.mpr fun x hx => by simp [hins l List.mem_cons_self x hx]
    rw [List.flatMap_cons, List.countP_append, List.countP_cons, List.countP_cons, hnone, hb,
      ih fun l hl => hins l (List.mem_cons_of_mem _ hl)]
    omega

/-! ## The line tools -/

theorem Edited.insert (h : Edited b ins p t) (lines : List (List α)) (hb : ∀ l, q (b l) = q l)
    (hins : ∀ l ∈ Text.records p, ∀ x ∈ ins l, q x = false) (hrest : p.rest = []) :
    Edited b (fun l => (if q l then lines else []) ++ ins l) p (awk t (insertBehind q lines)) where
  records := by
    rw [records_awk, h.records, List.flatMap_assoc]
    refine List.flatMap_congr fun l hl => ?_
    rw [List.flatMap_cons, insertBehind_of_none lines (hins l hl), insertBehind, hb]
    split <;> rfl
  rest := iff_of_true rfl hrest

theorem Edited.sed (h : Edited b ins p t) (hg : ∀ l, l ≠ [] → g l ≠ [])
    (hins : ∀ l ∈ Text.records p, ∀ x ∈ ins l, g x = x) : Edited (g ∘ b) ins p (sed t g) where
  records := by
    rw [records_sed hg, h.records, List.map_flatMap]
    refine List.flatMap_congr fun l hl => ?_
    rw [List.map_cons, map_eq_self.mpr (hins l hl)]
    rfl
  rest := (rest_sed hg).trans h.rest

/-- Only added lines are stripped. -/
theorem Edited.strip (h : Edited b ins p t) (hb : ∀ l ∈ Text.records p, q (b l) = false)
    (hrest : p.rest = []) :
    Edited b (fun l => (ins l).filter fun x => !q x) p (strip q t) := by
  by_cases hall : (Text.records t).all q = true
  · have hempty : Text.records p = [] := by
      rw [List.eq_nil_iff_forall_not_mem]
      intro l hl
      have hq := List.all_eq_true.mp hall _ (h.mem hl)
      rw [hb l hl] at hq
      exact Bool.false_ne_true hq
    rw [Text.strip, if_pos hall]
    exact h.congr fun l hl => absurd (hempty ▸ hl) List.not_mem_nil
  · rw [Text.strip, if_neg hall]
    refine ⟨?_, iff_of_true rfl hrest⟩
    rw [records_grepV, h.records, List.filter_flatMap]
    refine List.flatMap_congr fun l hl => ?_
    rw [List.filter_cons_of_pos (by simp [hb l hl])]

end Text
