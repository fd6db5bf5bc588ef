import OemAaMod.Installer.Runs
import OemAaMod.Lib.Edit

/-!
# What an install makes of an untouched unit

* `setNo`, `entries` — what becomes of a line of a config, and what comes behind it;
* `Installed` — a unit whose configs are edited so; `Installed.patchService`,
  `installed_install`.
-/

namespace OemAaMod.Installer

open CStr (Bytes)
open Text (Edited File records grepQ awk sed strip insertBehind)

/-- Nothing is installed. -/
def untouched (text : Conf → Option (File UInt8)) : Fs where
  conf c := ⟨text c, none⟩
  lib _ := false

/-- The lines of a service are inserted in the config. -/
def Accepts (svc : Service) (text : Conf → Option (File UInt8)) (c : Conf) (p : File UInt8) :
    Prop :=
  target svc (untouched text) = some c ∧ ¬SanityFailed svc p

instance (svc : Service) (text : Conf → Option (File UInt8)) (c : Conf) (p : File UInt8) :
    Decidable (Accepts svc text c p) := inferInstanceAs (Decidable (_ ∧ _))

/-- A line of a config with the `reset_board` of the services that are patched there. -/
def setNo (text : Conf → Option (File UInt8)) (c : Conf) (svcs : List Service) (l : Bytes) :
    Bytes :=
  svcs.foldl (fun l svc =>
    if target svc (untouched text) = some c then onNaming svc resetNo l else l) l

/-- No line has the name of a library. -/
def NoToken (text : Conf → Option (File UInt8)) : Prop :=
  ∀ c p, text c = some p → ∀ l ∈ records p, ∀ svc, hasToken svc l = false

variable {text : Conf → Option (File UInt8)} {c : Conf} {p t : File UInt8} {fs : Fs}
variable {svc : Service} {svcs : List Service} {l : Bytes} {b : Bytes → Bytes}
variable {ins : Bytes → List Bytes}

/-! ## Lines -/

theorem Quiet.id : Quiet id :=
  ⟨fun _ _ => rfl, fun _ _ => rfl, fun _ => rfl, fun _ h => h⟩

theorem Quiet.comp {f g : Bytes → Bytes} (hg : Quiet g) (hf : Quiet f) : Quiet (g ∘ f) where
  names svc l := (hg.names svc _).trans (hf.names svc l)
  hasToken svc l := (hg.hasToken svc _).trans (hf.hasToken svc l)
  ldPath l := (hg.ldPath _).trans (hf.ldPath l)
  ne_nil l hl := hg.ne_nil _ (hf.ne_nil l hl)

theorem setNo_append (svcs : List Service) (svc : Service) (l : Bytes) :
    setNo text c (svcs ++ [svc]) l = if target svc (untouched text) = some c
      then onNaming svc resetNo (setNo text c svcs l) else setNo text c svcs l := by
  unfold setNo
  rw [List.foldl_append]
  rfl

/-- In a config in which nothing is patched nothing is rewritten. -/
theorem setNo_of_bare (hbare : ¬∃ svc ∈ svcs, target svc (untouched text) = some c) (l : Bytes) :
    setNo text c svcs l = l := by
  induction svcs using List.reverseRecOn with
  | nil => rfl
  | append_singleton svcs svc ih =>
    rw [setNo_append, if_neg fun h => hbare ⟨svc, by simp, h⟩]
    exact ih fun ⟨svc, hsvc, h⟩ => hbare ⟨svc, List.mem_append_left _ hsvc, h⟩

theorem quiet_setNo (svcs : List Service) : Quiet (setNo text c svcs) := by
  induction svcs using List.reverseRecOn with
  | nil => exact Quiet.id
  | append_singleton svcs svc ih =>
    have heq : setNo text c (svcs ++ [svc]) = if target svc (untouched text) = some c
        then onNaming svc resetNo ∘ setNo text c svcs else setNo text c svcs := by
      funext l
      rw [setNo_append]
      split <;> rfl
    rw [heq]
    split
    · exact (quiet_resetNo.onNaming svc).comp ih
    · exact ih

/-! ## Added lines -/

/-- The lines of one service behind a line. -/
def entry (text : Conf → Option (File UInt8)) (c : Conf) (p : File UInt8) (l : Bytes)
    (svc : Service) : List Bytes :=
  if names svc l = true ∧ Accepts svc text c p then injected svc else []

/-- The lines behind a line: those of the last service come first. -/
def entries (text : Conf → Option (File UInt8)) (c : Conf) (p : File UInt8)
    (svcs : List Service) (l : Bytes) : List Bytes := svcs.reverse.flatMap (entry text c p l)

theorem mem_entries {x : Bytes} : x ∈ entries text c p svcs l ↔
    ∃ svc ∈ svcs, names svc l = true ∧ Accepts svc text c p ∧ x ∈ injected svc := by
  unfold entries entry
  rw [List.mem_flatMap]
  refine exists_congr fun svc => ?_
  rw [List.mem_reverse]
  refine and_congr_right fun _ => ?_
  split
  · rename_i h
    exact ⟨fun hx => ⟨h.1, h.2, hx⟩, fun hx => hx.2.2⟩
  · rename_i h
    exact ⟨fun hx => absurd hx List.not_mem_nil, fun hx => absurd ⟨hx.1, hx.2.1⟩ h⟩

theorem not_grepQ_token (hp : ∀ l ∈ records p, ∀ svc, hasToken svc l = false) :
    grepQ (hasToken svc) p = false := by
  rw [← Bool.not_eq_true, grepQ, List.any_eq_true]
  rintro ⟨l, hl, htoken⟩
  rw [hp l hl] at htoken
  exact Bool.false_ne_true htoken

theorem names_of_mem_entries {x : Bytes} (hx : x ∈ entries text c p svcs l) :
    names svc x = false := by
  obtain ⟨svc', -, -, -, hx⟩ := mem_entries.mp hx
  exact names_of_injected hx

/-! ## Install -/

/-- What the services `svcs` make of an untouched config. -/
structure InstalledConf (text : Conf → Option (File UInt8)) (svcs : List Service) (c : Conf)
    (p t : File UInt8) (f : ConfFile) : Prop where
  eq     : f.text = some t
  edited : Edited (setNo text c svcs) (entries text c p svcs) p t
  orig   : f.orig = if ∃ svc ∈ svcs, target svc (untouched text) = some c then some p else none

/-- What they make of an untouched unit. -/
structure Installed (text : Conf → Option (File UInt8)) (svcs : List Service) (fs : Fs) : Prop where
  absent : ∀ c, text c = none → fs.conf c = {}
  conf   : ∀ c p, text c = some p → ∃ t, InstalledConf text svcs c p t (fs.conf c)

theorem installed_untouched {lib : Service → Bool} :
    Installed text [] { untouched text with lib := lib } where
  absent c hc := by
    show (⟨text c, none⟩ : ConfFile) = {}
    rw [hc]
  conf c p hc := by
    refine ⟨p, hc, ?_, ?_⟩
    · exact Edited.refl p
    · simp [untouched]

theorem exists_mem_append {P : Service → Prop} :
    (∃ s ∈ svcs ++ [svc], P s) ↔ (∃ s ∈ svcs, P s) ∨ P svc := by
  simp [or_and_right, exists_or]

theorem entries_append : entries text c p (svcs ++ [svc]) l =
    entry text c p l svc ++ entries text c p svcs l := by
  unfold entries
  rw [List.reverse_append]
  rfl

namespace InstalledConf

variable {f : ConfFile}

theorem grepQ_names (h : InstalledConf text svcs c p t f) :
    grepQ (names svc) t = grepQ (names svc) p := by
  rw [Bool.eq_iff_iff, h.edited.grepQ_iff, grepQ, List.any_eq_true]
  refine exists_congr fun l => and_congr_right fun hl => ?_
  rw [(quiet_setNo svcs).names]
  refine or_iff_left ?_
  rintro ⟨x, hx, hnames⟩
  rw [names_of_mem_entries hx] at hnames
  exact Bool.false_ne_true hnames

/-- The token of a service comes with its lines only. -/
theorem grepQ_token (h : InstalledConf text svcs c p t f) (hnew : svc ∉ svcs)
    (hp : ∀ l ∈ records p, ∀ svc, hasToken svc l = false) : grepQ (hasToken svc) t = false := by
  rw [← Bool.not_eq_true, h.edited.grepQ_iff]
  rintro ⟨l, hl, htoken | ⟨x, hx, htoken⟩⟩
  · rw [(quiet_setNo svcs).hasToken, hp l hl] at htoken
    exact Bool.false_ne_true htoken
  · obtain ⟨svc', hmem, -, -, hx⟩ := mem_entries.mp hx
    have heq := eq_of_hasToken_injected hx htoken
    exact hnew (heq ▸ hmem)

/-- A service that is patched elsewhere. -/
theorem other (h : InstalledConf text svcs c p t f)
    (htarget : target svc (untouched text) ≠ some c) :
    InstalledConf text (svcs ++ [svc]) c p t f where
  eq := h.eq
  edited := by
    refine h.edited.congr fun l _ => ⟨?_, ?_⟩
    · rw [setNo_append, if_neg htarget]
    · rw [entries_append, entry, if_neg fun h => htarget h.2.1, List.nil_append]
  orig := by
    rw [h.orig]
    refine if_congr ?_ rfl rfl
    rw [exists_mem_append]
    exact (or_iff_left htarget).symm

/-- A config in which nothing was patched is untouched. -/
theorem eq_of_bare (h : InstalledConf text svcs c p t f)
    (hbare : ¬∃ svc ∈ svcs, target svc (untouched text) = some c) : t = p := by
  refine h.edited.eq (Edited.refl p) fun l _ => ⟨setNo_of_bare hbare l, ?_⟩
  rw [List.eq_nil_iff_forall_not_mem]
  intro x hx
  obtain ⟨svc, hsvc, -, haccepts, -⟩ := mem_entries.mp hx
  exact hbare ⟨svc, hsvc, haccepts.1⟩

/-- The service is patched here. -/
theorem patched (h : InstalledConf text svcs c p t f) (hnew : svc ∉ svcs)
    (hp : ∀ l ∈ records p, ∀ svc, hasToken svc l = false)
    (htarget : target svc (untouched text) = some c) :
    InstalledConf text (svcs ++ [svc]) c p (patchText svc t) (patchTarget svc f) where
  eq := by
    rw [patchTarget, h.eq]
    rfl
  edited := by
    have hnone := h.grepQ_token hnew hp
    have hquiet : Quiet (setNo text c svcs) := quiet_setNo svcs
    have hnames : ∀ l ∈ records p, ∀ x ∈ entries text c p svcs l, names svc x = false :=
      fun l _ x hx => names_of_mem_entries hx
    have hfixed : ∀ x, names svc x = false → onNaming svc resetNo x = x := by
      intro x hx
      rw [onNaming, hx]
      rfl
    have hcount := h.edited.countP (hquiet.names svc) hnames
    have haccepts : Accepts svc text c p ↔
        sanity svc t (awk t (insertBehind (names svc) (injected svc))) = true := by
      rw [sanity_iff hnone, hcount, h.edited.rest, Accepts, sanityFailed_iff]
      rw [and_iff_right htarget, and_iff_right (not_grepQ_token hp), not_not]
    rw [patchText, insertText, hnone, if_neg Bool.false_ne_true]
    by_cases hacc : Accepts svc text c p
    · simp only [if_pos (haccepts.mp hacc)]
      have hrest := ((sanity_iff hnone).mp (haccepts.mp hacc)).2
      have hinsert := h.edited.insert (injected svc) (hquiet.names svc) hnames
        (h.edited.rest.mp hrest)
      have hsed := hinsert.sed (quiet_resetNo.onNaming svc).ne_nil (by
        intro l hl x hx
        refine hfixed x ?_
        rcases List.mem_append.mp hx with hx | hx
        · split at hx
          · exact names_of_injected hx
          · exact absurd hx List.not_mem_nil
        · exact hnames l hl x hx)
      refine hsed.congr fun l _ => ⟨?_, ?_⟩
      · rw [setNo_append, if_pos htarget]
        rfl
      · rw [entries_append, entry]
        simp only [hacc, and_true]
    · simp only [if_neg fun h => hacc (haccepts.mpr h)]
      have hsed := h.edited.sed (quiet_resetNo.onNaming svc).ne_nil
        fun l hl x hx => hfixed x (hnames l hl x hx)
      refine hsed.congr fun l _ => ⟨?_, ?_⟩
      · rw [setNo_append, if_pos htarget]
        rfl
      · rw [entries_append, entry, if_neg fun h => hacc h.2, List.nil_append]
  orig := by
    rw [patchTarget, orig_bakOrig, h.eq, h.orig, if_pos (exists_mem_append.mpr (.inr htarget))]
    split
    · rfl
    · rename_i hbare
      rw [h.eq_of_bare hbare, Option.none_or]

end InstalledConf

theorem Installed.target_eq (h : Installed text svcs fs) :
    target svc fs = target svc (untouched text) := by
  have hpresent : ∀ c, c ∈ present svc fs ↔ c ∈ present svc (untouched text) := by
    intro c
    rw [mem_present, mem_present]
    cases hc : text c with
    | none =>
      rw [h.absent c hc]
      simp [untouched, hc]
    | some p =>
      obtain ⟨t, ht⟩ := h.conf c p hc
      rw [ht.eq]
      simp [untouched, hc, ht.grepQ_names]
  refine Option.ext fun c => ?_
  rw [target_eq_iff, target_eq_iff, hpresent, hpresent]

/-- **A service is patched** on an untouched unit as on its own. -/
theorem Installed.patchService (htoken : NoToken text) (h : Installed text svcs fs)
    (hnew : svc ∉ svcs) :
    Installed text (svcs ++ [svc]) (patchService svc fs) := by
  cases htarget : target svc fs with
  | none =>
    have hsame : Installer.patchService svc fs = fs := by
      unfold Installer.patchService
      rw [htarget]
    rw [h.target_eq] at htarget
    rw [hsame]
    refine ⟨h.absent, fun c p hp => ?_⟩
    obtain ⟨t, ht⟩ := h.conf c p hp
    exact ⟨t, ht.other (by simp [htarget])⟩
  | some c₀ =>
    have hmem := target_mem htarget
    constructor
    · intro c hc
      have hnot : ∀ svc, c ∉ present svc fs := by
        intro svc hpresent
        obtain ⟨t, ht, -⟩ := mem_present.mp hpresent
        rw [h.absent c hc] at ht
        exact absurd ht (by simp)
      have hne : c ≠ c₀ := fun heq => hnot svc (by rwa [heq])
      rw [patchService_conf htarget, if_neg hne, if_neg (hnot svc)]
      exact h.absent c hc
    · intro c p hp
      obtain ⟨t, ht⟩ := h.conf c p hp
      rw [patchService_conf htarget]
      rw [h.target_eq] at htarget
      split
      · rename_i heq
        exact ⟨_, ht.patched hnew (htoken c p hp) (heq ▸ htarget)⟩
      · rename_i hne
        have hsame : stripStale svc (fs.conf c) = fs.conf c := by
          rw [stripStale, ht.eq, Option.any_some, ht.grepQ_token hnew (htoken c p hp),
            if_neg Bool.false_ne_true]
        rw [hsame, ite_self]
        exact ⟨t, ht.other fun heq => hne (Option.some_inj.mp (heq.symm.trans htarget))⟩

theorem installed_patchServices (htoken : NoToken text) (svcs' : List Service)
    (h : Installed text svcs fs) (hnodup : (svcs ++ svcs').Nodup) :
    Installed text (svcs ++ svcs') (patchServices svcs' fs) := by
  induction svcs' generalizing svcs fs with
  | nil => rwa [List.append_nil]
  | cons svc svcs' ih =>
    have hnew : svc ∉ svcs := fun hmem =>
      (List.nodup_append.mp hnodup).2.2 svc hmem svc List.mem_cons_self rfl
    rw [List.append_cons] at hnodup ⊢
    exact ih (h.patchService htoken hnew) hnodup

/-- **An install** of an untouched unit. -/
theorem installed_install (htoken : NoToken text) (mode : Mode) :
    Installed text mode.services (install mode (untouched text)) := by
  have hnodup : mode.services.Nodup := by cases mode <;> decide
  exact installed_patchServices htoken mode.services installed_untouched hnodup

end OemAaMod.Installer
