import OemAaMod.Installer.Patch
import OemAaMod.Lib.Run

/-!
# Runs of the installer

The modes of `run.sh`, one run after the other, while `sm_WCP.conf` comes and goes.

* `install`, `uninstall` — what a run does to the two configs;
* `Stays`, `Safe` — what `patch_service` finds of its own lines where it inserts them again;
* `Sound` — no copy is left over in a backup; `noDuplicate_of_reach`.
-/

namespace OemAaMod.Installer

open CStr (Bytes)
open Text (File records grepQ sed strip)
open Run (Reach)

inductive Mode
  | both
  | aa
  | carplay
deriving DecidableEq

def Mode.services : Mode → List Service
  | .both => [.jciAAPA, .jcinavi, .jciCARPLAY]
  | .aa => [.jciAAPA, .jcinavi]
  | .carplay => [.jciCARPLAY]

/-! ## Install -/

def copyLibs (mode : Mode) (fs : Fs) : Fs :=
  { fs with lib := fun svc => fs.lib svc || decide (svc ∈ mode.services) }

def patchServices (svcs : List Service) (fs : Fs) : Fs :=
  svcs.foldl (fun fs svc => patchService svc fs) fs

def install (mode : Mode) (fs : Fs) : Fs := patchServices mode.services (copyLibs mode fs)

/-! ## Uninstall -/

/-- A command on the text of a config. -/
def mapText (g : File UInt8 → File UInt8) (f : ConfFile) : ConfFile :=
  { f with text := f.text.map g }

def Fs.mapConf (fs : Fs) (g : ConfFile → ConfFile) : Fs :=
  { fs with conf := fun c => g (fs.conf c) }

def Fs.setConf (fs : Fs) (c : Conf) (f : ConfFile) : Fs :=
  { fs with conf := Function.update fs.conf c f }

def unpatchText (svc : Service) (t : File UInt8) : File UInt8 :=
  if grepQ (hasToken svc) t then strip (hasToken svc) t else t

def unpatchService (svc : Service) (fs : Fs) : Fs := fs.mapConf (mapText (unpatchText svc))

def unpatchServices (svcs : List Service) (fs : Fs) : Fs :=
  svcs.foldl (fun fs svc => unpatchService svc fs) fs

def restoreOrig (f : ConfFile) : Option ConfFile := f.orig.map fun t => ⟨some t, none⟩

/-- What an uninstall of both does for a config. -/
def restoreOrStrip (fs : Fs) (c : Conf) : Fs :=
  if (fs.conf c).text = none then fs
  else
    match restoreOrig (fs.conf c) with
    | some f => fs.setConf c f
    | none =>
      let fs := unpatchServices Mode.both.services fs
      fs.setConf c (mapText (strip ldPath) (fs.conf c))

/-- The uninstall of one integration. -/
def removeFeature (mode : Mode) (fs : Fs) : Fs :=
  let fs := unpatchServices mode.services fs
  let fs := if .jciCARPLAY ∈ mode.services then fs.mapConf (mapText (strip ldPath)) else fs
  fs.mapConf (mapText fun t => mode.services.foldl (fun t svc => sed t (onNaming svc resetYes)) t)

def removeLibs (mode : Mode) (fs : Fs) : Fs :=
  { fs with lib := fun svc => fs.lib svc && decide (svc ∉ mode.services) }

/-- Behind the last feature the backups come back. -/
def restoreLast (mode : Mode) (fs : Fs) : Fs :=
  if mode ≠ .both ∧ fs.lib .jciAAPA = false ∧ fs.lib .jcinavi = false ∧
      fs.lib .jciCARPLAY = false then
    fs.mapConf fun f => if f.text = none then f else (restoreOrig f).getD f
  else fs

def uninstall (mode : Mode) (fs : Fs) : Fs :=
  let fs :=
    if mode = .both then [Conf.sm, Conf.wcp].foldl restoreOrStrip fs else removeFeature mode fs
  restoreLast mode (removeLibs mode fs)

/-! ## Runs -/

inductive Action
  | install (mode : Mode)
  | uninstall (mode : Mode)
  /-- `sm_WCP.conf` is there, as it comes. -/
  | appear
  | disappear
deriving DecidableEq

/-- A step, where `sm_WCP.conf` comes with the text `wcp`. -/
def step (wcp : File UInt8) (fs : Fs) : Action → Option Fs
  | .install mode => some (install mode fs)
  | .uninstall mode => some (uninstall mode fs)
  | .appear =>
    if (fs.conf .wcp).text = none then some (fs.setConf .wcp { fs.conf .wcp with text := some wcp })
    else none
  | .disappear => some (fs.setConf .wcp { fs.conf .wcp with text := none })

def copiesIn (l : Bytes) : Option (File UInt8) → Nat
  | some t => (records t).count l
  | none => 0

/-- The copies of a line in the two configs. -/
def copies (l : Bytes) (fs : Fs) : Nat :=
  copiesIn l (fs.conf .sm).text + copiesIn l (fs.conf .wcp).text

/-- No injected line is there twice. -/
def NoDuplicate (fs : Fs) : Prop := ∀ svc, ∀ l ∈ injected svc, copies l fs ≤ 1

/-- The service gets its lines. -/
def Inserts (svc : Service) (fs : Fs) : Prop :=
  ∃ c t, target svc fs = some c ∧ (fs.conf c).text = some t ∧ grepQ (hasToken svc) t = false ∧
    ¬SanityFailed svc t

/-- The line is in a config, and it stays there when the service is patched: only from a config
that has a stanza of the service and is not the target a line with the token goes, if others
are left. -/
def Stays (svc : Service) (fs : Fs) (l : Bytes) : Prop :=
  ∃ c t, (fs.conf c).text = some t ∧ l ∈ records t ∧
    ¬(target svc fs ≠ some c ∧ grepQ (names svc) t = true ∧ hasToken svc l = true ∧
      (records t).all (hasToken svc) = false)

/-- Services are patched only where no line of theirs stays. -/
def Safe : List Service → Fs → Prop
  | [], _ => True
  | svc :: svcs, fs =>
    (Inserts svc fs → ∀ l ∈ injected svc, ¬Stays svc fs l) ∧ Safe svcs (patchService svc fs)

/-- A step before which no line stays that it inserts, and that comes with none that is there. -/
def Guard (wcp : File UInt8) (fs : Fs) : Action → Prop
  | .install mode => Safe mode.services (copyLibs mode fs)
  | .appear => ∀ svc, ∀ l ∈ injected svc, copies l fs + (records wcp).count l ≤ 1
  | _ => True

instance (svc : Service) (fs : Fs) : Decidable (Inserts svc fs) :=
  decidable_of_iff (∃ c ∈ target svc fs, ∃ t ∈ (fs.conf c).text,
      grepQ (hasToken svc) t = false ∧ ¬SanityFailed svc t)
    ⟨fun ⟨c, hc, t, ht, h⟩ => ⟨c, t, hc, ht, h⟩, fun ⟨c, t, hc, ht, h⟩ => ⟨c, hc, t, ht, h⟩⟩

instance (svc : Service) (fs : Fs) (l : Bytes) : Decidable (Stays svc fs l) :=
  decidable_of_iff (∃ c ∈ [Conf.sm, Conf.wcp], ∃ t ∈ (fs.conf c).text, l ∈ records t ∧
      ¬(target svc fs ≠ some c ∧ grepQ (names svc) t = true ∧ hasToken svc l = true ∧
        (records t).all (hasToken svc) = false))
    ⟨fun ⟨c, _, t, ht, h⟩ => ⟨c, t, ht, h⟩,
      fun ⟨c, t, ht, h⟩ => ⟨c, by cases c <;> decide, t, ht, h⟩⟩

instance decidableSafe : (svcs : List Service) → (fs : Fs) → Decidable (Safe svcs fs)
  | [], _ => isTrue trivial
  | svc :: svcs, fs =>
    have := decidableSafe svcs (patchService svc fs)
    inferInstanceAs (Decidable ((Inserts svc fs → ∀ l ∈ injected svc, ¬Stays svc fs l) ∧ _))

instance (wcp : File UInt8) (fs : Fs) : (a : Action) → Decidable (Guard wcp fs a)
  | .install mode => inferInstanceAs (Decidable (Safe mode.services (copyLibs mode fs)))
  | .appear =>
    decidable_of_iff (∀ svc ∈ services, ∀ l ∈ injected svc,
      copies l fs + (records wcp).count l ≤ 1) ⟨fun h svc => h svc (mem_services svc),
        fun h svc _ => h svc⟩
  | .uninstall _ | .disappear => isTrue trivial

/-- A unit with its `sm.conf`; `sm_WCP.conf` can appear. -/
def fresh (sm : File UInt8) : Fs where
  conf
    | .sm => ⟨some sm, none⟩
    | .wcp => {}
  lib _ := false

/-! ## Copies in a text -/

variable {svc : Service} {fs : Fs} {l : Bytes} {t : File UInt8} {n : Nat} {f : ConfFile}

/-- A line that is injected for some service. -/
def Injected (l : Bytes) : Prop := ∃ svc, l ∈ injected svc

theorem count_injected_le (svc : Service) (l : Bytes) : (injected svc).count l ≤ 1 := by
  have hnodup : ∀ svc ∈ services, (injected svc).Nodup := by decide +kernel
  exact List.nodup_iff_count_le_one.mp (hnodup svc (mem_services svc)) l

theorem count_strip_le (p : Bytes → Bool) (t : File UInt8) :
    (records (strip p t)).count l ≤ (records t).count l :=
  (Text.records_strip_sublist p t).count_le l

/-- An injected line opens no stanza: a rewritten one is none of them. -/
theorem count_sed (hl : Injected l) {g : Bytes → Bytes} (hg : Quiet g) (svc : Service)
    (t : File UInt8) : (records (sed t (onNaming svc g))).count l = (records t).count l := by
  -- what is rewritten names a service, and an injected line names none
  have hrest : ∀ x, onNaming svc g x = l ↔ x = l := by
    intro x
    unfold onNaming
    split
    · rename_i hx
      obtain ⟨svc', hl⟩ := hl
      have hnames : names svc l = false := names_of_injected hl
      constructor
      · rintro rfl
        rw [hg.names, hx] at hnames
        exact absurd hnames (by simp)
      · rintro rfl
        rw [hx] at hnames
        exact absurd hnames (by simp)
    · rfl
  rw [Text.records_sed (hg.onNaming svc).ne_nil, List.count_eq_countP, List.countP_map,
    List.count_eq_countP]
  refine List.countP_congr fun x _ => ?_
  simp only [Function.comp_apply, beq_iff_eq]
  exact hrest x

/-- The lines are inserted, or nothing is. -/
theorem count_insertText (svc : Service) (t : File UInt8) (l : Bytes) :
    (records (insertText svc t)).count l = (records t).count l +
      if grepQ (hasToken svc) t = false ∧ ¬SanityFailed svc t
        then (injected svc).count l else 0 := by
  rcases insertText_cases svc t with
    ⟨heq, hkeep⟩ | ⟨hnone, hrest, -, before, line, after, h, hrecords⟩
  · -- nothing is inserted: the token is there, or there is no stanza
    rw [heq, if_neg, Nat.add_zero]
    rintro ⟨hnone, hsanity⟩
    rw [hnone] at hkeep
    exact hsanity (hkeep.resolve_left Bool.false_ne_true)
  · -- the lines stand between `before` and the rest
    rw [if_pos ⟨hnone, not_sanityFailed h (.inr hrest)⟩, hrecords, h.eq]
    simp only [List.count_append, List.count_cons]
    omega

theorem count_patchText (hl : Injected l) (svc : Service) (t : File UInt8) :
    (records (patchText svc t)).count l = (records t).count l +
      if grepQ (hasToken svc) t = false ∧ ¬SanityFailed svc t
        then (injected svc).count l else 0 := by
  rw [patchText, count_sed hl quiet_resetNo, count_insertText]

/-! ## A config and its backup -/

/-- At most `n` copies are in the backup, and where there is none, in the text. -/
structure Sound (l : Bytes) (n : Nat) (f : ConfFile) : Prop where
  orig : copiesIn l f.orig ≤ n
  bare : f.orig = none → copiesIn l f.text ≤ n

theorem copiesIn_map {g : File UInt8 → File UInt8}
    (hg : ∀ t, (records (g t)).count l ≤ (records t).count l) (o : Option (File UInt8)) :
    copiesIn l (o.map g) ≤ copiesIn l o := by
  cases o with
  | none => exact Nat.le_refl _
  | some t => exact hg t

theorem Sound.mapText {g : File UInt8 → File UInt8}
    (hg : ∀ t, (records (g t)).count l ≤ (records t).count l) (h : Sound l n f) :
    Sound l n (mapText g f) where
  orig := h.orig
  bare horig := (copiesIn_map hg f.text).trans (h.bare horig)

theorem Sound.bakOrig (h : Sound l n f) (text : Option (File UInt8)) (hsome : f.text ≠ none) :
    Sound l n ⟨text, (bakOrig f).orig⟩ := by
  have horig : (Installer.bakOrig f).orig = f.orig.or f.text := orig_bakOrig f
  constructor
  · -- the backup that is there stays; else the text, which is low, becomes one
    rw [horig]
    cases hf : f.orig with
    | none => exact h.bare hf
    | some t =>
      rw [Option.some_or, ← hf]
      exact h.orig
  · -- there is a backup now
    intro hnone
    rw [horig] at hnone
    exact absurd (Option.or_eq_none_iff.mp hnone).2 hsome

theorem Sound.stripStale (h : Sound l n f) : Sound l n (stripStale svc f) := by
  unfold Installer.stripStale
  split
  · rename_i htoken
    refine h.bakOrig _ fun hnone => ?_
    rw [hnone] at htoken
    exact absurd htoken Bool.false_ne_true
  · exact h

theorem copiesIn_of_not_mem (h : l ∉ records t) : copiesIn l (some t) = 0 :=
  List.count_eq_zero.mpr h

theorem copiesIn_stripStale_le : copiesIn l (stripStale svc f).text ≤ copiesIn l f.text := by
  unfold stripStale
  split
  · exact copiesIn_map (count_strip_le _) _
  · exact Nat.le_refl _

/-- No copy more than the untouched files have, in the backup and in the text. -/
def Low (l : Bytes) (n : Nat) (f : ConfFile) : Prop := Sound l n f ∧ copiesIn l f.text ≤ n

theorem Sound.restoreOrig {f' : ConfFile} (h : Sound l n f) (hrestore : restoreOrig f = some f') :
    Low l n f' := by
  obtain ⟨t, ht, rfl⟩ := Option.map_eq_some_iff.mp hrestore
  have hle : copiesIn l (some t) ≤ n := ht ▸ h.orig
  exact ⟨⟨Nat.zero_le _, fun _ => hle⟩, hle⟩

/-! ## A service is patched -/

theorem sound_patchService {P : Conf → Nat} (h : ∀ c, Sound l (P c) (fs.conf c)) (c : Conf) :
    Sound l (P c) ((patchService svc fs).conf c) := by
  cases htarget : target svc fs with
  | none =>
    unfold patchService
    rw [htarget]
    exact h c
  | some c' =>
    rw [patchService_conf htarget]
    split
    · -- the target is backed up before it is patched
      rename_i heq
      obtain ⟨t, ht, -⟩ := mem_present.mp (heq ▸ target_mem htarget)
      exact (h c).bakOrig _ (by simp [ht])
    · split
      · -- the other loses its stale lines
        exact (h c).stripStale
      · exact h c

/-- Where no copy stays there is one behind the insertion, in the target. -/
theorem copiesIn_patchService {c : Conf} (htarget : target svc fs = some c)
    (ht : (fs.conf c).text = some t) (hl : l ∈ injected svc) (hstays : ¬Stays svc fs l)
    (c' : Conf) :
    copiesIn l ((patchService svc fs).conf c').text ≤ if c' = c then 1 else 0 := by
  rw [patchService_conf htarget]
  by_cases hc : c' = c
  · -- the target had no copy, so it has what is inserted
    subst hc
    have hnone : l ∉ records t := fun hmem => hstays ⟨c', t, ht, hmem, fun h => h.1 htarget⟩
    rw [if_pos rfl, if_pos rfl, patchTarget, ht, Option.map_some, copiesIn,
      count_patchText ⟨svc, hl⟩, List.count_eq_zero.mpr hnone, Nat.zero_add]
    split
    · exact count_injected_le svc l
    · exact Nat.zero_le 1
  · -- the other has none, or the strip takes it
    rw [if_neg hc, if_neg hc, Nat.le_zero]
    have hsame : copiesIn l (fs.conf c').text = 0 → copiesIn l (if c' ∈ present svc fs then
        stripStale svc (fs.conf c') else fs.conf c').text = 0 := by
      intro hzero
      split
      · exact Nat.le_zero.mp (hzero ▸ copiesIn_stripStale_le)
      · exact hzero
    cases hu : (fs.conf c').text with
    | none =>
      refine hsame ?_
      rw [hu]
      rfl
    | some u =>
      by_cases hmem : l ∈ records u
      · have hgone : target svc fs ≠ some c' ∧ grepQ (names svc) u = true ∧
            hasToken svc l = true ∧ (records u).all (hasToken svc) = false :=
          not_not.mp fun h => hstays ⟨c', u, hu, hmem, h⟩
        obtain ⟨-, hnames, htoken, hall⟩ := hgone
        have hfound : grepQ (hasToken svc) u = true := List.any_eq_true.mpr ⟨l, hmem, htoken⟩
        rw [if_pos (mem_present.mpr ⟨u, hu, hnames⟩), stripStale, hu, Option.any_some,
          if_pos hfound]
        exact copiesIn_of_not_mem (Text.not_mem_strip htoken hall)
      · refine hsame ?_
        rw [hu]
        exact copiesIn_of_not_mem hmem

theorem copies_patchService (hl : Injected l) (h : copies l fs ≤ 1)
    (hsafe : Inserts svc fs → ∀ l ∈ injected svc, ¬Stays svc fs l) :
    copies l (patchService svc fs) ≤ 1 := by
  cases htarget : target svc fs with
  | none =>
    unfold patchService
    rwa [htarget]
  | some c =>
    obtain ⟨t, ht, -⟩ := mem_present.mp (target_mem htarget)
    by_cases hins : (grepQ (hasToken svc) t = false ∧ ¬SanityFailed svc t) ∧ l ∈ injected svc
    · -- an insertion: one copy in the target, none elsewhere
      have hone := copiesIn_patchService htarget ht hins.2
        (hsafe ⟨c, t, htarget, ht, hins.1⟩ l hins.2)
      have hsm := hone .sm
      have hwcp := hone .wcp
      unfold copies
      cases c with
      | sm =>
        rw [if_pos rfl] at hsm
        rw [if_neg (by simp)] at hwcp
        omega
      | wcp =>
        rw [if_neg (by simp)] at hsm
        rw [if_pos rfl] at hwcp
        omega
    · -- no insertion of this line: no text gains a copy
      have hle : ∀ c', copiesIn l ((patchService svc fs).conf c').text ≤
          copiesIn l (fs.conf c').text := by
        intro c'
        rw [patchService_conf htarget]
        split
        · rename_i hc
          rw [hc, patchTarget, ht]
          refine (count_patchText hl svc t).trans_le ?_
          split
          · rename_i hinserts
            rw [List.count_eq_zero.mpr fun hmem => hins ⟨hinserts, hmem⟩]
            exact Nat.le_refl _
          · exact Nat.le_refl _
        · split
          · exact copiesIn_stripStale_le
          · exact Nat.le_refl _
      have hsm := hle .sm
      have hwcp := hle .wcp
      unfold copies at h ⊢
      omega

/-- A line that stays where it is inserted is there twice. -/
theorem duplicate_of_stays (hinserts : Inserts svc fs) (hl : l ∈ injected svc)
    (hstays : Stays svc fs l) : 2 ≤ copies l (patchService svc fs) := by
  obtain ⟨c, t, htarget, ht, hins⟩ := hinserts
  -- the copy that is inserted
  have hcount : copiesIn l ((patchService svc fs).conf c).text = (records t).count l + 1 := by
    have hone := (count_injected_le svc l).antisymm (List.count_pos_iff.mpr hl)
    rw [patchService_conf htarget, if_pos rfl, patchTarget, ht, Option.map_some, copiesIn,
      count_patchText ⟨svc, hl⟩, if_pos hins, hone]
  obtain ⟨c', u, hu, hmem, hkeep⟩ := hstays
  by_cases hc : c' = c
  · -- it stayed in the target
    subst hc
    have hpos : 0 < (records t).count l := by
      rw [← Option.some_inj.mp (hu.symm.trans ht)]
      exact List.count_pos_iff.mpr hmem
    unfold copies
    cases c' <;> omega
  · -- it stayed in the other config, through the strip
    have htwo : 0 < copiesIn l ((patchService svc fs).conf c').text := by
      rw [patchService_conf htarget, if_neg hc]
      split
      · rename_i hpresent
        obtain ⟨u', hu', hnames⟩ := mem_present.mp hpresent
        obtain rfl := Option.some_inj.mp (hu.symm.trans hu')
        have hne : target svc fs ≠ some c' := fun h =>
          hc (Option.some_inj.mp (h.symm.trans htarget))
        have hstrip : l ∈ records (strip (hasToken svc) u) := by
          unfold strip
          split
          · exact hmem
          · rename_i hall
            rw [Text.records_grepV, List.mem_filter]
            refine ⟨hmem, ?_⟩
            by_contra htoken
            exact hkeep ⟨hne, hnames, by simpa using htoken, Bool.eq_false_iff.mpr hall⟩
        unfold stripStale
        split
        · rw [hu, Option.map_some]
          exact List.count_pos_iff.mpr hstrip
        · rw [hu]
          exact List.count_pos_iff.mpr hmem
      · rw [hu]
        exact List.count_pos_iff.mpr hmem
    unfold copies
    cases c <;> cases c' <;> first | omega | exact absurd rfl hc

/-! ## An uninstall -/

/-- All that `unpatch_service` does to a text, service by service. -/
def unpatchTexts (svcs : List Service) (t : File UInt8) : File UInt8 :=
  svcs.foldl (fun t svc => unpatchText svc t) t

theorem mapText_mapText (g g' : File UInt8 → File UInt8) (f : ConfFile) :
    mapText g' (mapText g f) = mapText (g' ∘ g) f := by
  unfold mapText
  rw [Option.map_map]

theorem unpatchServices_eq (svcs : List Service) (fs : Fs) :
    unpatchServices svcs fs = fs.mapConf (mapText (unpatchTexts svcs)) := by
  unfold unpatchServices
  induction svcs generalizing fs with
  | nil =>
    refine Fs.ext (funext fun c => ?_) rfl
    exact ConfFile.mk.injEq .. ▸ ⟨(Option.map_id' ..).symm, rfl⟩
  | cons svc svcs ih =>
    rw [List.foldl_cons, ih]
    refine Fs.ext (funext fun c => ?_) rfl
    exact mapText_mapText _ _ _

theorem records_unpatchText_sublist (svc : Service) (t : File UInt8) :
    (records (unpatchText svc t)).Sublist (records t) := by
  unfold unpatchText
  split
  · exact Text.records_strip_sublist _ t
  · exact List.Sublist.refl _

theorem records_unpatchTexts_sublist (svcs : List Service) (t : File UInt8) :
    (records (unpatchTexts svcs t)).Sublist (records t) := by
  unfold unpatchTexts
  induction svcs generalizing t with
  | nil => exact List.Sublist.refl _
  | cons svc svcs ih => exact (ih _).trans (records_unpatchText_sublist svc t)

theorem count_unpatchTexts_le (svcs : List Service) (t : File UInt8) :
    (records (unpatchTexts svcs t)).count l ≤ (records t).count l :=
  (records_unpatchTexts_sublist svcs t).count_le l

/-- The text behind the uninstall of one integration. -/
def removeText (mode : Mode) (t : File UInt8) : File UInt8 :=
  let t := unpatchTexts mode.services t
  let t := if .jciCARPLAY ∈ mode.services then strip ldPath t else t
  mode.services.foldl (fun t svc => sed t (onNaming svc resetYes)) t

theorem removeFeature_eq (mode : Mode) (fs : Fs) :
    removeFeature mode fs = fs.mapConf (mapText (removeText mode)) := by
  unfold removeFeature removeText
  rw [unpatchServices_eq]
  by_cases hcarplay : .jciCARPLAY ∈ mode.services
  · simp only [if_pos hcarplay]
    refine Fs.ext (funext fun c => ?_) rfl
    exact (mapText_mapText _ _ _).trans (mapText_mapText _ _ _)
  · simp only [if_neg hcarplay]
    refine Fs.ext (funext fun c => ?_) rfl
    exact mapText_mapText _ _ _

theorem count_removeText_le (hl : Injected l) (mode : Mode) (t : File UInt8) :
    (records (removeText mode t)).count l ≤ (records t).count l := by
  have hsed : ∀ svcs t, (records (List.foldl (fun t svc => sed t (onNaming svc resetYes)) t
      svcs)).count l = (records t).count l := by
    intro svcs
    induction svcs with
    | nil => exact fun _ => rfl
    | cons svc svcs ih => exact fun t => (ih _).trans (count_sed hl quiet_resetYes svc t)
  unfold removeText
  refine (hsed _ _).trans_le ?_
  split
  · exact (count_strip_le _ _).trans (count_unpatchTexts_le _ t)
  · exact count_unpatchTexts_le _ t

/-- What an uninstall of both leaves of a config, and of the other. -/
theorem restoreOrStrip_low {P : Conf → Nat} (h : ∀ c, Sound l (P c) (fs.conf c)) (c : Conf) :
    Low l (P c) ((restoreOrStrip fs c).conf c) ∧ ∀ c', c' ≠ c →
      Sound l (P c') ((restoreOrStrip fs c).conf c') ∧
        copiesIn l ((restoreOrStrip fs c).conf c').text ≤ copiesIn l (fs.conf c').text := by
  unfold restoreOrStrip
  split
  · rename_i hnone
    exact ⟨⟨h c, by rw [hnone]; exact Nat.zero_le _⟩, fun c' _ => ⟨h c', Nat.le_refl _⟩⟩
  · cases hrestore : restoreOrig (fs.conf c) with
    | some f =>
      -- the backup is put back
      simp only [Fs.setConf, Function.update_self]
      refine ⟨(h c).restoreOrig hrestore, fun c' hc' => ?_⟩
      rw [Function.update_of_ne hc']
      exact ⟨h c', Nat.le_refl _⟩
    | none =>
      -- no backup was ever made, so the text itself is low, and only loses lines
      have hle := count_unpatchTexts_le (l := l) Mode.both.services
      simp only [unpatchServices_eq, Fs.setConf, Function.update_self]
      refine ⟨?_, fun c' hc' => ?_⟩
      · have horig : (fs.conf c).orig = none := Option.map_eq_none_iff.mp hrestore
        have hsound := ((h c).mapText hle).mapText (count_strip_le ldPath)
        exact ⟨hsound, hsound.bare horig⟩
      · rw [Function.update_of_ne hc']
        exact ⟨(h c').mapText hle, copiesIn_map hle _⟩

/-- What is behind the last feature. -/
theorem restoreLast_low (h : Sound l n f) :
    Low l n (if f.text = none then f else (restoreOrig f).getD f) := by
  split
  · rename_i hnone
    exact ⟨h, by rw [hnone]; exact Nat.zero_le _⟩
  · cases hrestore : restoreOrig f with
    | some f' => exact h.restoreOrig hrestore
    | none => exact ⟨h, h.bare (Option.map_eq_none_iff.mp hrestore)⟩

/-! ## Runs -/

/-- The invariant of a run, for one injected line: `P` are its copies in the untouched files. -/
structure Kept (P : Conf → Nat) (l : Bytes) (fs : Fs) : Prop where
  sound : ∀ c, Sound l (P c) (fs.conf c)
  once  : copies l fs ≤ 1

theorem kept_of_low {P : Conf → Nat} (hP : P .sm + P .wcp ≤ 1) (h : ∀ c, Low l (P c) (fs.conf c)) :
    Kept P l fs where
  sound c := (h c).1
  once := (Nat.add_le_add (h .sm).2 (h .wcp).2).trans hP

variable {P : Conf → Nat}

theorem kept_patchServices (hl : Injected l) (svcs : List Service) (h : Kept P l fs)
    (hsafe : Safe svcs fs) : Kept P l (patchServices svcs fs) := by
  induction svcs generalizing fs with
  | nil => exact h
  | cons svc svcs ih =>
    exact ih ⟨sound_patchService h.sound, copies_patchService hl h.once hsafe.1⟩ hsafe.2

theorem kept_uninstall (hl : Injected l) (hP : P .sm + P .wcp ≤ 1) (mode : Mode)
    (h : Kept P l fs) : Kept P l (uninstall mode fs) := by
  -- the last feature: every backup is put back, and the copies are those of the untouched files
  have hlast : ∀ fs, Kept P l fs → Kept P l (restoreLast mode (removeLibs mode fs)) := by
    intro fs h
    unfold restoreLast
    split
    · exact kept_of_low hP fun c => restoreLast_low (h.sound c)
    · exact ⟨h.sound, h.once⟩
  unfold uninstall
  refine hlast _ ?_
  split
  · -- of both: `sm.conf` first, and the second round leaves it low
    obtain ⟨hsm, hrest⟩ := restoreOrStrip_low h.sound .sm
    have hsound : ∀ c, Sound l (P c) ((restoreOrStrip fs .sm).conf c)
      | .sm => hsm.1
      | .wcp => (hrest .wcp (by simp)).1
    obtain ⟨hwcp, hrest'⟩ := restoreOrStrip_low hsound .wcp
    refine kept_of_low hP fun c => ?_
    cases c with
    | sm =>
      obtain ⟨hsound, hle⟩ := hrest' .sm (by simp)
      exact ⟨hsound, hle.trans hsm.2⟩
    | wcp => exact hwcp
  · -- of one: lines only go
    rw [removeFeature_eq]
    have hle := count_removeText_le hl mode
    refine ⟨fun c => (h.sound c).mapText hle, ?_⟩
    exact (Nat.add_le_add (copiesIn_map hle _) (copiesIn_map hle _)).trans h.once

/-- **A step keeps the invariant.** -/
theorem kept_step {wcp : File UInt8} {fs' : Fs} {a : Action} (hl : Injected l)
    (hP : P .sm + P .wcp ≤ 1) (hwcp : (records wcp).count l = P .wcp) (h : Kept P l fs)
    (hguard : Guard wcp fs a) (hstep : step wcp fs a = some fs') : Kept P l fs' := by
  cases a with
  | install mode =>
    rw [← Option.some_inj.mp hstep]
    exact kept_patchServices hl mode.services ⟨h.sound, h.once⟩ hguard
  | uninstall mode =>
    rw [← Option.some_inj.mp hstep]
    exact kept_uninstall hl hP mode h
  | appear =>
    obtain ⟨svc, hl⟩ := hl
    have honce := hguard svc l hl
    simp only [step] at hstep
    split at hstep
    · rename_i hnone
      rw [← Option.some_inj.mp hstep]
      refine ⟨fun c => ?_, ?_⟩
      · cases c with
        | sm => exact h.sound .sm
        | wcp => exact ⟨(h.sound .wcp).orig, fun _ => hwcp.le⟩
      · rw [copies, hnone] at honce
        exact honce
    · exact absurd hstep (by simp)
  | disappear =>
    rw [← Option.some_inj.mp hstep]
    refine ⟨fun c => ?_, ?_⟩
    · cases c with
      | sm => exact h.sound .sm
      | wcp => exact ⟨(h.sound .wcp).orig, fun _ => Nat.zero_le _⟩
    · exact (Nat.le_add_right _ _).trans h.once

/-- **No injected line is there twice** in a run all of whose insertions find none of their
lines, where the untouched files have none twice. -/
theorem noDuplicate_of_reach {sm wcp : File UInt8}
    (hclean : ∀ svc, ∀ l ∈ injected svc, (records sm).count l + (records wcp).count l ≤ 1)
    (h : Reach (step wcp) (Guard wcp) (fresh sm) fs) : NoDuplicate fs := by
  intro svc l hl
  have hP := hclean svc l hl
  let P : Conf → Nat
    | .sm => (records sm).count l
    | .wcp => (records wcp).count l
  have hinit : Kept P l (fresh sm) := by
    refine ⟨fun c => ?_, ?_⟩
    · cases c with
      | sm => exact ⟨Nat.zero_le _, fun _ => Nat.le_refl _⟩
      | wcp => exact ⟨Nat.zero_le _, fun _ => Nat.zero_le _⟩
    · exact (Nat.le_add_right _ _).trans hP
  have hkept : Kept P l fs := h.invariant hinit fun _ _ _ hkept hguard hstep =>
    kept_step ⟨svc, hl⟩ hP rfl hkept hguard hstep
  exact hkept.once

/-! ## A config that appears -/

def carplayConf : File UInt8 :=
  ⟨[bytes "<service name=\"jciCARPLAY\" reset_board=\"yes\">", bytes "</service>"], []⟩

/-- CarPlay is installed, `sm_WCP.conf` appears, CarPlay is installed: the line with the
library path is in both configs. -/
theorem ldPath_duplicated :
    (∀ svc, (records carplayConf).countP (names svc) ≤ 1 ∧
      ∀ l ∈ injected svc, (records carplayConf).count l = 0) ∧
    ∃ fs, Reach (step carplayConf) (fun _ _ => True) (fresh carplayConf) fs ∧
      ¬NoDuplicate (install .carplay fs) := by
  constructor
  · have hclean : ∀ svc ∈ services, (records carplayConf).countP (names svc) ≤ 1 ∧
        ∀ l ∈ injected svc, (records carplayConf).count l = 0 := by
      decide +kernel
    exact fun svc => hclean svc (mem_services svc)
  · have hrun : ∃ fs, Reach (step carplayConf) (fun _ _ => True) (fresh carplayConf) fs ∧
        2 ≤ copies ldPathLine (install .carplay fs) := by
      refine Reach.exists_of_replay [.install .carplay, .appear] ?_
      decide +kernel
    obtain ⟨fs, hreach, htwo⟩ := hrun
    refine ⟨fs, hreach, fun h => ?_⟩
    have hone := h .jciCARPLAY ldPathLine (by simp [injected, extraLine])
    omega

/-- The line is gone with an uninstall, and the second install puts it into the config that
has appeared. -/
theorem noDuplicate_install : ∃ fs,
    Reach (step carplayConf) (Guard carplayConf) (fresh carplayConf) fs ∧
      copiesIn ldPathLine (fs.conf .wcp).text = 1 ∧ NoDuplicate fs := by
  have hnone : ∀ svc ∈ services, ∀ l ∈ injected svc, (records carplayConf).count l = 0 := by
    decide +kernel
  obtain ⟨fs, hreach, hcopy⟩ : ∃ fs,
      Reach (step carplayConf) (Guard carplayConf) (fresh carplayConf) fs ∧
        copiesIn ldPathLine (fs.conf .wcp).text = 1 := by
    refine Reach.exists_of_replay
      [.install .carplay, .uninstall .carplay, .appear, .install .both, .uninstall .aa] ?_
    decide +kernel
  refine ⟨fs, hreach, hcopy, noDuplicate_of_reach (fun svc l hl => ?_) hreach⟩
  rw [hnone svc (mem_services svc) l hl]
  exact Nat.zero_le 1

end OemAaMod.Installer
