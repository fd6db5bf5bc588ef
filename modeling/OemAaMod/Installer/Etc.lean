import OemAaMod.Installer.Uninstall

/-!
# The files in `/etc`

What `run.sh` does beside the service configs: the attributes of Android Auto are replaced,
and the device manager's template advertises navigation for CarPlay.

* `Disk` — the configs and these files; `Disk.step` — a run of the installer;
* `XmlAs`, `MasterAs` — they are as the installed integrations want them;
* `etc_iff` — the template comes back from every history exactly if it is `Advertisable`.
-/

namespace OemAaMod.Installer

open CStr (Bytes)
open Pattern (lit occurs replaceFirst)
open Text (File records sed)

inductive Xml
  | aap_system_attributes
  | aap_system_attributes_UCP
deriving DecidableEq

/-- The files of the unit that a run touches. -/
structure Disk where
  fs     : Fs
  xml    : Xml → ConfFile
  /-- `/etc/devmgr_config_master.xml` -/
  master : ConfFile

/-! ## A run -/

def naviFalse : Bytes := bytes "<name>NaviSupported</name><value>FALSE</value>"

def naviTrue : Bytes := bytes "<name>NaviSupported</name><value>TRUE</value>"

def advertise (t : File UInt8) : File UInt8 := sed t (replaceFirst naviFalse naviTrue)

def revert (t : File UInt8) : File UInt8 := sed t (replaceFirst naviTrue naviFalse)

/-- `bak_orig` and `cp`, where the file is there. -/
def installXml (resource : File UInt8) (f : ConfFile) : ConfFile :=
  if f.text = none then f else { bakOrig f with text := some resource }

def installMaster (f : ConfFile) : ConfFile :=
  if f.text = none then f else mapText advertise (bakOrig f)

def uninstallXml (f : ConfFile) : ConfFile := (restoreOrig f).getD f

def uninstallMaster (f : ConfFile) : ConfFile :=
  if f.text = none then f
  else
    match restoreOrig f with
    | some f' => f'
    | none => mapText revert f

def Mode.includesAa (mode : Mode) : Bool := mode = .both ∨ mode = .aa

def Mode.includesCarplay (mode : Mode) : Bool := mode = .both ∨ mode = .carplay

def Disk.install (resource : Xml → File UInt8) (mode : Mode) (d : Disk) : Disk where
  fs     := Installer.install mode d.fs
  xml x  := if mode.includesAa then installXml (resource x) (d.xml x) else d.xml x
  master := if mode.includesCarplay then installMaster d.master else d.master

def Disk.uninstall (mode : Mode) (d : Disk) : Disk where
  fs     := Installer.uninstall mode d.fs
  xml x  := if mode.includesAa then uninstallXml (d.xml x) else d.xml x
  master := if mode.includesCarplay then uninstallMaster d.master else d.master

def Disk.step (resource : Xml → File UInt8) (d : Disk) : Action → Option Disk
  | .install mode => some (d.install resource mode)
  | .uninstall mode => some (d.uninstall mode)
  | _ => none

/-- Nothing is installed. -/
def Disk.untouched (text : Conf → Option (File UInt8)) (xml : Xml → Option (File UInt8))
    (master : Option (File UInt8)) : Disk where
  fs     := Installer.untouched text
  xml x  := ⟨xml x, none⟩
  master := ⟨master, none⟩

/-- The file `o` as it should be: edited with its backup, or as it was. -/
def EtcAs (installed : Bool) (edit : File UInt8 → File UInt8) (o : Option (File UInt8))
    (f : ConfFile) : Prop :=
  f = if installed then ⟨o.map edit, o⟩ else ⟨o, none⟩

/-- The attributes are replaced where the library of Android Auto is. -/
def XmlAs (resource : Xml → File UInt8) (xml : Xml → Option (File UInt8)) (d : Disk) : Prop :=
  ∀ x, EtcAs (d.fs.lib .jciAAPA) (fun _ => resource x) (xml x) (d.xml x)

/-- The template advertises navigation where the library of CarPlay is. -/
def MasterAs (master : Option (File UInt8)) (d : Disk) : Prop :=
  EtcAs (d.fs.lib .jciCARPLAY) advertise master d.master

/-- No line of the template advertises navigation yet, and none could do so twice. -/
def Advertisable (o : Option (File UInt8)) : Prop :=
  ∀ m, o = some m → ∀ l ∈ records m, occurs (lit naviTrue) l = false ∧
    occurs (lit naviFalse) (replaceFirst naviFalse naviTrue l) = false

variable {text : Conf → Option (File UInt8)} {xml : Xml → Option (File UInt8)}
variable {master o : Option (File UInt8)} {resource : Xml → File UInt8} {d : Disk} {mode : Mode}
variable {m r : File UInt8} {f : ConfFile} {fs : Fs} {svc : Service} {installed : Bool}
variable {edit : File UInt8 → File UInt8}

/-! ## The template -/

theorem checked_navi : naviFalse.length ≠ naviTrue.length ∧ naviFalse ≠ [] ∧ naviTrue ≠ [] := by
  decide +kernel

theorem advertise_eq_self : advertise m = m ↔ ∀ l ∈ records m, occurs (lit naviFalse) l = false := by
  obtain ⟨hlength, hfalse, htrue⟩ := checked_navi
  unfold advertise
  rw [Text.sed_eq_self fun l => Pattern.replaceFirst_ne_nil hfalse htrue]
  exact forall₂_congr fun l _ => Pattern.replaceFirst_eq_self hfalse hlength

theorem revert_eq_self : revert m = m ↔ ∀ l ∈ records m, occurs (lit naviTrue) l = false := by
  obtain ⟨hlength, hfalse, htrue⟩ := checked_navi
  unfold revert
  rw [Text.sed_eq_self fun l => Pattern.replaceFirst_ne_nil htrue hfalse]
  exact forall₂_congr fun l _ => Pattern.replaceFirst_eq_self htrue hlength.symm

theorem advertise_advertise : advertise (advertise m) = advertise m ↔
    ∀ l ∈ records m, occurs (lit naviFalse) (replaceFirst naviFalse naviTrue l) = false := by
  obtain ⟨-, hfalse, htrue⟩ := checked_navi
  rw [advertise_eq_self, advertise, Text.records_sed fun l =>
    Pattern.replaceFirst_ne_nil hfalse htrue]
  exact List.forall_mem_map

/-- Setting the template back and advertising twice are without an effect. -/
theorem advertisable_iff : Advertisable (some m) ↔
    revert m = m ∧ advertise (advertise m) = advertise m := by
  rw [revert_eq_self, advertise_advertise]
  constructor
  · exact fun h => ⟨fun l hl => (h m rfl l hl).1, fun l hl => (h m rfl l hl).2⟩
  · rintro ⟨hrevert, htwice⟩ m' hm' l hl
    obtain rfl := Option.some_inj.mp hm'
    exact ⟨hrevert l hl, htwice l hl⟩

/-! ## One file -/

theorem EtcAs.installXml (h : EtcAs installed (fun _ => r) o f) :
    EtcAs true (fun _ => r) o (installXml r f) := by
  unfold EtcAs at h ⊢
  subst h
  cases o <;> cases installed <;> rfl

theorem EtcAs.uninstallXml (h : EtcAs installed edit o f) :
    EtcAs false edit o (uninstallXml f) := by
  unfold EtcAs at h ⊢
  subst h
  cases o <;> cases installed <;> rfl

theorem EtcAs.installMaster (ho : Advertisable o) (h : EtcAs installed advertise o f) :
    EtcAs true advertise o (installMaster f) := by
  unfold EtcAs at h ⊢
  subst h
  cases o with
  | none => cases installed <;> rfl
  | some m =>
    cases installed with
    | false => rfl
    | true =>
      show (⟨some (advertise (advertise m)), some m⟩ : ConfFile) = ⟨some (advertise m), some m⟩
      rw [(advertisable_iff.mp ho).2]

theorem EtcAs.uninstallMaster (ho : Advertisable o) (h : EtcAs installed advertise o f) :
    EtcAs false advertise o (uninstallMaster f) := by
  unfold EtcAs at h ⊢
  subst h
  cases o with
  | none => cases installed <;> rfl
  | some m =>
    cases installed with
    | false =>
      show (⟨some (revert m), none⟩ : ConfFile) = ⟨some m, none⟩
      rw [(advertisable_iff.mp ho).1]
    | true => rfl

/-! ## Runs -/

theorem lib_uninstall_all (svc : Service) : (uninstall .both fs).lib svc = false := by
  have hall : svc ∈ Mode.both.services := by cases svc <;> decide
  show (([Conf.sm, Conf.wcp].foldl restoreOrStrip fs).lib svc &&
    decide (svc ∉ Mode.both.services)) = false
  rw [decide_eq_false (not_not_intro hall), Bool.and_false]

/-- A library is left by the last run that was about it. -/
theorem lib_runs (mode : Mode) (fs : Fs) :
    (install mode fs).lib .jciAAPA = (fs.lib .jciAAPA || mode.includesAa) ∧
    (install mode fs).lib .jciCARPLAY = (fs.lib .jciCARPLAY || mode.includesCarplay) ∧
    (uninstall mode fs).lib .jciAAPA = (fs.lib .jciAAPA && !mode.includesAa) ∧
    (uninstall mode fs).lib .jciCARPLAY = (fs.lib .jciCARPLAY && !mode.includesCarplay) := by
  rw [lib_install, lib_install]
  refine ⟨by cases mode <;> rfl, by cases mode <;> rfl, ?_⟩
  cases mode with
  | both =>
    rw [lib_uninstall_all, lib_uninstall_all]
    exact ⟨(Bool.and_false _).symm, (Bool.and_false _).symm⟩
  | _ =>
    rw [lib_uninstall (by simp), lib_uninstall (by simp)]
    exact ⟨rfl, rfl⟩

theorem xmlAs_step {d' : Disk} {a : Action} (hstep : d.step resource a = some d')
    (h : XmlAs resource xml d) : XmlAs resource xml d' := by
  intro x
  have hx := h x
  cases a with
  | install mode =>
    rw [← Option.some_inj.mp hstep]
    simp only [Disk.install, (lib_runs mode d.fs).1]
    cases mode.includesAa
    · rwa [Bool.or_false]
    · rw [Bool.or_true]
      exact hx.installXml
  | uninstall mode =>
    rw [← Option.some_inj.mp hstep]
    simp only [Disk.uninstall, (lib_runs mode d.fs).2.2.1]
    cases mode.includesAa
    · rwa [Bool.not_false, Bool.and_true]
    · rw [Bool.not_true, Bool.and_false]
      exact hx.uninstallXml
  | appear => exact absurd hstep (by simp [Disk.step])
  | disappear => exact absurd hstep (by simp [Disk.step])

theorem masterAs_step {d' : Disk} {a : Action} (ho : Advertisable master)
    (hstep : d.step resource a = some d') (h : MasterAs master d) : MasterAs master d' := by
  unfold MasterAs at h ⊢
  cases a with
  | install mode =>
    rw [← Option.some_inj.mp hstep]
    simp only [Disk.install, (lib_runs mode d.fs).2.1]
    cases mode.includesCarplay
    · rwa [Bool.or_false]
    · rw [Bool.or_true]
      exact h.installMaster ho
  | uninstall mode =>
    rw [← Option.some_inj.mp hstep]
    simp only [Disk.uninstall, (lib_runs mode d.fs).2.2.2]
    cases mode.includesCarplay
    · rwa [Bool.not_false, Bool.and_true]
    · rw [Bool.not_true, Bool.and_false]
      exact h.uninstallMaster ho
  | appear => exact absurd hstep (by simp [Disk.step])
  | disappear => exact absurd hstep (by simp [Disk.step])

/-- Histories of the installer on an untouched unit. -/
def Histories (resource : Xml → File UInt8) (text : Conf → Option (File UInt8))
    (xml : Xml → Option (File UInt8)) (master : Option (File UInt8)) (d : Disk) : Prop :=
  Run.Reach (Disk.step resource) (fun _ _ => True) (Disk.untouched text xml master) d

/-- Two histories that the template has to survive. -/
theorem advertisable_of_master
    (h : ∀ d, Histories resource text xml master d → MasterAs master d) :
    Advertisable master := by
  have hstart : Histories resource text xml master (Disk.untouched text xml master) := .start
  cases master with
  | none => exact fun m hm => absurd hm (by simp)
  | some m =>
    rw [advertisable_iff]
    constructor
    · -- an uninstall of what was never installed
      have hrun := h _ (hstart.next (a := .uninstall .carplay) rfl trivial)
      simp only [MasterAs, EtcAs, Disk.uninstall, (lib_runs .carplay _).2.2.2] at hrun
      exact Option.some_inj.mp (congrArg ConfFile.text hrun)
    · -- an install of what is installed
      have hrun := h _ ((hstart.next (a := .install .carplay) rfl trivial).next
        (a := .install .carplay) rfl trivial)
      simp only [MasterAs, EtcAs, Disk.install, (lib_runs .carplay _).2.1] at hrun
      exact Option.some_inj.mp (congrArg ConfFile.text hrun)

/-- **The files in `/etc` follow the integrations** through every history: those of Android
Auto always, and the template exactly if it is `Advertisable`. -/
theorem etc_iff (resource : Xml → File UInt8) (text : Conf → Option (File UInt8))
    (xml : Xml → Option (File UInt8)) (master : Option (File UInt8)) :
    (∀ d, Histories resource text xml master d → XmlAs resource xml d) ∧
      ((∀ d, Histories resource text xml master d → MasterAs master d) ↔
        Advertisable master) := by
  refine ⟨fun d h => ?_, advertisable_of_master, fun ho d h => ?_⟩
  · have hinit : XmlAs resource xml (Disk.untouched text xml master) := fun _ => rfl
    exact h.invariant hinit fun _ _ _ hinv _ hstep => xmlAs_step hstep hinv
  · have hinit : MasterAs master (Disk.untouched text xml master) := rfl
    exact h.invariant hinit fun _ _ _ hinv _ hstep => masterAs_step ho hstep hinv

end OemAaMod.Installer
