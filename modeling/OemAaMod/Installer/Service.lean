import OemAaMod.Lib.CStr
import OemAaMod.Lib.Pattern
import OemAaMod.Lib.Text

/-!
# The services of the installer

`run.sh`: what the installer looks for in the lines of a service manager config, and the
lines that it injects.

* `names`, `hasToken`, `ldPath` — the lines that open a stanza, those with the name of a
  library and those with the library path of CarPlay;
* `injected` — the lines behind the one that opens the stanza;
* `resetNo`, `resetYes` — the rewritten `reset_board`, of which none of the patterns takes
  notice.
-/

namespace OemAaMod.Installer

open CStr (Bytes)
open Pattern (Pat NoClash lit occurs occursThen replaceFirst)

inductive Service
  | jciAAPA
  | jcinavi
  | jciCARPLAY
deriving DecidableEq

def bytes (text : String) : Bytes := text.toUTF8.toList

def Service.name : Service → Bytes
  | .jciAAPA => bytes "jciAAPA"
  | .jcinavi => bytes "jcinavi"
  | .jciCARPLAY => bytes "jciCARPLAY"

/-- The library that is preloaded, without its directory. -/
def Service.token : Service → Bytes
  | .jciAAPA => bytes "libpatch-blmjciaapa.so"
  | .jcinavi => bytes "libpatch-svcjcinavi.so"
  | .jciCARPLAY => bytes "libpatch-blmjcicarplay.so"

def modDir : Bytes := bytes "/data_persist/oem-aa-mod"

/-! ## What it looks for -/

/-- `name="svc"` -/
def anchor (svc : Service) : Bytes := bytes "name=\"" ++ svc.name ++ bytes "\""

/-- The line opens a stanza of the service. -/
def names (svc : Service) (l : Bytes) : Bool := occurs (lit (anchor svc)) l

/-- A `grep` pattern in which only the dot is special. -/
def grepPat (pattern : Bytes) : Pat UInt8 := pattern.map fun b => if b = 0x2E then none else some b

/-- `grep "$token"` -/
def hasToken (svc : Service) (l : Bytes) : Bool := occurs (grepPat svc.token) l

/-- `grep 'LD_LIBRARY_PATH.*jci/lib:/usr/lib'` -/
def ldPath (l : Bytes) : Bool :=
  occursThen (lit (bytes "LD_LIBRARY_PATH")) (lit (bytes "jci/lib:/usr/lib")) l

/-! ## What it writes -/

def preloadLine (svc : Service) : Bytes :=
  bytes "            <environ_var env_name=\"LD_PRELOAD\" env_value=\"" ++ modDir ++ bytes "/" ++
    svc.token ++ bytes "\"/>"

def ldPathLine : Bytes :=
  bytes "            <environ_var env_name=\"LD_LIBRARY_PATH\" env_value=\"/jci/lib:/usr/lib\"/>"

/-- The extra line of `patch_service`. -/
def extraLine : Service → List Bytes
  | .jciCARPLAY => [ldPathLine]
  | _ => []

def injected (svc : Service) : List Bytes := preloadLine svc :: extraLine svc

def resetBoardYes : Bytes := bytes "reset_board=\"yes\""

def resetBoardNo : Bytes := bytes "reset_board=\"no\""

/-- `s/reset_board="yes"/reset_board="no"/` -/
def resetNo (l : Bytes) : Bytes := replaceFirst resetBoardYes resetBoardNo l

def resetYes (l : Bytes) : Bytes := replaceFirst resetBoardNo resetBoardYes l

/-- A sed command on the lines that name the service. -/
def onNaming (svc : Service) (f : Bytes → Bytes) (l : Bytes) : Bytes :=
  if names svc l then f l else l

variable {svc svc' : Service} {l : Bytes}

/-! ## The patterns on what it writes -/

def services : List Service := [.jciAAPA, .jcinavi, .jciCARPLAY]

theorem mem_services (svc : Service) : svc ∈ services := by
  cases svc <;> decide

/-- The patterns, run on the lines of the installer. -/
theorem checked_lines : (∀ svc ∈ services, hasToken svc ldPathLine = false ∧
    ldPath (preloadLine svc) = false ∧ ∀ svc' ∈ services,
      (hasToken svc (preloadLine svc') = true ↔ svc = svc') ∧
        ∀ l ∈ injected svc', names svc l = false) ∧ ldPath ldPathLine = true := by
  decide +kernel

theorem hasToken_preloadLine : hasToken svc (preloadLine svc') = true ↔ svc = svc' :=
  ((checked_lines.1 svc (mem_services svc)).2.2 svc' (mem_services svc')).1

theorem hasToken_ldPathLine : hasToken svc ldPathLine = false :=
  (checked_lines.1 svc (mem_services svc)).1

theorem eq_of_hasToken_injected (h : l ∈ injected svc') (htoken : hasToken svc l = true) :
    svc = svc' := by
  rcases List.mem_cons.mp h with rfl | hextra
  · exact hasToken_preloadLine.mp htoken
  · cases svc' with
    | jciAAPA => exact absurd hextra List.not_mem_nil
    | jcinavi => exact absurd hextra List.not_mem_nil
    | jciCARPLAY =>
      rw [List.mem_singleton.mp hextra, hasToken_ldPathLine] at htoken
      exact absurd htoken Bool.false_ne_true

theorem ldPath_preloadLine : ldPath (preloadLine svc) = false :=
  (checked_lines.1 svc (mem_services svc)).2.1

theorem ldPath_ldPathLine : ldPath ldPathLine = true := checked_lines.2

/-- No injected line opens a stanza. -/
theorem names_of_injected (h : l ∈ injected svc') : names svc l = false :=
  ((checked_lines.1 svc (mem_services svc)).2.2 svc' (mem_services svc')).2 l h

/-! ## The patterns on a rewritten line -/

/-- What the installer looks for is the same in a line rewritten by `f`. -/
structure Quiet (f : Bytes → Bytes) : Prop where
  names    : ∀ svc l, names svc (f l) = names svc l
  hasToken : ∀ svc l, hasToken svc (f l) = hasToken svc l
  ldPath   : ∀ l, ldPath (f l) = ldPath l
  ne_nil   : ∀ l, l ≠ [] → f l ≠ []

/-- The pattern overlaps neither spelling of the attribute. -/
def Apart (p : Pat UInt8) : Prop := p ≠ [] ∧ NoClash p resetBoardYes ∧ NoClash p resetBoardNo

instance (p : Pat UInt8) : Decidable (Apart p) := inferInstanceAs (Decidable (_ ∧ _))

/-- The patterns, laid over the two spellings. -/
theorem checked_apart : (∀ svc ∈ services, Apart (lit (anchor svc)) ∧ Apart (grepPat svc.token)) ∧
    (Apart (lit (bytes "LD_LIBRARY_PATH")) ∧ Apart (lit (bytes "jci/lib:/usr/lib"))) ∧
      resetBoardYes ≠ [] ∧ resetBoardNo ≠ [] := by
  decide +kernel

theorem apart_anchor (svc : Service) : Apart (lit (anchor svc)) :=
  (checked_apart.1 svc (mem_services svc)).1

theorem apart_token (svc : Service) : Apart (grepPat svc.token) :=
  (checked_apart.1 svc (mem_services svc)).2

theorem apart_ldPath :
    Apart (lit (bytes "LD_LIBRARY_PATH")) ∧ Apart (lit (bytes "jci/lib:/usr/lib")) :=
  checked_apart.2.1

theorem resetBoard_ne_nil : resetBoardYes ≠ [] ∧ resetBoardNo ≠ [] := checked_apart.2.2

theorem quiet_replaceFirst {w r : Bytes} (hw : w ≠ []) (hr : r ≠ [])
    (hapart : ∀ p, Apart p → NoClash p w ∧ NoClash p r) : Quiet (replaceFirst w r) where
  names svc l :=
    have h := hapart _ (apart_anchor svc)
    Pattern.occurs_replaceFirst h.1 h.2 (apart_anchor svc).1 hw l
  hasToken svc l :=
    have h := hapart _ (apart_token svc)
    Pattern.occurs_replaceFirst h.1 h.2 (apart_token svc).1 hw l
  ldPath l :=
    have hvar := hapart _ apart_ldPath.1
    have hpath := hapart _ apart_ldPath.2
    Pattern.occursThen_replaceFirst hvar.1 hvar.2 hpath.1 hpath.2 apart_ldPath.1.1
      apart_ldPath.2.1 hw l
  ne_nil l hl := by
    rcases Pattern.replaceFirst_cases hw r l with ⟨-, heq⟩ | ⟨a, b, -, heq⟩
    · rwa [heq]
    · rw [heq]
      simp [hr]

theorem quiet_resetNo : Quiet resetNo :=
  quiet_replaceFirst resetBoard_ne_nil.1 resetBoard_ne_nil.2 fun _ h => h.2

theorem quiet_resetYes : Quiet resetYes :=
  quiet_replaceFirst resetBoard_ne_nil.2 resetBoard_ne_nil.1 fun _ h => h.2.symm

theorem Quiet.onNaming {f : Bytes → Bytes} (h : Quiet f) (svc : Service) :
    Quiet (onNaming svc f) where
  names svc' l := by
    unfold Installer.onNaming
    split
    · exact h.names svc' l
    · rfl
  hasToken svc' l := by
    unfold Installer.onNaming
    split
    · exact h.hasToken svc' l
    · rfl
  ldPath l := by
    unfold Installer.onNaming
    split
    · exact h.ldPath l
    · rfl
  ne_nil l hl := by
    unfold Installer.onNaming
    split
    · exact h.ne_nil l hl
    · exact hl

end OemAaMod.Installer
