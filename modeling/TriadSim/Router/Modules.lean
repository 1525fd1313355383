import TriadSim.Go.Text

/-!
# Modules

`internal/router/modules.go`: the module a model path belongs to, with the name RESTCONF
uses for it and the XML namespace NETCONF declares.
-/

namespace TriadSim
namespace Router

open Go

/-- `Module`. -/
structure Module where
  name : GoString
  space : GoString
  deriving DecidableEq, Repr

def moduleDevice : Module := ⟨"sim-device", "urn:sim:device"⟩

def moduleRadioLink : Module := ⟨"sim-radio-link", "urn:sim:radio-link"⟩

def moduleL2 : Module := ⟨"sim-l2-switching", "urn:sim:l2-switching"⟩

def moduleSync : Module := ⟨"sim-sync", "urn:sim:sync"⟩

/-- The module that claims a segment of a path, without its predicate. -/
def moduleOfSegment (part : GoString) : Option Module :=
  let name := ((cut part 91).map Prod.fst).getD part
  if name = text "radio-link" || name = text "modulation-profile" then some moduleRadioLink
  else if name = text "vlans" || name = text "mac-table" || name = text "stp" ||
    name = text "lldp" then some moduleL2
  else if name = text "ptp" || name = text "synce" then some moduleSync
  else none

/-- `ModuleFor`. -/
def moduleFor (path : GoString) : Module :=
  ((split path 47).findSome? moduleOfSegment).getD moduleDevice

/-- `ModuleFor(path).Namespace`. -/
def namespaceFor (path : GoString) : GoString :=
  (moduleFor path).space

/-- Every module has a namespace. -/
theorem namespaceFor_ne_nil (path : GoString) : namespaceFor path ≠ [] := by
  have hSegment : ∀ part module, moduleOfSegment part = some module → module.space ≠ [] := by
    intro part module hModule
    unfold moduleOfSegment at hModule
    dsimp only at hModule
    split at hModule
    · cases hModule
      decide
    · split at hModule
      · cases hModule
        decide
      · split at hModule
        · cases hModule
          decide
        · cases hModule
  unfold namespaceFor moduleFor
  cases hFound : (split path 47).findSome? moduleOfSegment with
  | none => exact (by decide : moduleDevice.space ≠ [])
  | some module =>
    obtain ⟨part, _, hPart⟩ := List.exists_of_findSome?_eq_some hFound
    exact hSegment part module hPart

end Router
end TriadSim
