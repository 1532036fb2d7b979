import Aiowdm.Driver.Probe
import Aiowdm.Lib.System

/-!
# Runs of the module

The kernel loads the module, probes and removes cards while it is loaded, and
unloads it once no card is bound.  Each of the four functions runs to its end in
one step.
-/

namespace Aiowdm.Driver.ModuleRuns

open Aiowdm.Lib Aiowdm.Driver.DeviceContext Aiowdm.Driver.DeviceTable Aiowdm.Driver.Kernel
open Aiowdm.Driver.Probe

/-- What a run is about: the cards there are and the two tables. -/
structure Machine where
  pci : PciDev → PciResources
  table : List DeviceDescriptor
  ids : List Nat

/-- `loaded` and `bound` are what the kernel knows of the module and its cards. -/
structure State where
  world : World
  loaded : Bool
  bound : List PciDev

/-- Each action brings the outcomes of the calls it makes. -/
inductive Action where
  | load (o : Outcomes)
  | probe (dev : PciDev) (device : Nat) (o : Outcomes)
  | remove (dev : PciDev) (o : Outcomes)
  | unload (o : Outcomes)

structure Binding where
  context : Ptr
  contents : Context

inductive Event where
  | loaded (ending : Ending Int)
  | probed (dev : PciDev) (ending : Ending Int) (binding : Option Binding)
  | removed (dev : PciDev) (ending : Ending Unit)
  | unloaded

/-- The context that `drvdata` of a card leads to. -/
def bindingOf (w : World) (dev : PciDev) : Option Binding :=
  (w.drvdata dev).bind fun context => (w.contexts context).map fun c => ⟨context, c⟩

def step (m : Machine) (s : State) : Action → Option (Event × State)
  | .load o =>
      if s.loaded then none
      else
        let (ending, world) := (accesioPciInit m.table m.ids).exec (handler m.pci o) s.world
        some (.loaded ending, { s with world, loaded := decide (ending = .returned 0) })
  | .probe dev device o =>
      if s.loaded ∧ dev ∉ s.bound then
        let (ending, world) :=
          (accesioPciDriverProbe m.table dev device).exec (handler m.pci o) s.world
        some (.probed dev ending (bindingOf world dev), { s with
          world
          bound := if ending = .returned 0 then dev :: s.bound else s.bound })
      else none
  | .remove dev o =>
      if dev ∈ s.bound then
        let (ending, world) := (accesioPciDriverRemove (some dev)).exec (handler m.pci o) s.world
        some (.removed dev ending, { s with world, bound := s.bound.erase dev })
      else none
  | .unload o =>
      if s.loaded ∧ s.bound = [] then
        some (.unloaded, { s with
          world := (accesioPciExit.exec (handler m.pci o) s.world).2
          loaded := false })
      else none

def system (m : Machine) (w : World) : System State Action Event where
  init := ⟨w, false, []⟩
  step := step m

/-! ## Cards that come and go -/

inductive Hotplug where
  | probe (dev : PciDev) (device : Nat) (o : Outcomes)
  | remove (dev : PciDev) (o : Outcomes)

def Hotplug.action : Hotplug → Action
  | .probe dev device o => .probe dev device o
  | .remove dev o => .remove dev o

def afterLoad (m : Machine) (o : Outcomes) : State :=
  let (ending, world) := (accesioPciInit m.table m.ids).exec (handler m.pci o) .fresh
  ⟨world, decide (ending = .returned 0), []⟩

def hotplug (m : Machine) (o : Outcomes) : System State Hotplug Event where
  init := afterLoad m o
  step := fun s a => step m s a.action

def Succeeds (m : Machine) : Action → Prop
  | .load o => o.allocChrdevRegion.1 = 0 ∧ o.classCreate.isOk ∧ o.pciRegisterDriver = 0
  | .probe dev device o =>
      o.pciEnableDevice = 0 ∧ o.pciRequestRegions = 0 ∧ o.kzalloc ∧
        (∀ bar, ((m.pci dev).bars bar).implemented → (o.pciIomap bar).isSome) ∧
        (∃ d, lookupDescriptor m.table device = some d ∧ o.requestIrq d.isr = 0 ∧
          (d.hasDma → o.kmalloc)) ∧
        o.cdevAdd = 0 ∧ o.deviceCreate.isOk
  | .remove _ _ | .unload _ => True

end Aiowdm.Driver.ModuleRuns
