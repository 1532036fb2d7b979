import Aiowdm.Driver.ModuleRuns

/-!
# Device nodes

A kernel that keeps the nodes `device_create` makes.  A name is taken once: the
call fails exactly when a node of that name is there.  `probeAll` probes a list
of cards one after the other.
-/

namespace Aiowdm.Driver.DeviceNodes

open Aiowdm.Lib Aiowdm.Driver.DeviceContext Aiowdm.Driver.DeviceTable Aiowdm.Driver.Kernel
open Aiowdm.Driver.InterruptStyles Aiowdm.Driver.Probe Aiowdm.Driver.ModuleRuns

def EEXIST : Int := 17

/-- A node, the number an open of it leads to, and the context it was made for. -/
structure Node where
  name : String
  number : DevT
  context : Ptr
deriving DecidableEq, Repr

/-- The nodes there are, and the names `device_create` was called with, the last
one first. -/
structure Nodes where
  nodes : List Node
  names : List String

def Nodes.none : Nodes := ⟨[], []⟩

def Nodes.taken (ns : Nodes) (name : String) : Prop :=
  name ∈ ns.nodes.map (·.name)

instance (ns : Nodes) (name : String) : Decidable (ns.taken name) :=
  inferInstanceAs (Decidable (name ∈ ns.nodes.map (·.name)))

def Nodes.created (ns : Nodes) (name : String) : Except Int Ptr :=
  if ns.taken name then .error (-EEXIST) else .ok (ns.nodes.length + 1)

def Nodes.create (ns : Nodes) (node : Node) : Nodes where
  nodes := if ns.taken node.name then ns.nodes else node :: ns.nodes
  names := node.name :: ns.names

def Nodes.destroy (ns : Nodes) (number : DevT) : Nodes :=
  { ns with nodes := ns.nodes.filter fun node => node.number ≠ number }

/-- The outcomes `o`, but for the answer of `device_create`. -/
def nodeHandler (pci : PciDev → PciResources) (o : Outcomes) : Handler kernel (World × Nodes)
  | .deviceCreate charClass dev context name, (w, ns) =>
      let (reply, w) := handler pci { o with deviceCreate := ns.created name }
        (.deviceCreate charClass dev context name) w
      (reply, w, ns.create ⟨name, dev, context⟩)
  | .deviceDestroy charClass dev, (w, ns) =>
      let (reply, w) := handler pci o (.deviceDestroy charClass dev) w
      (reply, w, ns.destroy dev)
  | c, (w, ns) =>
      let (reply, w) := handler pci o c w
      (reply, w, ns)

section Running

variable (pci : PciDev → PciResources) (o : Outcomes) (w : World) (ns : Nodes)

@[simp] theorem nodes_store (context : Ptr) (field : Store) :
    (store context field).exec (nodeHandler pci o) (w, ns) =
      ((), w.store context field, ns) := rfl

@[simp] theorem nodes_kmalloc :
    kmalloc.exec (nodeHandler pci o) (w, ns) =
      ((kmalloc.exec (handler pci o) w).1, (kmalloc.exec (handler pci o) w).2, ns) := rfl

@[simp] theorem nodes_dmaLockInit (isrContext : Ptr) :
    (dmaLockInit isrContext).exec (nodeHandler pci o) (w, ns) = ((), w, ns) := rfl

@[simp] theorem nodes_pciDevIrq (dev : PciDev) :
    (pciDevIrq dev).exec (nodeHandler pci o) (w, ns) = ((pci dev).irq, w, ns) := rfl

@[simp] theorem nodes_requestIrq (irq : Nat) (isr : Option Style) (context : Ptr) :
    (requestIrq irq isr context).exec (nodeHandler pci o) (w, ns) =
      (o.requestIrq isr, w.acquireIf (o.requestIrq isr = 0) (.irq irq context), ns) := rfl

@[simp] theorem nodes_loadCharMajor :
    loadCharMajor.exec (nodeHandler pci o) (w, ns) = (w.charMajor, w, ns) := rfl

@[simp] theorem nodes_loadCharNextMinor :
    loadCharNextMinor.exec (nodeHandler pci o) (w, ns) = (w.charNextMinor, w, ns) := rfl

@[simp] theorem nodes_loadCharClass :
    loadCharClass.exec (nodeHandler pci o) (w, ns) = (w.charClass, w, ns) := rfl

@[simp] theorem nodes_storeCharNextMinor (value : BitVec 32) :
    (storeCharNextMinor value).exec (nodeHandler pci o) (w, ns) =
      ((), w.setCharNextMinor value, ns) := rfl

@[simp] theorem nodes_cdevAdd (context : Ptr) (dev : DevT) :
    (cdevAdd context dev).exec (nodeHandler pci o) (w, ns) =
      (o.cdevAdd, w.acquireIf (o.cdevAdd = 0) (.cdev context dev), ns) := rfl

@[simp] theorem nodes_deviceCreate (charClass : ErrPtr) (dev : DevT) (context : Ptr)
    (name : String) :
    (deviceCreate charClass dev context name).exec (nodeHandler pci o) (w, ns) =
      (errPtr (ns.created name),
        w.acquireIf (ns.created name).isOk (.deviceNode dev),
        ns.create ⟨name, dev, context⟩) := rfl

end Running

/-! ## Probing a list of cards -/

/-- A card in the machine, its device id, and how the calls about it come out. -/
structure Attached where
  dev : PciDev
  device : Nat
  outcomes : Outcomes

structure Cards where
  world : World
  nodes : Nodes
  bound : List PciDev

def probeCard (m : Machine) (s : Cards) (a : Attached) : Cards :=
  let (ending, world, nodes) := (accesioPciDriverProbe m.table a.dev a.device).exec
    (nodeHandler m.pci a.outcomes) (s.world, s.nodes)
  ⟨world, nodes, if ending = .returned 0 then a.dev :: s.bound else s.bound⟩

def probeAll (m : Machine) (s : Cards) (cards : List Attached) : Cards :=
  cards.foldl (probeCard m) s

/-- The machine after a load, with no card probed yet. -/
def unprobed (m : Machine) (o : Outcomes) : Cards :=
  ⟨(afterLoad m o).world, .none, []⟩

end Aiowdm.Driver.DeviceNodes
