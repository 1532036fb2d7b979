import Aiowdm.Driver.ModuleRuns
import Aiowdm.Driver.RegisterIo

/-!
# Open files and the cards under them

Probes, removes, opens, releases and ioctls in any order, over any number of
cards, files and threads.  Probe and remove make one kernel call a step, and an
ioctl takes several steps, so that a remove may come between any two.  The
kernel keeps `private_data` of an open file, and opens a cdev as long as it is
registered.
-/

namespace Aiowdm.Driver.Handles

open Aiowdm.Lib Aiowdm.Driver.DeviceContext Aiowdm.Driver.IrqWait Aiowdm.Driver.Kernel
open Aiowdm.Driver.Probe Aiowdm.Driver.RegisterIo
open Aiowdm.Driver.ModuleRuns (Machine)

abbrev File := Nat
abbrev Thread := Nat

/-! ## Ioctls -/

/-- `cmd`, with the request where one is copied. -/
inductive Command where
  | cardDescriptorGet
  | irqEnable
  | irqDisable
  | irqWait
  | irqWaitCancel
  | registerIo (request : Option RegisterIoContext)
  | unknown
deriving DecidableEq, Repr

/-- Whether a command looks at the context at all. -/
def Command.usesContext : Command → Bool
  | .cardDescriptorGet | .irqWait | .irqWaitCancel => true
  | .registerIo request => request.any fun r => r.size = 1 ∨ r.size = 2 ∨ r.size = 4
  | .irqEnable | .irqDisable | .unknown => false

/-- Where a thread is in an ioctl: `barStart` in the loop of
`ioctl_ACCESIO_PCI_CARD_DESCRIPTOR_GET`, `wakeUp` after the section of CANCEL. -/
inductive Pc where
  | dispatched (cmd : Command)
  | barStart (bar : Nat)
  | waitEvent
  | readCancelled
  | wakeUp
deriving DecidableEq, Repr

def Pc.usesContext : Pc → Bool
  | .dispatched cmd => cmd.usesContext
  | .barStart _ | .waitEvent | .readCancelled | .wakeUp => true

/-- One step of an ioctl on `context`; it has returned where the place is `none`. -/
def resume (context : Ptr) (w : World) : Pc → World × Option Pc
  | .dispatched .cardDescriptorGet => (w, some (.barStart 0))
  | .dispatched .irqWait =>
      match ioctlAccesioPciIrqWaitEnter (w.load context).flags with
      | .error _ => (w, none)
      | .ok flags => (w.store context (.flags flags), some .waitEvent)
  | .dispatched .irqWaitCancel =>
      let (ret, flags) := ioctlAccesioPciIrqWaitCancel (w.load context).flags
      (w.store context (.flags flags), if ret = 0 then some .wakeUp else none)
  | .dispatched _ => (w, none)
  | .barStart bar => (w, if bar + 1 < PCI_STD_NUM_BARS then some (.barStart (bar + 1)) else none)
  | .waitEvent =>
      (w, some (if wakeCondition (w.load context).flags then .readCancelled else .waitEvent))
  | .readCancelled | .wakeUp => (w, none)

/-! ## Probes and removes -/

/-- A probe or remove that is under way; it ends telling whether the card is bound. -/
abbrev Task := Prog kernel (Ending Bool)

def Ending.bound {α : Type} (b : α → Bool) : Ending α → Ending Bool
  | .returned a => .returned (b a)
  | .undefined => .undefined

def probeTask (m : Machine) (dev : PciDev) (device : Nat) : Task := do
  let ending ← accesioPciDriverProbe m.table dev device
  return Ending.bound (fun status => status = 0) ending

def removeTask (dev : PciDev) : Task := do
  let ending ← accesioPciDriverRemove (some dev)
  return Ending.bound (fun _ => false) ending

/-! ## The system -/

structure OpenFile where
  file : File
  privateData : Ptr
deriving DecidableEq, Repr

structure Ioctl where
  thread : Thread
  file : File
  context : Ptr
  pc : Pc
deriving DecidableEq, Repr

structure State where
  world : World
  task : PciDev → Option Task
  bound : PciDev → Bool
  files : List OpenFile
  ioctls : List Ioctl

inductive Action where
  | probe (dev : PciDev) (device : Nat)
  | remove (dev : PciDev)
  | run (dev : PciDev) (o : Outcomes)
  | openCdev (file : File) (context : Ptr) (number : DevT)
  | release (file : File)
  | ioctl (thread : Thread) (file : File) (cmd : Command)
  | resume (thread : Thread)
  | signal (thread : Thread)
  | notify (context : Ptr)

/-- What a step is seen to do with a context. -/
inductive Event where
  | freed (context : Ptr)
  | opened (file : File) (context : Ptr)
  | used (thread : Thread) (context : Ptr)
  | quiet
deriving DecidableEq, Repr

def Event.ofCall : KernelCall → Event
  | .kfree context => .freed context
  | _ => .quiet

def Event.usedContext : Event → Option Ptr
  | .opened _ context | .used _ context => some context
  | .freed _ | .quiet => none

/-- `accesio_char_driver_open`: the cdev lies in the context. -/
def accesioCharDriverOpen (file : File) (context : Ptr) : OpenFile := ⟨file, context⟩

def State.setTask (s : State) (dev : PciDev) (task : Option Task) : State :=
  { s with task := Function.update s.task dev task }

def State.setIoctl (s : State) (i : Ioctl) (pc : Option Pc) : State :=
  { s with
    ioctls := (pc.map fun pc => { i with pc }).toList ++
      s.ioctls.filter fun j => j.thread ≠ i.thread }

/-- A task that did what C leaves undefined goes no further. -/
def runTask (m : Machine) (s : State) (dev : PciDev) (o : Outcomes) : Option (Event × State) :=
  match s.task dev with
  | none | some (.ret .undefined) => none
  | some (.ret (.returned b)) =>
      some (.quiet, { s.setTask dev none with bound := Function.update s.bound dev b })
  | some (.call c k) =>
      let (reply, world) := handler m.pci o c s.world
      some (.ofCall c, { s.setTask dev (some (k reply)) with world })

def resumeIoctl (s : State) (i : Ioctl) : Event × State :=
  let (world, pc) := resume i.context s.world i.pc
  (if i.pc.usesContext then .used i.thread i.context else .quiet, { s.setIoctl i pc with world })

/-- An open file is not released under an ioctl, and a signal ends a sleep only
after a look at the condition. -/
def step (m : Machine) (s : State) : Action → Option (Event × State)
  | .probe dev device =>
      if .driver ∈ s.world.ledger.held ∧ (s.task dev).isNone ∧ s.bound dev = false then
        some (.quiet, s.setTask dev (some (probeTask m dev device)))
      else none
  | .remove dev =>
      if (s.task dev).isNone ∧ s.bound dev = true then
        some (.quiet, s.setTask dev (some (removeTask dev)))
      else none
  | .run dev o => runTask m s dev o
  | .openCdev file context number =>
      if file ∉ s.files.map (·.file) ∧ .cdev context number ∈ s.world.ledger.held then
        some (.opened file context, { s with
          files := accesioCharDriverOpen file context :: s.files })
      else none
  | .release file =>
      if file ∈ s.files.map (·.file) ∧ file ∉ s.ioctls.map (·.file) then
        some (.quiet, { s with files := s.files.filter fun x => x.file ≠ file })
      else none
  | .ioctl thread file cmd =>
      if thread ∈ s.ioctls.map (·.thread) then none
      else
        (s.files.find? fun x => x.file = file).map fun x =>
          (.quiet, { s with
            ioctls := ⟨thread, file, x.privateData, .dispatched cmd⟩ :: s.ioctls })
  | .resume thread => (s.ioctls.find? fun i => i.thread = thread).map (resumeIoctl s)
  | .signal thread =>
      (s.ioctls.find? fun i => i.thread = thread).bind fun i =>
        if i.pc = .waitEvent ∧ wakeCondition (s.world.load i.context).flags = false then
          some (.used thread i.context, s.setIoctl i (some .readCancelled))
        else none
  | .notify context =>
      if some context ∈ s.world.ledger.held.map Resource.irqContext then
        some (.quiet, { s with
          world := s.world.store context
            (.flags (IrqWait.accesioNotifyUser (s.world.load context).flags)) })
      else none

/-- The module has just been loaded, and no card is probed yet. -/
def system (m : Machine) (o : Outcomes) : System State Action Event where
  init :=
    { world := ((accesioPciInit m.table m.ids).exec (handler m.pci o) .fresh).2
      task := fun _ => none
      bound := fun _ => false
      files := []
      ioctls := [] }
  step := step m

end Aiowdm.Driver.Handles
