import Aiowdm.Proofs.ProbeStatus

/-!
# What probe and remove do

The world a probe that returns 0 leaves, and the world a remove leaves, in
closed form.  While probe runs, the world differs from the one it began with in
the context it builds and the resources it has gathered; `building` says so.
-/

namespace Aiowdm.Proofs.ProbeEffect

open Aiowdm.Lib Aiowdm.Driver.DeviceContext Aiowdm.Driver.DeviceTable Aiowdm.Driver.Kernel
open Aiowdm.Driver.IrqWait Aiowdm.Driver.Probe Aiowdm.Proofs.ProbeStatus

/-! ## A world in which a context is being built -/

/-- `w`, where `context` now holds `c` and `gathered` has been acquired. -/
def building (context : Ptr) (c : Context) (gathered : Multiset Resource) (w : World) : World :=
  { w with
    ledger := ⟨gathered + w.ledger.held, w.ledger.overReleased⟩
    contexts := Function.update w.contexts context (some c) }

variable {context : Ptr} {c : Context} {gathered : Multiset Resource} {w : World}

@[simp] theorem building_store (field : Store) :
    (building context c gathered w).store context field =
      building context (c.set field) gathered w := by
  simp [building, World.store]

@[simp] theorem building_acquire (r : Resource) :
    (building context c gathered w).acquire r = building context c (r ::ₘ gathered) w := by
  simp [building, World.acquire, Ledger.acquire]

@[simp] theorem building_setDrvdata (dev : PciDev) (p : Option Ptr) :
    (building context c gathered w).setDrvdata dev p =
      building context c gathered (w.setDrvdata dev p) := rfl

@[simp] theorem building_setCharNextMinor (value : BitVec 32) :
    (building context c gathered w).setCharNextMinor value =
      building context c gathered (w.setCharNextMinor value) := rfl

@[simp] theorem building_charMajor :
    (building context c gathered w).charMajor = w.charMajor := rfl

@[simp] theorem building_charNextMinor :
    (building context c gathered w).charNextMinor = w.charNextMinor := rfl

/-! ## The BARs -/

def mappedBase (card : PciResources) (o : Outcomes) (bar : Fin PCI_STD_NUM_BARS) : Option Ptr :=
  if (card.bars bar).implemented then o.pciIomap bar else none

def mappings (dev : PciDev) (bases : Fin PCI_STD_NUM_BARS → Option Ptr)
    (bars : List (Fin PCI_STD_NUM_BARS)) : List Resource :=
  bars.filterMap fun bar => (bases bar).map (.mapping dev)

def afterBars (card : PciResources) (o : Outcomes) (bars : List (Fin PCI_STD_NUM_BARS))
    (c : Context) : Context :=
  { c with
    barBases := fun bar =>
      if bar ∈ bars ∧ (card.bars bar).implemented then o.pciIomap bar else c.barBases bar
    defaultBar := if ∃ bar ∈ bars, (card.bars bar).isIo then 1 else c.defaultBar }

theorem mappings_cons (dev : PciDev) (bases : Fin PCI_STD_NUM_BARS → Option Ptr)
    (bar : Fin PCI_STD_NUM_BARS) (bars : List (Fin PCI_STD_NUM_BARS)) :
    mappings dev bases (bar :: bars) = mappings dev bases [bar] ++ mappings dev bases bars := by
  cases h : bases bar <;> simp [mappings, h]

private theorem afterBars_cons (card : PciResources) (o : Outcomes) (bar : Fin PCI_STD_NUM_BARS)
    (bars : List (Fin PCI_STD_NUM_BARS)) (c : Context) :
    afterBars card o bars (afterBars card o [bar] c) = afterBars card o (bar :: bars) c := by
  simp only [afterBars, Context.mk.injEq, true_and, and_true]
  refine ⟨?_, ?_⟩
  · by_cases hio : (card.bars bar).isIo <;> simp [hio]
  · funext b
    by_cases hb : b = bar
    · subst b
      by_cases himpl : (card.bars bar).implemented <;> simp [himpl]
    · simp [hb]

private theorem afterBars_singleton (card : PciResources) (o : Outcomes)
    (bar : Fin PCI_STD_NUM_BARS)
    (c : Context) :
    afterBars card o [bar] c =
      let c := bif (card.bars bar).implemented then c.set (.barBase bar (o.pciIomap bar)) else c
      bif (card.bars bar).isIo then c.set (.defaultBar 1) else c := by
  have hbases : (fun b => if b ∈ [bar] ∧ (card.bars b).implemented then o.pciIomap b
        else c.barBases b) =
      bif (card.bars bar).implemented then
        Function.update c.barBases bar (o.pciIomap bar) else c.barBases := by
    funext b
    by_cases hb : b = bar
    · subst b
      cases (card.bars bar).implemented <;> simp
    · cases (card.bars bar).implemented <;> simp [hb]
  cases himpl : (card.bars bar).implemented <;> cases hio : (card.bars bar).isIo <;>
    simp_all [afterBars, Context.set]

@[simp] theorem building_mapBar (dev : PciDev) (base : Option Ptr) :
    (building context c gathered w).mapBar dev base =
      building context c ((base.map (Resource.mapping dev)).toList + gathered) w := by
  cases base <;> simp [World.mapBar]

variable (pci : PciDev → PciResources) (o : Outcomes) (dev : PciDev)

private theorem exec_probeBar (bar : Fin PCI_STD_NUM_BARS) :
    (probeBar dev context bar).exec (handler pci o) (building context c gathered w) =
      ((), building context (afterBars (pci dev) o [bar] c)
        (mappings dev (mappedBase (pci dev) o) [bar] + gathered) w) := by
  have hmaps : mappings dev (mappedBase (pci dev) o) [bar] =
      bif ((pci dev).bars bar).implemented then
        ((o.pciIomap bar).map (Resource.mapping dev)).toList else [] := by
    cases himpl : ((pci dev).bars bar).implemented
    · simp [mappings, mappedBase, himpl]
    · cases hbase : o.pciIomap bar <;> simp [mappings, mappedBase, himpl, hbase]
  have himpl : (((pci dev).bars bar).flags &&& ( IORESOURCE_IO ||| IORESOURCE_MEM) != 0) =
      ((pci dev).bars bar).implemented := rfl
  have hio : (((pci dev).bars bar).flags &&& IORESOURCE_IO != 0) =
      ((pci dev).bars bar).isIo := rfl
  rw [afterBars_singleton, hmaps]
  simp only [probeBar, Prog.exec_bind, exec_pciResourceFlags, Prog.exec_guarded, exec_pciIomap,
    exec_store, himpl, hio]
  cases ((pci dev).bars bar).implemented <;> cases ((pci dev).bars bar).isIo <;> simp

theorem exec_probeBars (bars : List (Fin PCI_STD_NUM_BARS)) :
    (probeBars dev context bars).exec (handler pci o) (building context c gathered w) =
      ((), building context (afterBars (pci dev) o bars c)
        (mappings dev (mappedBase (pci dev) o) bars + gathered) w) := by
  induction bars generalizing c gathered with
  | nil => simp [probeBars, afterBars, mappings]
  | cons bar bars ih =>
      simp only [probeBars, Prog.exec_bind, exec_probeBar, ih, afterBars_cons]
      rw [mappings_cons dev _ bar bars, ← Multiset.coe_add, ← add_assoc,
        add_comm (mappings dev _ bars : Multiset Resource)]

/-! ## The rest of probe -/

def heldIf (ok : Bool) (r : Resource) : Multiset Resource :=
  bif ok then {r} else 0

@[simp] theorem building_acquireIf (ok : Prop) [Decidable ok] (r : Resource) :
    (building context c gathered w).acquireIf ok r =
      building context c (heldIf ok r + gathered) w := by
  by_cases hok : ok <;> simp [World.acquireIf, heldIf, hok]

/-- `w` after an allocation, the ledger apart. -/
def allocated (w : World) : World := { w with nextPtr := w.nextPtr + 1 }

@[simp] theorem building_alloc (r : Ptr → Resource) :
    (building context c gathered w).alloc r =
      building context c (r w.nextPtr ::ₘ gathered) (allocated w) := by
  simp [building, World.alloc, World.acquire, Ledger.acquire, allocated]

def nextNumber (w : World) : DevT := MKDEV w.charMajor w.charNextMinor

/-- The minor moves on only when the node was created. -/
def advanceMinor (o : Outcomes) (w : World) : World :=
  bif o.deviceCreate.isOk then w.setCharNextMinor (w.charNextMinor + 1) else w

def afterCharDevice (o : Outcomes) (w : World) (c : Context) : Context :=
  { c with dev := nextNumber w, cdevInitialized := true, device := errPtr o.deviceCreate }

theorem exec_probeCharDevice (d : DeviceDescriptor) (status : Int) :
    (probeCharDevice context d status).exec (handler pci o) (building context c gathered w) =
      (.returned status, building context (afterCharDevice o w c)
        (heldIf o.deviceCreate.isOk (.deviceNode (nextNumber w)) +
          (heldIf (o.cdevAdd = 0) (.cdev context (nextNumber w)) + gathered))
        (advanceMinor o w)) := by
  cases hc : o.deviceCreate.isOk <;>
    simp [probeCharDevice, afterCharDevice, advanceMinor, nextNumber, hc, Context.set]

def allocatedIf (ok : Bool) (w : World) : World := bif ok then allocated w else w

def dmaContext (d : DeviceDescriptor) (w : World) : Option Ptr :=
  if d.hasDma then some w.nextPtr else none

private theorem exec_probeDma {d : DeviceDescriptor} (hdma : DmaAllocated o d)
    (hisr : c.isrContext = none) (status : Int) :
    (probeDma context d status).exec (handler pci o) (building context c gathered w) =
      (.returned status, building context
        (afterCharDevice o w { c with isrContext := dmaContext d w })
        (heldIf o.deviceCreate.isOk (.deviceNode (nextNumber w)) +
          (heldIf (o.cdevAdd = 0) (.cdev context (nextNumber w)) +
            (heldIf d.hasDma (.dmaContext w.nextPtr) + gathered)))
        (advanceMinor o (allocatedIf d.hasDma w))) := by
  by_cases hd : d.hasDma
  · have hk : o.kmalloc := hdma hd
    have hnext : (building context c gathered w).nextPtr = w.nextPtr := rfl
    have hnumber : nextNumber (allocated w) = nextNumber w := rfl
    simp [probeDma, hd, hk, exec_probeCharDevice, heldIf, allocatedIf, dmaContext, Context.set,
      hnext, hnumber, afterCharDevice]
  · have hsame : { c with isrContext := none } = c := by rw [← hisr]
    simp [probeDma, hd, exec_probeCharDevice, heldIf, allocatedIf, dmaContext, hsame]

def boundContext (card : PciResources) (o : Outcomes) (dev : PciDev) (d : DeviceDescriptor)
    (w : World) : Context where
  descriptor := some d
  isrContext := dmaContext d (allocated w)
  pciDev := some dev
  cdevInitialized := true
  device := errPtr o.deviceCreate
  dev := nextNumber w
  defaultBar :=
    if d.pid ∈ defaultBarOverrides then 2 else if ∃ bar, (card.bars bar).isIo then 1 else 0
  barBases := mappedBase card o
  irqLockInitialized := true
  waitQueueInitialized := true
  flags := .zeroed

/-- What probe has acquired when it begins to fill the context. -/
def acquiredFirst (dev : PciDev) (context : Ptr) : Multiset Resource :=
  .context context ::ₘ .regions dev ::ₘ .enabled dev ::ₘ 0

def acquired (card : PciResources) (o : Outcomes) (dev : PciDev) (d : DeviceDescriptor)
    (w : World) : Multiset Resource :=
  heldIf o.deviceCreate.isOk (.deviceNode (nextNumber w)) +
    (heldIf (o.cdevAdd = 0) (.cdev w.nextPtr (nextNumber w)) +
      (heldIf d.hasDma (.dmaContext (allocated w).nextPtr) +
        (.irq card.irq w.nextPtr ::ₘ
          ((mappings dev (mappedBase card o) (List.finRange PCI_STD_NUM_BARS) :
              Multiset Resource) +
            acquiredFirst dev w.nextPtr))))

def boundWorld (card : PciResources) (o : Outcomes) (dev : PciDev) (d : DeviceDescriptor)
    (w : World) : World :=
  building w.nextPtr (boundContext card o dev d w) (acquired card o dev d w)
    (advanceMinor o (allocatedIf d.hasDma ((allocated w).setDrvdata dev (some w.nextPtr))))

private theorem exec_probeIrq {d : DeviceDescriptor} (hirq : o.requestIrq d.isr = 0)
    (hdma : DmaAllocated o d) (hisr : c.isrContext = none) :
    (probeIrq dev context d).exec (handler pci o) (building context c gathered w) =
      (.returned 0, building context
        (afterCharDevice o w { c with
          irqLockInitialized := true
          waitQueueInitialized := true
          isrContext := dmaContext d w })
        (heldIf o.deviceCreate.isOk (.deviceNode (nextNumber w)) +
          (heldIf (o.cdevAdd = 0) (.cdev context (nextNumber w)) +
            (heldIf d.hasDma (.dmaContext w.nextPtr) +
              (.irq (pci dev).irq context ::ₘ gathered))))
        (advanceMinor o (allocatedIf d.hasDma w))) := by
  have hset : ((c.set .irqLock).set .waitQueue).isrContext = none := hisr
  simp only [probeIrq, Prog.exec_bind, exec_pciDevIrq, exec_requestIrq, exec_store,
    building_acquireIf, building_store, hirq, heldIf, decide_true, cond_true, ne_eq, not_true,
    if_false, exec_probeDma pci o hdma hset, Multiset.singleton_add]
  rfl

def filledContext (card : PciResources) (o : Outcomes) (dev : PciDev) (d : DeviceDescriptor) :
    Context :=
  let c := afterBars card o (List.finRange PCI_STD_NUM_BARS)
    ((Context.zeroed.set (.pciDev dev)).set (.descriptor d))
  bif defaultBarOverrides.contains d.pid then c.set (.defaultBar 2) else c

private theorem isrContext_filled (card : PciResources) (o : Outcomes) (dev : PciDev)
    (d : DeviceDescriptor) : (filledContext card o dev d).isrContext = none := by
  unfold filledContext
  cases defaultBarOverrides.contains d.pid <;> rfl

private theorem afterCharDevice_filled (card : PciResources) (o : Outcomes) (dev : PciDev)
    (d : DeviceDescriptor) (w : World) :
    afterCharDevice o (allocated w) { filledContext card o dev d with
        irqLockInitialized := true
        waitQueueInitialized := true
        isrContext := dmaContext d (allocated w) } =
      boundContext card o dev d w := by
  have hbases : (fun bar => if bar ∈ List.finRange PCI_STD_NUM_BARS ∧ (card.bars bar).implemented
        then o.pciIomap bar else Context.zeroed.barBases bar) = mappedBase card o := by
    funext bar
    simp [mappedBase, Context.zeroed]
  by_cases hover : d.pid ∈ defaultBarOverrides
  · have hc : defaultBarOverrides.contains d.pid = true := by simpa using hover
    simp only [filledContext, hc, cond_true, afterBars, Context.set, hbases]
    simp [boundContext, afterCharDevice, hover]
    exact ⟨rfl, rfl⟩
  · have hc : defaultBarOverrides.contains d.pid = false := by simpa using hover
    simp only [filledContext, hc, cond_false, afterBars, Context.set, hbases]
    simp [boundContext, afterCharDevice, hover]
    exact ⟨rfl, rfl, rfl⟩

theorem exec_guarded_store (c : Context) (gathered : Multiset Resource) (w : World) (ok : Bool)
    (field : Store) :
    (Prog.guarded ok (store context field)).exec (handler pci o) (building context c gathered w) =
      ((), building context (bif ok then c.set field else c) gathered w) := by
  cases ok <;> simp

theorem kzalloc_eq_building (dev : PciDev) (w : World) :
    ((w.acquire (.enabled dev)).acquire (.regions dev)).kzalloc =
      building w.nextPtr .zeroed (acquiredFirst dev w.nextPtr) (allocated w) := by
  simp [acquiredFirst, World.kzalloc, World.alloc, World.acquire, Ledger.acquire, building,
    allocated]

theorem exec_of_admits (hadmits : Outcomes.Admits o) (table : List DeviceDescriptor)
    (device : Nat) (w : World) :
    (accesioPciDriverProbe table dev device).exec (handler pci o) w =
      (probeContext table dev device w.nextPtr).exec (handler pci o)
        (building w.nextPtr .zeroed (acquiredFirst dev w.nextPtr) (allocated w)) := by
  obtain ⟨he, hr, hk⟩ := hadmits
  rw [← kzalloc_eq_building]
  simp only [accesioPciDriverProbe, probeRegions, Prog.exec_bind, exec_pciEnableDevice,
    exec_pciRequestRegions, exec_kzalloc, he, hr, hk, ne_eq, not_true, if_false, if_true,
    World.acquireIf]
  rfl

theorem exec_accesioPciDriverProbe {table : List DeviceDescriptor} {device : Nat}
    {d : DeviceDescriptor} (hd : lookupDescriptor table device = some d)
    (hadmits : Outcomes.Admits o) (hirq : o.requestIrq d.isr = 0) (hdma : DmaAllocated o d) :
    (accesioPciDriverProbe table dev device).exec (handler pci o) w =
      (.returned 0, boundWorld (pci dev) o dev d w) := by
  rw [exec_of_admits pci o dev hadmits]
  simp only [probeContext, hd, Prog.exec_bind, exec_pciSetDrvdata, exec_store, exec_probeBars,
    exec_guarded_store, building_store, building_setDrvdata]
  refine (exec_probeIrq pci o dev hirq hdma (isrContext_filled (pci dev) o dev d)).trans ?_
  rw [boundWorld, ← afterCharDevice_filled]
  rfl

/-! ## Remove -/

/-- What remove releases of a card with the context `c`, in order. -/
def releasedByRemove (card : PciResources) (dev : PciDev) (context : Ptr) (c : Context) :
    List Resource :=
  .irq card.irq context :: mappings dev c.barBases (List.finRange PCI_STD_NUM_BARS) ++
    [.regions dev, .deviceNode c.dev, .context context]

def releasing (rs : List Resource) (w : World) : World :=
  { w with ledger := w.ledger.releaseAll rs }

@[simp] theorem releasing_contexts (rs : List Resource) (w : World) :
    (releasing rs w).contexts = w.contexts := rfl

theorem release_releasing (rs : List Resource) (r : Resource) (w : World) :
    (releasing rs w).release r = releasing (rs ++ [r]) w := by
  simp [releasing, World.release, Ledger.releaseAll]

private theorem exec_removeBars (hc : w.contexts context = some c)
    (bars : List (Fin PCI_STD_NUM_BARS)) (rs : List Resource) :
    (removeBars dev context bars).exec (handler pci o) (releasing rs w) =
      ((), releasing (rs ++ mappings dev c.barBases bars) w) := by
  induction bars generalizing rs with
  | nil => simp [removeBars, mappings]
  | cons bar bars ih =>
      have hload : (releasing rs w).load context = c := by simp [World.load, hc]
      rw [mappings_cons]
      cases hbase : c.barBases bar with
      | none =>
          simp [removeBars, removeBar, hload, hbase, ih, mappings]
      | some base =>
          simp [removeBars, removeBar, hload, hbase, ih, mappings, release_releasing]

def unboundWorld (card : PciResources) (dev : PciDev) (context : Ptr) (c : Context) (w : World) :
    World :=
  { releasing (releasedByRemove card dev context c) w with
    drvdata := Function.update w.drvdata dev none
    contexts := Function.update w.contexts context none }

private theorem kfree_releasing (rs : List Resource) (w : World) :
    ((releasing rs w).kfree context).setDrvdata dev none =
      { releasing (rs ++ [.context context]) w with
        drvdata := Function.update w.drvdata dev none
        contexts := Function.update w.contexts context none } := by
  simp only [World.kfree, release_releasing]
  rfl

theorem exec_accesioPciDriverRemove (hdrv : w.drvdata dev = some context)
    (hc : w.contexts context = some c) (hpci : c.pciDev = some dev) :
    (accesioPciDriverRemove (some dev)).exec (handler pci o) w =
      (.returned (), unboundWorld (pci dev) dev context c w) := by
  have hload (rs : List Resource) : (releasing rs w).load context = c := by simp [World.load, hc]
  have hdrv' : (releasing [] w).drvdata dev = some context := hdrv
  change (accesioPciDriverRemove (some dev)).exec (handler pci o) (releasing [] w) = _
  simp only [accesioPciDriverRemove, removeContext, Prog.exec_bind, exec_pciGetDrvdata, hdrv',
    exec_load, hload, hpci, exec_pciDevIrq, exec_freeIrq, release_releasing, List.nil_append,
    exec_removeBars pci o dev hc, exec_pciReleaseRegions, exec_loadCharClass, exec_deviceDestroy,
    exec_kfree, exec_pciSetDrvdata, kfree_releasing]
  simp [unboundWorld, releasedByRemove]

end Aiowdm.Proofs.ProbeEffect
