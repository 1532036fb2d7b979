import Aiowdm.Driver.ModuleRuns
import Aiowdm.Proofs.ProbeEffect
import Mathlib.Algebra.Order.BigOperators.Group.List
import Mathlib.Data.Multiset.OrderedMonoid
import Mathlib.Tactic.Abel

/-!
# What remove and unload give back

The ledger of a run in which every call succeeds is the ledger it began with,
what the loaded module and the bound cards hold, and for each probe the three
resources that no function of the driver ever releases.
-/

namespace Aiowdm.Proofs.Teardown

open Aiowdm.Lib Aiowdm.Driver.DeviceContext Aiowdm.Driver.DeviceTable Aiowdm.Driver.Kernel
open Aiowdm.Driver.Probe Aiowdm.Driver.ModuleRuns Aiowdm.Proofs.ProbeStatus
open Aiowdm.Proofs.ProbeEffect

/-! ## What each part of a run holds -/

def releasedByExit (w : World) : List Resource :=
  [.driver, .chrdevRegion (MKDEV w.charMajor 0) MAX_CHAR_DEVICES, .charClass w.charClass]

def heldByModule (s : State) : Multiset Resource :=
  if s.loaded then releasedByExit s.world else 0

def heldByCard (m : Machine) (w : World) (dev : PciDev) : Multiset Resource :=
  match bindingOf w dev with
  | some b => releasedByRemove (m.pci dev) dev b.context b.contents
  | none => 0

/-- What probe acquires and remove does not release. -/
def leftBehind (dev : PciDev) (b : Binding) : Multiset Resource :=
  .enabled dev ::ₘ .cdev b.context b.contents.dev ::ₘ
    (b.contents.isrContext.map Resource.dmaContext).toList

def leftBy : Event → Multiset Resource
  | .probed dev (.returned 0) (some b) => leftBehind dev b
  | _ => 0

def leftovers (log : List Event) : Multiset Resource :=
  (log.map leftBy).sum

@[simp] theorem leftovers_cons (e : Event) (log : List Event) :
    leftovers (e :: log) = leftBy e + leftovers log := by
  simp [leftovers]

/-! ## One probe -/

@[simp] theorem drvdata_boundWorld (card : PciResources) (o : Outcomes) (dev : PciDev)
    (d : DeviceDescriptor) (w : World) :
    (boundWorld card o dev d w).drvdata = Function.update w.drvdata dev (some w.nextPtr) := by
  unfold boundWorld advanceMinor allocatedIf
  cases o.deviceCreate.isOk <;> cases d.hasDma <;> rfl

@[simp] theorem contexts_boundWorld (card : PciResources) (o : Outcomes) (dev : PciDev)
    (d : DeviceDescriptor) (w : World) :
    (boundWorld card o dev d w).contexts =
      Function.update w.contexts w.nextPtr (some (boundContext card o dev d w)) := by
  unfold boundWorld advanceMinor allocatedIf
  cases o.deviceCreate.isOk <;> cases d.hasDma <;> rfl

theorem ledger_boundWorld (card : PciResources) (o : Outcomes) (dev : PciDev)
    (d : DeviceDescriptor) (w : World) :
    (boundWorld card o dev d w).ledger =
      ⟨acquired card o dev d w + w.ledger.held, w.ledger.overReleased⟩ := by
  unfold boundWorld advanceMinor allocatedIf
  cases o.deviceCreate.isOk <;> cases d.hasDma <;> rfl

theorem lt_nextPtr_boundWorld (card : PciResources) (o : Outcomes) (dev : PciDev)
    (d : DeviceDescriptor) (w : World) : w.nextPtr < (boundWorld card o dev d w).nextPtr := by
  have hone : w.nextPtr < w.nextPtr + 1 := Nat.lt_succ_self _
  unfold boundWorld advanceMinor allocatedIf
  cases d.hasDma with
  | false => cases o.deviceCreate.isOk <;> exact hone
  | true => cases o.deviceCreate.isOk <;> exact hone.trans (Nat.lt_succ_self _)

private theorem releasedByExit_boundWorld (card : PciResources) (o : Outcomes) (dev : PciDev)
    (d : DeviceDescriptor) (w : World) :
    releasedByExit (boundWorld card o dev d w) = releasedByExit w := by
  unfold boundWorld advanceMinor allocatedIf
  cases o.deviceCreate.isOk <;> cases d.hasDma <;> rfl

theorem bindingOf_boundWorld (card : PciResources) (o : Outcomes) (dev : PciDev)
    (d : DeviceDescriptor) (w : World) :
    bindingOf (boundWorld card o dev d w) dev =
      some ⟨w.nextPtr, boundContext card o dev d w⟩ := by
  simp [bindingOf]

private theorem acquired_eq {card : PciResources} {o : Outcomes} (dev : PciDev)
    (d : DeviceDescriptor)
    (w : World) (hadd : o.cdevAdd = 0) (hcreate : o.deviceCreate.isOk) :
    acquired card o dev d w =
      releasedByRemove card dev w.nextPtr (boundContext card o dev d w) +
        leftBehind dev ⟨w.nextPtr, boundContext card o dev d w⟩ := by
  have hdma : heldIf d.hasDma (.dmaContext (allocated w).nextPtr) =
      ((dmaContext d (allocated w)).map Resource.dmaContext).toList := by
    cases hd : d.hasDma <;> simp [heldIf, dmaContext, hd]
  unfold acquired
  rw [hdma]
  simp only [acquiredFirst, releasedByRemove, leftBehind, boundContext, heldIf, hadd, hcreate,
    decide_true, cond_true, ← Multiset.coe_add, ← Multiset.cons_coe, ← Multiset.singleton_add,
    Multiset.coe_nil, add_zero, List.cons_append]
  abel

/-! ## One load and one unload -/

theorem MAJOR_MKDEV (major : BitVec 12) :
    MAJOR (MKDEV (major.setWidth 32) 0#32) = major.setWidth 32 := by
  apply BitVec.eq_of_toNat_eq
  have hlt := major.isLt
  simp [MAJOR, MKDEV, Nat.shiftLeft_eq, Nat.shiftRight_eq_div_pow]
  omega

def acquiredByInit (o : Outcomes) : List Resource :=
  [.driver, .chrdevRegion (MKDEV (o.allocChrdevRegion.2.setWidth 32) 0) MAX_CHAR_DEVICES,
    .charClass (errPtr o.classCreate)]

def loadedWorld (o : Outcomes) (w : World) : World :=
  { w with
    ledger := ⟨acquiredByInit o + w.ledger.held, w.ledger.overReleased⟩
    charMajor := o.allocChrdevRegion.2.setWidth 32
    charClass := errPtr o.classCreate }

private theorem exec_accesioPciInit {m : Machine} {o : Outcomes} (hok : Succeeds m (.load o))
    (hm : tablesMatch m.table m.ids = some true) (w : World) :
    (accesioPciInit m.table m.ids).exec (handler m.pci o) w = (.returned 0, loadedWorld o w) := by
  obtain ⟨ha, hc, hr⟩ := hok
  have hswap : (acquiredByInit o + w.ledger.held : Multiset Resource) =
      .driver ::ₘ .charClass (errPtr o.classCreate) ::ₘ
        .chrdevRegion (MKDEV (o.allocChrdevRegion.2.setWidth 32) 0) MAX_CHAR_DEVICES ::ₘ
          w.ledger.held := by
    rw [Multiset.cons_swap (Resource.charClass _)]
    simp [acquiredByInit, ← Multiset.cons_coe]
  unfold loadedWorld
  rw [hswap]
  simp [accesioPciInit, initClass, hm, ha, hc, hr, World.acquireIf, World.acquire,
    World.setCharMajor, World.setCharClass, Ledger.acquire, MAJOR_MKDEV]

private theorem exec_accesioPciExit (pci : PciDev → PciResources) (o : Outcomes) (w : World) :
    (accesioPciExit.exec (handler pci o) w).2 =
      { releasing (releasedByExit w) w with charClass := .null } := by
  simp only [accesioPciExit, Prog.exec_bind, exec_pciUnregisterDriver, exec_loadCharMajor,
    exec_unregisterChrdevRegion, exec_loadCharClass, exec_classDestroy, exec_storeCharClass]
  rfl

/-! ## The invariant -/

/-- A bound card's `drvdata` leads to a live context that names the card. -/
def BoundTo (w : World) (dev : PciDev) (b : Binding) : Prop :=
  w.drvdata dev = some b.context ∧ w.contexts b.context = some b.contents ∧
    b.contents.pciDev = some dev ∧ b.context < w.nextPtr

structure Inv (m : Machine) (w₀ : World) (log : List Event) (s : State) : Prop where
  nodup : s.bound.Nodup
  unbound : s.loaded = false → s.bound = []
  boundTo : ∀ dev ∈ s.bound, ∃ b, BoundTo s.world dev b
  held : s.world.ledger.held = heldByModule s +
    ((s.bound.map (heldByCard m s.world)).sum + (leftovers log + w₀.ledger.held))
  overReleased : s.world.ledger.overReleased = w₀.ledger.overReleased

theorem BoundTo.bindingOf_eq {w : World} {dev : PciDev} {b : Binding} (h : BoundTo w dev b) :
    bindingOf w dev = some b := by
  simp [bindingOf, h.1, h.2.1]

theorem heldByCard_congr (m : Machine) {w w' : World} {dev : PciDev}
    (h : bindingOf w' dev = bindingOf w dev) : heldByCard m w' dev = heldByCard m w dev := by
  unfold heldByCard
  rw [h]

theorem BoundTo.boundWorld {w : World} {dev dev' : PciDev} {b : Binding} (h : BoundTo w dev' b)
    (hne : dev' ≠ dev) (card : PciResources) (o : Outcomes) (d : DeviceDescriptor) :
    BoundTo (boundWorld card o dev d w) dev' b := by
  obtain ⟨hdrv, hc, hpci, hlt⟩ := h
  refine ⟨?_, ?_, hpci, hlt.trans (lt_nextPtr_boundWorld card o dev d w)⟩
  · simp [hne, hdrv]
  · simp [hlt.ne, hc]

theorem BoundTo.unboundWorld {w : World} {dev dev' : PciDev} {b b' : Binding}
    (h : BoundTo w dev' b') (hb : BoundTo w dev b) (hne : dev' ≠ dev) (card : PciResources) :
    BoundTo (unboundWorld card dev b.context b.contents w) dev' b' := by
  obtain ⟨hdrv, hc, hpci, hlt⟩ := h
  have hptr : b'.context ≠ b.context := by
    intro heq
    have hsame : b'.contents = b.contents := by
      have := hb.2.1
      rw [← heq, hc] at this
      exact Option.some.inj this
    rw [hsame, hb.2.2.1] at hpci
    exact hne (Option.some.inj hpci).symm
  refine ⟨?_, ?_, hpci, hlt⟩
  · simp [ProbeEffect.unboundWorld, hne, hdrv]
  · simp [ProbeEffect.unboundWorld, hptr, hc]

variable {m : Machine} {w₀ : World} {log : List Event} {s s' : State} {e : Event}

theorem inv_init : Inv m w₀ [] ⟨w₀, false, []⟩ where
  nodup := List.nodup_nil
  unbound := fun _ => rfl
  boundTo := by simp
  held := by simp [heldByModule, leftovers]
  overReleased := rfl

private theorem inv_load (hinv : Inv m w₀ log s) {o : Outcomes} (hok : Succeeds m (.load o))
    (hs : step m s (.load o) = some (e, s')) : Inv m w₀ (e :: log) s' := by
  simp only [step] at hs
  cases hl : s.loaded with
  | true => simp [hl] at hs
  | false =>
      have hnil := hinv.unbound hl
      have hheld : s.world.ledger.held = leftovers log + w₀.ledger.held := by
        simpa [heldByModule, hl, hnil] using hinv.held
      by_cases hm : tablesMatch m.table m.ids = some true
      · simp only [hl, exec_accesioPciInit hok hm, Bool.false_eq_true, if_false, decide_true,
          Option.some.injEq, Prod.mk.injEq] at hs
        obtain ⟨rfl, rfl⟩ := hs
        refine ⟨hinv.nodup, fun hfalse => (by cases hfalse), by simp [hnil], ?_,
          hinv.overReleased⟩
        simp only [hnil, List.map_nil, List.sum_nil, zero_add, leftovers_cons, leftBy,
          loadedWorld, hheld]
        rfl
      · have hexec : ∃ ending, ending ≠ .returned 0 ∧
            (accesioPciInit m.table m.ids).exec (handler m.pci o) s.world = (ending, s.world) := by
          cases ht : tablesMatch m.table m.ids with
          | none => exact ⟨.undefined, by decide, by simp [accesioPciInit, ht]⟩
          | some ok =>
              cases ok with
              | false => exact ⟨.returned (-1), by decide, by simp [accesioPciInit, ht]⟩
              | true => exact absurd ht hm
        obtain ⟨ending, hne, hexec⟩ := hexec
        simp only [hl, hexec, Bool.false_eq_true, if_false, hne, decide_false,
          Option.some.injEq, Prod.mk.injEq] at hs
        obtain ⟨rfl, rfl⟩ := hs
        refine ⟨hinv.nodup, fun _ => hnil, hinv.boundTo, ?_, hinv.overReleased⟩
        simp [heldByModule, hnil, leftBy, hheld]

theorem exec_probe_of_succeeds {dev : PciDev} {device : Nat} {o : Outcomes}
    (hok : Succeeds m (.probe dev device o)) (w : World) :
    ∃ d, (accesioPciDriverProbe m.table dev device).exec (handler m.pci o) w =
        (.returned 0, boundWorld (m.pci dev) o dev d w) ∧
      acquired (m.pci dev) o dev d w =
        releasedByRemove (m.pci dev) dev w.nextPtr (boundContext (m.pci dev) o dev d w) +
          leftBehind dev ⟨w.nextPtr, boundContext (m.pci dev) o dev d w⟩ := by
  obtain ⟨he, hr, hk, -, ⟨d, hfound, hirq, hdma⟩, hadd, hcreate⟩ := hok
  exact ⟨d, exec_accesioPciDriverProbe m.pci o dev hfound ⟨he, hr, hk⟩ hirq hdma,
    acquired_eq dev d w hadd hcreate⟩

private theorem inv_probe (hinv : Inv m w₀ log s) {dev : PciDev} {device : Nat} {o : Outcomes}
    (hok : Succeeds m (.probe dev device o))
    (hs : step m s (.probe dev device o) = some (e, s')) : Inv m w₀ (e :: log) s' := by
  simp only [step] at hs
  split at hs
  · next hcan =>
      obtain ⟨hloaded, hfresh⟩ := hcan
      obtain ⟨d, hexec, hacq⟩ := exec_probe_of_succeeds hok s.world
      simp only [hexec, if_true, Option.some.injEq, Prod.mk.injEq] at hs
      obtain ⟨rfl, rfl⟩ := hs
      have hbind := bindingOf_boundWorld (m.pci dev) o dev d s.world
      have hmem (dev' : PciDev) (h' : dev' ∈ s.bound) : dev' ≠ dev := by
        rintro rfl
        exact hfresh h'
      have hothers : s.bound.map (heldByCard m (boundWorld (m.pci dev) o dev d s.world)) =
          s.bound.map (heldByCard m s.world) := by
        refine List.map_congr_left fun dev' h' => heldByCard_congr m ?_
        obtain ⟨b, hb⟩ := hinv.boundTo dev' h'
        rw [(hb.boundWorld (hmem dev' h') (m.pci dev) o d).bindingOf_eq, hb.bindingOf_eq]
      refine ⟨List.nodup_cons.mpr ⟨hfresh, hinv.nodup⟩, ?_, ?_, ?_, ?_⟩
      · intro hfalse
        exact absurd (hloaded.symm.trans hfalse) (by decide)
      · intro dev' h'
        rcases List.mem_cons.mp h' with rfl | h'
        · exact ⟨⟨s.world.nextPtr, boundContext (m.pci dev') o dev' d s.world⟩, by simp, by simp,
            rfl, lt_nextPtr_boundWorld (m.pci dev') o dev' d s.world⟩
        · obtain ⟨b, hb⟩ := hinv.boundTo dev' h'
          exact ⟨b, hb.boundWorld (hmem dev' h') (m.pci dev) o d⟩
      · have hheld := hinv.held
        simp only [heldByModule, hloaded, if_true] at hheld ⊢
        rw [ledger_boundWorld, releasedByExit_boundWorld, hheld, hacq]
        simp only [List.map_cons, List.sum_cons, hothers, leftovers_cons, hbind, leftBy, heldByCard]
        abel
      · rw [ledger_boundWorld]
        exact hinv.overReleased
  · cases hs

private theorem inv_remove (hinv : Inv m w₀ log s) {dev : PciDev} {o : Outcomes}
    (hs : step m s (.remove dev o) = some (e, s')) : Inv m w₀ (e :: log) s' := by
  simp only [step] at hs
  split at hs
  · next hbound =>
      obtain ⟨b, hb⟩ := hinv.boundTo dev hbound
      simp only [exec_accesioPciDriverRemove m.pci o dev hb.1 hb.2.1 hb.2.2.1,
        Option.some.injEq, Prod.mk.injEq] at hs
      obtain ⟨rfl, rfl⟩ := hs
      let w' := unboundWorld (m.pci dev) dev b.context b.contents s.world
      have hframe (dev' : PciDev) (h' : dev' ∈ s.bound.erase dev) :
          ∃ b', BoundTo s.world dev' b' ∧ BoundTo w' dev' b' := by
        obtain ⟨hne, h'⟩ := hinv.nodup.mem_erase_iff.mp h'
        obtain ⟨b', hb'⟩ := hinv.boundTo dev' h'
        exact ⟨b', hb', hb'.unboundWorld hb hne (m.pci dev)⟩
      have hothers : (s.bound.erase dev).map (heldByCard m w') =
          (s.bound.erase dev).map (heldByCard m s.world) := by
        refine List.map_congr_left fun dev' h' => heldByCard_congr m ?_
        obtain ⟨b', hb', hb''⟩ := hframe dev' h'
        rw [hb'.bindingOf_eq, hb''.bindingOf_eq]
      have hledger : w'.ledger = { s.world.ledger with
          held := heldByModule s + (((s.bound.erase dev).map (heldByCard m s.world)).sum +
            (leftovers log + w₀.ledger.held)) } := by
        refine Ledger.releaseAll_of_held_eq ?_
        rw [hinv.held, ← List.sum_map_erase (heldByCard m s.world) hbound]
        simp only [heldByCard, hb.bindingOf_eq]
        abel
      refine ⟨hinv.nodup.erase dev, ?_, ?_, ?_, ?_⟩
      · intro hfalse
        simp [hinv.unbound hfalse]
      · intro dev' h'
        obtain ⟨b', -, hb'⟩ := hframe dev' h'
        exact ⟨b', hb'⟩
      · rw [hothers, hledger]
        simp only [leftovers_cons, leftBy, zero_add]
        rfl
      · rw [hledger]
        exact hinv.overReleased
  · cases hs

private theorem inv_unload (hinv : Inv m w₀ log s) {o : Outcomes}
    (hs : step m s (.unload o) = some (e, s')) : Inv m w₀ (e :: log) s' := by
  simp only [step] at hs
  split at hs
  · next hcan =>
      obtain ⟨hloaded, hnil⟩ := hcan
      simp only [exec_accesioPciExit, Option.some.injEq, Prod.mk.injEq] at hs
      obtain ⟨rfl, rfl⟩ := hs
      have hledger : s.world.ledger.releaseAll (releasedByExit s.world) = { s.world.ledger with
          held := leftovers log + w₀.ledger.held } := by
        refine Ledger.releaseAll_of_held_eq ?_
        simpa [heldByModule, hloaded, hnil] using hinv.held
      refine ⟨hinv.nodup, fun _ => hnil, by simp [hnil], ?_, ?_⟩
      · simp [heldByModule, hnil, leftBy, releasing, hledger]
      · simp only [releasing, hledger]
        exact hinv.overReleased
  · cases hs

theorem inv_run (h : RunWhere (system m w₀) (fun _ _ a => Succeeds m a) log s) :
    Inv m w₀ log s := by
  induction h with
  | init => exact inv_init
  | @step log s s' a e _ hok hs ih =>
      cases a with
      | load o => exact inv_load ih hok hs
      | probe dev device o => exact inv_probe ih hok hs
      | remove dev o => exact inv_remove ih hs
      | unload o => exact inv_unload ih hs

/-! ## The ledger at the end -/

def isProbe : Event → Bool
  | .probed _ _ _ => true
  | _ => false

private theorem leftBy_ne_zero (h : RunWhere (system m w₀) (fun _ _ a => Succeeds m a) log s) :
    ∀ e ∈ log, isProbe e → leftBy e ≠ 0 := by
  induction h with
  | init => simp
  | @step log s s' a e _ hok hs ih =>
      intro e' he' hprobe
      rcases List.mem_cons.mp he' with rfl | he'
      · cases a with
        | probe dev device o =>
            simp only [system, step] at hs
            split at hs
            · obtain ⟨d, hexec, -⟩ := exec_probe_of_succeeds hok s.world
              simp only [hexec, Option.some.injEq, Prod.mk.injEq, bindingOf_boundWorld] at hs
              obtain ⟨rfl, -⟩ := hs
              simp [leftBy, leftBehind]
            · cases hs
        | load o =>
            simp only [system, step] at hs
            generalize (accesioPciInit m.table m.ids).exec (handler m.pci o) s.world = r at hs
            split at hs <;> cases hs
            cases hprobe
        | remove dev o =>
            simp only [system, step] at hs
            generalize (accesioPciDriverRemove (some dev)).exec (handler m.pci o) s.world = r at hs
            split at hs <;> cases hs
            cases hprobe
        | unload o =>
            simp only [system, step] at hs
            split at hs <;> cases hs
            cases hprobe
      · exact ih e' he' hprobe

theorem ledger_of_unloaded (h : RunWhere (system m w₀) (fun _ _ a => Succeeds m a) log s)
    (hend : s.loaded = false) :
    s.world.ledger = ⟨leftovers log + w₀.ledger.held, w₀.ledger.overReleased⟩ := by
  have hinv := inv_run h
  ext1
  · simpa [heldByModule, hend, hinv.unbound hend] using hinv.held
  · exact hinv.overReleased

theorem leftovers_eq_zero_iff (h : RunWhere (system m w₀) (fun _ _ a => Succeeds m a) log s) :
    leftovers log = 0 ↔ ∀ e ∈ log, isProbe e = false := by
  unfold leftovers
  rw [List.sum_eq_zero_iff (M := Multiset Resource)]
  constructor
  · intro hzero e he
    by_contra hprobe
    exact leftBy_ne_zero h e he (by simpa using hprobe) (hzero _ (List.mem_map_of_mem he))
  · intro hnone x hx
    obtain ⟨e, he, rfl⟩ := List.mem_map.mp hx
    cases e with
    | probed => cases hnone _ he
    | loaded | removed | unloaded => rfl

/-- A run that ends unloaded leaves for each probe the enabled device, the cdev
and the DMA context, and so restores the ledger exactly where no card was
probed; nothing is released twice. -/
theorem ledger_restored_iff (h : RunWhere (system m w₀) (fun _ _ a => Succeeds m a) log s)
    (hend : s.loaded = false) :
    (s.world.ledger = w₀.ledger ↔ ∀ e ∈ log, isProbe e = false) ∧
      s.world.ledger.held = leftovers log + w₀.ledger.held ∧
      s.world.ledger.overReleased = w₀.ledger.overReleased := by
  rw [← leftovers_eq_zero_iff h, ledger_of_unloaded h hend]
  refine ⟨⟨fun heq => ?_, fun hzero => by simp [hzero]⟩, rfl, rfl⟩
  have hheld := congrArg Ledger.held heq
  simpa using hheld

def oneCard : Machine := ⟨oneBar, accesioPciDeviceDescriptors, accesPciIdTable⟩

theorem succeeds_probe : Succeeds oneCard (.probe 1 0x0100 allSucceed) :=
  ⟨rfl, rfl, rfl, fun _ _ => rfl, ⟨_, rfl, rfl, fun _ => rfl⟩, rfl, rfl⟩

theorem exists_probe_run :
    ∃ log s, RunWhere (system oneCard .fresh) (fun _ _ a => Succeeds oneCard a) log s ∧
      (s.loaded, log.any isProbe) = (false, true) := by
  refine (system oneCard .fresh).exists_runWhere_map_of_exec
    (fun c : List Event × State => (c.2.loaded, c.1.any isProbe))
    [.load allSucceed, .probe 1 0x0100 allSucceed, .remove 1 allSucceed, .unload allSucceed] ?_ rfl
  intro a ha _ _
  simp only [List.mem_cons, List.not_mem_nil, or_false] at ha
  rcases ha with rfl | rfl | rfl | rfl
  · exact ⟨rfl, rfl, rfl⟩
  · exact succeeds_probe
  · trivial
  · trivial

theorem ledger_restored_iff_mpcieDio24s :
    ∃ log s, RunWhere (system oneCard .fresh) (fun _ _ a => Succeeds oneCard a) log s ∧
      (s.world.ledger = World.fresh.ledger ↔ ∀ e ∈ log, isProbe e = false) := by
  obtain ⟨log, s, hrun, hend⟩ := exists_probe_run
  exact ⟨log, s, hrun, (ledger_restored_iff hrun (congrArg Prod.fst hend)).1⟩

/-- After the run the device is still enabled and the cdev still registered. -/
theorem remove_does_not_undo_probe :
    ¬∀ (m : Machine) (w₀ : World) (log : List Event) (s : State),
      RunWhere (system m w₀) (fun _ _ a => Succeeds m a) log s → s.loaded = false →
        s.world.ledger = w₀.ledger := by
  intro hall
  obtain ⟨log, s, hrun, hend⟩ := exists_probe_run
  have hloaded : s.loaded = false := congrArg Prod.fst hend
  have hprobes : log.any isProbe = true := congrArg Prod.snd hend
  have hledger := hall _ _ log s hrun hloaded
  rw [ledger_of_unloaded hrun hloaded] at hledger
  have hzero : leftovers log = 0 := by simpa using congrArg Ledger.held hledger
  obtain ⟨e, he, hprobe⟩ := List.any_eq_true.mp hprobes
  rw [(leftovers_eq_zero_iff hrun).mp hzero e he] at hprobe
  cases hprobe

end Aiowdm.Proofs.Teardown
