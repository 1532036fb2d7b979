import Aiowdm.Proofs.Teardown

/-!
# Device numbers of bound cards

Probe makes a card's number from a counter that moves on only when
`device_create` succeeds, and nothing ever moves it back.  So numbers run out
with the probes of a whole history, and a card whose node could not be created
shares its number with the next one.
-/

namespace Aiowdm.Proofs.MinorNumbers

open Aiowdm.Lib Aiowdm.Driver.DeviceContext Aiowdm.Driver.DeviceTable Aiowdm.Driver.Kernel
open Aiowdm.Driver.Probe Aiowdm.Driver.ModuleRuns Aiowdm.Proofs.ProbeStatus
open Aiowdm.Proofs.ProbeEffect Aiowdm.Proofs.Teardown

/-! ## Device numbers -/

theorem toNat_MKDEV {major minor : BitVec 32} (hmajor : major.toNat < 2 ^ 12)
    (hminor : minor.toNat < 2 ^ 20) :
    (MKDEV major minor).toNat = major.toNat * 2 ^ 20 + minor.toNat := by
  have hshift : major.toNat * 2 ^ 20 % 2 ^ 32 = major.toNat * 2 ^ 20 := by
    apply Nat.mod_eq_of_lt
    omega
  have hor := Nat.shiftLeft_add_eq_or_of_lt hminor major.toNat
  rw [Nat.shiftLeft_eq] at hor
  simp only [MKDEV, BitVec.toNat_or, BitVec.toNat_shiftLeft, Nat.shiftLeft_eq]
  rw [hshift, hor]

theorem MINOR_MKDEV {major minor : BitVec 32} (hmajor : major.toNat < 2 ^ 12)
    (hminor : minor.toNat < 2 ^ 20) : MINOR (MKDEV major minor) = minor := by
  apply BitVec.eq_of_toNat_eq
  have hmask : (0xfffff : BitVec 32).toNat = 2 ^ 20 - 1 := by decide
  have hnumber := toNat_MKDEV hmajor hminor
  rw [MINOR, BitVec.toNat_and, hmask, Nat.and_two_pow_sub_one_eq_mod, hnumber]
  omega

private theorem MAJOR_MKDEV_minor {major minor : BitVec 32} (hmajor : major.toNat < 2 ^ 12)
    (hminor : minor.toNat < 2 ^ 20) : MAJOR (MKDEV major minor) = major := by
  apply BitVec.eq_of_toNat_eq
  have hnumber := toNat_MKDEV hmajor hminor
  rw [MAJOR, BitVec.toNat_ushiftRight, Nat.shiftRight_eq_div_pow, hnumber]
  omega

/-! ## A probe that does not bind -/

/-- What a step about `dev` leaves as it was: the counter, the other cards, the
contexts there were and the registered cdevs. -/
structure Untouched (dev : PciDev) (w w' : World) : Prop where
  charMajor : w'.charMajor = w.charMajor
  charNextMinor : w'.charNextMinor = w.charNextMinor
  nextPtr : w.nextPtr ≤ w'.nextPtr
  drvdata : ∀ dev', dev' ≠ dev → w'.drvdata dev' = w.drvdata dev'
  contexts : ∀ p < w.nextPtr, w'.contexts p = w.contexts p
  cdev : ∀ p n, .cdev p n ∈ w'.ledger.held ↔ .cdev p n ∈ w.ledger.held

theorem untouched_refl (dev : PciDev) (w : World) : Untouched dev w w :=
  ⟨rfl, rfl, le_rfl, fun _ _ => rfl, fun _ _ => rfl, fun _ _ => Iff.rfl⟩

theorem Untouched.acquire {dev : PciDev} {w w' : World} (h : Untouched dev w w') {r : Resource}
    (hr : r.cdevContext = none) : Untouched dev w (w'.acquire r) := by
  refine ⟨h.charMajor, h.charNextMinor, h.nextPtr, h.drvdata, h.contexts, fun p n => ?_⟩
  have hne : Resource.cdev p n ≠ r := by
    rintro rfl
    cases hr
  rw [World.acquire, Ledger.held_acquire, Multiset.mem_cons, h.cdev]
  simp [hne]

theorem untouched_building (dev : PciDev) (w : World) (c : Context) {gathered : Multiset Resource}
    (hg : ∀ r ∈ gathered, r.cdevContext = none) :
    Untouched dev w
      (building w.nextPtr c gathered ((allocated w).setDrvdata dev (some w.nextPtr))) := by
  refine ⟨rfl, rfl, Nat.le_succ _, ?_, ?_, ?_⟩
  · intro dev' hne
    exact Function.update_of_ne hne _ _
  · intro p hp
    exact Function.update_of_ne hp.ne _ _
  · intro p n
    have hnot : Resource.cdev p n ∉ gathered := by
      intro hmem
      have hnone := hg _ hmem
      cases hnone
    change Resource.cdev p n ∈ gathered + w.ledger.held ↔ _
    rw [Multiset.mem_add]
    simp [hnot]

def Binds (table : List DeviceDescriptor) (device : Nat) (o : Outcomes) : Prop :=
  ∃ d, lookupDescriptor table device = some d ∧ Outcomes.Admits o ∧ o.requestIrq d.isr = 0 ∧
    DmaAllocated o d

variable {pci : PciDev → PciResources} {o : Outcomes} {table : List DeviceDescriptor}
variable {dev : PciDev} {device : Nat} {w : World}

theorem ending_eq_zero_iff :
    ((accesioPciDriverProbe table dev device).exec (handler pci o) w).1 = .returned 0 ↔
      Binds table device o := by
  rw [ending_accesioPciDriverProbe]
  unfold Binds
  cases hd : lookupDescriptor table device with
  | none =>
      simp only [probeEnding, regionsEnding, contextEnding]
      split_ifs <;> simp_all [EPERM, ENOMEM]
  | some d =>
      rw [probeEnding_eq_zero_iff]
      simp

private theorem exists_probeIrq_eq {context : Ptr} {c : Context} {gathered : Multiset Resource}
    {d : DeviceDescriptor} (h : ¬(o.requestIrq d.isr = 0 ∧ DmaAllocated o d))
    (hg : ∀ r ∈ gathered, r.cdevContext = none) :
    ∃ c' gathered', (∀ r ∈ gathered', r.cdevContext = none) ∧
      ((probeIrq dev context d).exec (handler pci o) (building context c gathered w)).2 =
        building context c' gathered' w := by
  by_cases hirq : o.requestIrq d.isr = 0
  · have hnodma : d.hasDma = true ∧ o.kmalloc = false := by
      simpa [DmaAllocated, hirq] using h
    refine ⟨((c.set .irqLock).set .waitQueue).set (.isrContext none),
      .irq (pci dev).irq context ::ₘ gathered, ?_, ?_⟩
    · intro r hr
      rcases Multiset.mem_cons.mp hr with rfl | hr
      · rfl
      · exact hg r hr
    · simp only [probeIrq, probeDma, Prog.exec_bind, exec_pciDevIrq, exec_requestIrq, exec_store,
        building_acquireIf, building_store, hirq, heldIf, decide_true, cond_true, ne_eq, not_true,
        if_false, hnodma.1, if_true, exec_kmalloc, hnodma.2, Bool.false_eq_true,
        Multiset.singleton_add]
      rfl
  · refine ⟨(c.set .irqLock).set .waitQueue, gathered, hg, ?_⟩
    simp only [probeIrq, Prog.exec_bind, exec_pciDevIrq, exec_requestIrq, exec_store,
      building_acquireIf, building_store, hirq, heldIf, decide_false, cond_false, ne_eq,
      not_false_eq_true, if_true, zero_add]
    rfl

theorem untouched_of_not_binds (h : ¬Binds table device o) :
    Untouched dev w
      ((accesioPciDriverProbe table dev device).exec (handler pci o) w).2 := by
  by_cases he : o.pciEnableDevice = 0
  swap
  · simpa [accesioPciDriverProbe, he, World.acquireIf] using untouched_refl dev w
  by_cases hr : o.pciRequestRegions = 0
  swap
  · simpa [accesioPciDriverProbe, probeRegions, he, hr, World.acquireIf] using
      (untouched_refl dev w).acquire (r := .enabled dev) rfl
  by_cases hk : o.kzalloc = true
  swap
  · simpa [accesioPciDriverProbe, probeRegions, he, hr, hk, World.acquireIf] using
      ((untouched_refl dev w).acquire (r := .enabled dev) rfl).acquire (r := .regions dev) rfl
  have hfirst : ∀ r ∈ acquiredFirst dev w.nextPtr, r.cdevContext = none := by
    simp [acquiredFirst, Resource.cdevContext]
  rw [exec_of_admits pci o dev ⟨he, hr, hk⟩]
  cases hd : lookupDescriptor table device with
  | none =>
      simp only [probeContext, hd, Prog.exec_bind, exec_pciSetDrvdata, exec_store, building_store,
        building_setDrvdata]
      exact untouched_building dev w _ hfirst
  | some d =>
      have hirq : ¬(o.requestIrq d.isr = 0 ∧ DmaAllocated o d) := by
        intro hok
        exact h ⟨d, hd, ⟨he, hr, hk⟩, hok⟩
      simp only [probeContext, hd, Prog.exec_bind, exec_pciSetDrvdata, exec_store, exec_probeBars,
        exec_guarded_store, building_store, building_setDrvdata]
      have hgathered : ∀ r ∈ (mappings dev (mappedBase (pci dev) o)
          (List.finRange PCI_STD_NUM_BARS) : Multiset Resource) + acquiredFirst dev w.nextPtr,
          r.cdevContext = none := by
        intro r hmem
        rcases Multiset.mem_add.mp hmem with hmap | hmem
        · obtain ⟨bar, -, hbar⟩ := List.mem_filterMap.mp (Multiset.mem_coe.mp hmap)
          obtain ⟨base, -, rfl⟩ := Option.map_eq_some_iff.mp hbar
          rfl
        · exact hfirst r hmem
      obtain ⟨c', gathered', hg', hexec⟩ := exists_probeIrq_eq hirq hgathered
      rw [hexec]
      exact untouched_building dev w c' hg'

/-! ## One step -/

theorem boundTo_unique {b b' : Binding} (h : BoundTo w dev b) (h' : BoundTo w dev b') :
    b = b' := by
  have heq := h.bindingOf_eq.symm.trans h'.bindingOf_eq
  exact Option.some.inj heq

theorem boundTo_untouched {w' : World} {dev' : PciDev} {b : Binding} (h : BoundTo w dev' b)
    (hw : Untouched dev w w') (hne : dev' ≠ dev) : BoundTo w' dev' b := by
  obtain ⟨hdrv, hc, hpci, hlt⟩ := h
  refine ⟨?_, ?_, hpci, hlt.trans_le hw.nextPtr⟩
  · rw [hw.drvdata dev' hne, hdrv]
  · rw [hw.contexts _ hlt, hc]

theorem boundTo_back {w' : World} {b : Binding} (hb : BoundTo w' dev b)
    (hbound : ∃ b, BoundTo w dev b) (hkeep : ∀ b, BoundTo w dev b → BoundTo w' dev b) :
    BoundTo w dev b := by
  obtain ⟨b', hb'⟩ := hbound
  have heq := boundTo_unique hb (hkeep b' hb')
  rw [heq]
  exact hb'

theorem charMajor_boundWorld (card : PciResources) (o : Outcomes) (dev : PciDev)
    (d : DeviceDescriptor) (w : World) :
    (boundWorld card o dev d w).charMajor = w.charMajor := by
  unfold boundWorld advanceMinor allocatedIf
  cases o.deviceCreate.isOk <;> cases d.hasDma <;> rfl

theorem charNextMinor_boundWorld (card : PciResources) (o : Outcomes) (dev : PciDev)
    (d : DeviceDescriptor) (w : World) :
    (boundWorld card o dev d w).charNextMinor =
      if o.deviceCreate.isOk then w.charNextMinor + 1 else w.charNextMinor := by
  unfold boundWorld advanceMinor allocatedIf
  cases o.deviceCreate.isOk <;> cases d.hasDma <;> rfl

theorem cdev_mem_boundWorld (card : PciResources) (o : Outcomes) (dev : PciDev)
    (d : DeviceDescriptor) (w : World) (p : Ptr) (n : DevT) :
    .cdev p n ∈ (boundWorld card o dev d w).ledger.held ↔
      (o.cdevAdd = 0 ∧ p = w.nextPtr ∧ n = nextNumber w) ∨ .cdev p n ∈ w.ledger.held := by
  have hmap : Resource.cdev p n ∉ mappings dev (mappedBase card o)
      (List.finRange PCI_STD_NUM_BARS) := by
    intro hmem
    obtain ⟨bar, -, hbar⟩ := List.mem_filterMap.mp hmem
    obtain ⟨base, -, hbase⟩ := Option.map_eq_some_iff.mp hbar
    cases hbase
  rw [ledger_boundWorld]
  unfold acquired heldIf acquiredFirst
  simp only [Multiset.mem_add, Multiset.mem_cons, Multiset.mem_coe, hmap, Multiset.notMem_zero]
  cases o.deviceCreate.isOk <;> cases d.hasDma <;> by_cases hadd : o.cdevAdd = 0 <;> simp [hadd]

private theorem cdev_mem_unboundWorld (card : PciResources) (dev : PciDev) (context : Ptr)
    (c : Context)
    (w : World) (p : Ptr) (n : DevT) :
    .cdev p n ∈ (unboundWorld card dev context c w).ledger.held ↔
      .cdev p n ∈ w.ledger.held := by
  apply Ledger.mem_held_releaseAll_of_notMem
  intro hmem
  simp only [releasedByRemove, List.mem_append, List.mem_cons, reduceCtorEq, false_or, or_false,
    List.not_mem_nil] at hmem
  obtain ⟨bar, -, hbar⟩ := List.mem_filterMap.mp hmem
  obtain ⟨base, -, hbase⟩ := Option.map_eq_some_iff.mp hbar
  cases hbase

/-! ## Numbers that serve -/

/-- An open of the number `n` reaches the cdev that was registered last under
it.  A cdev lies in its context, and contexts are allocated at growing
addresses. -/
def Opens (w : World) (n : DevT) (p : Ptr) : Prop :=
  .cdev p n ∈ w.ledger.held ∧ ∀ q, .cdev q n ∈ w.ledger.held → q ≤ p

/-- Every bound card has a number of its own in the reserved region, and the
number opens the card. -/
structure NumbersServe (s : State) : Prop where
  boundTo : ∀ dev ∈ s.bound, ∃ b, BoundTo s.world dev b
  region : ∀ dev ∈ s.bound, ∀ b, BoundTo s.world dev b →
    MAJOR b.contents.dev = s.world.charMajor ∧ MINOR b.contents.dev < MAX_CHAR_DEVICES
  distinct : ∀ dev ∈ s.bound, ∀ dev' ∈ s.bound, ∀ b b', BoundTo s.world dev b →
    BoundTo s.world dev' b' → MINOR b.contents.dev = MINOR b'.contents.dev → dev = dev'
  opens : ∀ dev ∈ s.bound, ∀ b, BoundTo s.world dev b →
    Opens s.world b.contents.dev b.context

def CreateFailed (w : World) (dev : PciDev) : Prop :=
  ∃ b, BoundTo w dev b ∧ b.contents.device.IsErr

/-- A probe that binds a card finds the counter inside the region and no bound
card that still holds the number the counter gives, and `cdev_add` succeeds. -/
def KeepsNumbers (m : Machine) (_ : List Event) (s : State) : Hotplug → Prop
  | .probe _ device o =>
      Binds m.table device o →
        o.cdevAdd = 0 ∧ s.world.charNextMinor < MAX_CHAR_DEVICES ∧
          ∀ dev' ∈ s.bound, ¬CreateFailed s.world dev'
  | .remove _ _ => True

/-! ## The invariant -/

/-- The number of a card whose node was created lies behind the counter, and
that of any other card is the one the counter gives. -/
def NumberedBelow (limit : Nat) (w : World) (c : Context) : Prop :=
  ∃ minor : BitVec 32, c.dev = MKDEV w.charMajor minor ∧ minor.toNat < limit ∧
    (¬c.device.IsErr → minor.toNat < w.charNextMinor.toNat) ∧
    (c.device.IsErr → minor = w.charNextMinor)

structure Numbered (limit : Nat) (s : State) : Prop where
  nodup : s.bound.Nodup
  boundTo : ∀ dev ∈ s.bound, ∃ b, BoundTo s.world dev b
  major : s.world.charMajor.toNat < 2 ^ 12
  counter : s.world.charNextMinor.toNat ≤ limit
  fresh : ∀ p n, .cdev p n ∈ s.world.ledger.held → p < s.world.nextPtr
  number : ∀ dev ∈ s.bound, ∀ b, BoundTo s.world dev b →
    NumberedBelow limit s.world b.contents
  distinct : ∀ dev ∈ s.bound, ∀ dev' ∈ s.bound, ∀ b b', BoundTo s.world dev b →
    BoundTo s.world dev' b' → b.contents.dev = b'.contents.dev → dev = dev'
  opens : ∀ dev ∈ s.bound, ∀ b, BoundTo s.world dev b →
    Opens s.world b.contents.dev b.context

variable {limit : Nat} {s : State}

theorem Numbered.frame (h : Numbered limit s) {s' : State} (hnodup : s'.bound.Nodup)
    (hsub : ∀ dev ∈ s'.bound, dev ∈ s.bound)
    (hmajor : s'.world.charMajor = s.world.charMajor)
    (hnext : s'.world.charNextMinor = s.world.charNextMinor)
    (hptr : s.world.nextPtr ≤ s'.world.nextPtr)
    (hbound : ∀ dev ∈ s'.bound, ∀ b, BoundTo s.world dev b → BoundTo s'.world dev b)
    (hcdev : ∀ p n, .cdev p n ∈ s'.world.ledger.held ↔ .cdev p n ∈ s.world.ledger.held) :
    Numbered limit s' := by
  have hback : ∀ dev ∈ s'.bound, ∀ b, BoundTo s'.world dev b → BoundTo s.world dev b := by
    intro dev hdev b hb
    exact boundTo_back hb (h.boundTo dev (hsub dev hdev)) (hbound dev hdev)
  refine ⟨hnodup, ?_, ?_, ?_, ?_, ?_, ?_, ?_⟩
  · intro dev hdev
    obtain ⟨b, hb⟩ := h.boundTo dev (hsub dev hdev)
    exact ⟨b, hbound dev hdev b hb⟩
  · rw [hmajor]
    exact h.major
  · rw [hnext]
    exact h.counter
  · intro p n hp
    exact (h.fresh p n ((hcdev p n).mp hp)).trans_le hptr
  · intro dev hdev b hb
    unfold NumberedBelow
    rw [hmajor, hnext]
    exact h.number dev (hsub dev hdev) b (hback dev hdev b hb)
  · intro dev hdev dev' hdev' b b' hb hb'
    exact h.distinct dev (hsub dev hdev) dev' (hsub dev' hdev') b b' (hback dev hdev b hb)
      (hback dev' hdev' b' hb')
  · intro dev hdev b hb
    obtain ⟨hown, hlast⟩ := h.opens dev (hsub dev hdev) b (hback dev hdev b hb)
    exact ⟨(hcdev _ _).mpr hown, fun q hq => hlast q ((hcdev _ _).mp hq)⟩

def boundState (card : PciResources) (o : Outcomes) (dev : PciDev) (d : DeviceDescriptor)
    (s : State) : State :=
  { s with world := boundWorld card o dev d s.world, bound := dev :: s.bound }

theorem boundTo_boundState (card : PciResources) (o : Outcomes) (dev : PciDev)
    (d : DeviceDescriptor) (s : State) :
    BoundTo (boundState card o dev d s).world dev
      ⟨s.world.nextPtr, boundContext card o dev d s.world⟩ := by
  refine ⟨?_, ?_, rfl, lt_nextPtr_boundWorld card o dev d s.world⟩
  · simp [boundState]
  · simp [boundState]

/-- Whoever is bound after a probe that binds `dev` is `dev` with its new
context, or was bound before with the context it still has. -/
theorem boundTo_boundState_cases {card : PciResources} {o : Outcomes} {dev dev' : PciDev}
    {d : DeviceDescriptor} {b : Binding} (hbound : ∀ dev ∈ s.bound, ∃ b, BoundTo s.world dev b)
    (hfresh : dev ∉ s.bound) (hdev' : dev' ∈ (boundState card o dev d s).bound)
    (hb : BoundTo (boundState card o dev d s).world dev' b) :
    (dev' = dev ∧ b = ⟨s.world.nextPtr, boundContext card o dev d s.world⟩) ∨
      (dev' ∈ s.bound ∧ BoundTo s.world dev' b) := by
  rcases List.mem_cons.mp hdev' with rfl | hold
  · exact .inl ⟨rfl, boundTo_unique hb (boundTo_boundState card o dev' d s)⟩
  · have hne : dev' ≠ dev := by
      rintro rfl
      exact hfresh hold
    refine .inr ⟨hold, ?_⟩
    exact boundTo_back hb (hbound dev' hold) fun b' hb' => hb'.boundWorld hne card o d

theorem toNat_add_one {minor : BitVec 32} (h : minor.toNat < 2 ^ 20) :
    (minor + 1).toNat = minor.toNat + 1 := by
  rw [BitVec.toNat_add_of_lt]
  · rfl
  · change minor.toNat + 1 < 2 ^ 32
    omega

theorem Numbered.ne_nextNumber (h : Numbered limit s) (hlimit : limit ≤ 2 ^ 20)
    (hlt : s.world.charNextMinor.toNat < limit)
    (hok : ∀ dev' ∈ s.bound, ¬CreateFailed s.world dev') {dev : PciDev} (hdev : dev ∈ s.bound)
    {b : Binding} (hb : BoundTo s.world dev b) : b.contents.dev ≠ nextNumber s.world := by
  intro heq
  obtain ⟨minor, hnumber, hm, hbehind, -⟩ := h.number dev hdev b hb
  have hlt' := hbehind fun herr => hok dev hdev ⟨b, hb, herr⟩
  have hsame := congrArg MINOR (hnumber.symm.trans heq)
  rw [nextNumber, MINOR_MKDEV h.major (hm.trans_le hlimit),
    MINOR_MKDEV h.major (hlt.trans_le hlimit)] at hsame
  rw [hsame] at hlt'
  exact lt_irrefl _ hlt'

private theorem numberedBelow_boundContext {w : World} (card : PciResources) (o : Outcomes)
    (dev : PciDev)
    (d : DeviceDescriptor) (hlt : w.charNextMinor.toNat < limit) (hlimit : limit ≤ 2 ^ 20) :
    NumberedBelow limit (boundWorld card o dev d w) (boundContext card o dev d w) := by
  unfold NumberedBelow
  rw [charMajor_boundWorld, charNextMinor_boundWorld]
  refine ⟨w.charNextMinor, rfl, hlt, ?_, ?_⟩
  · intro hcreated
    have hcreate : o.deviceCreate.isOk = true := by
      simpa [boundContext] using hcreated
    rw [if_pos hcreate, toNat_add_one (hlt.trans_le hlimit)]
    exact Nat.lt_succ_self _
  · intro herr
    have hcreate : o.deviceCreate.isOk = false := by
      simpa [boundContext] using herr
    rw [hcreate]
    rfl

theorem NumberedBelow.boundWorld {w : World} {c : Context} (h : NumberedBelow limit w c)
    (hcreated : ¬c.device.IsErr) (card : PciResources) (o : Outcomes) (dev : PciDev)
    (d : DeviceDescriptor) (hlt : w.charNextMinor.toNat < 2 ^ 20) :
    NumberedBelow limit (ProbeEffect.boundWorld card o dev d w) c := by
  obtain ⟨minor, hnumber, hm, hbehind, -⟩ := h
  unfold NumberedBelow
  rw [charMajor_boundWorld, charNextMinor_boundWorld]
  refine ⟨minor, hnumber, hm, ?_, fun herr => absurd herr hcreated⟩
  intro _
  split
  · rw [toNat_add_one hlt]
    exact (hbehind hcreated).trans (Nat.lt_succ_self _)
  · exact hbehind hcreated

theorem Numbered.bind (h : Numbered limit s) (hlimit : limit ≤ 2 ^ 20) {card : PciResources}
    {o : Outcomes} {dev : PciDev} {d : DeviceDescriptor} (hfresh : dev ∉ s.bound)
    (hadd : o.cdevAdd = 0) (hlt : s.world.charNextMinor.toNat < limit)
    (hok : ∀ dev' ∈ s.bound, ¬CreateFailed s.world dev') :
    Numbered limit (boundState card o dev d s) := by
  have hminor : s.world.charNextMinor.toNat < 2 ^ 20 := hlt.trans_le hlimit
  have hother : ∀ dev' ∈ s.bound, ∀ b, BoundTo s.world dev' b →
      b.contents.dev ≠ nextNumber s.world :=
    fun _ hdev' _ hb => h.ne_nextNumber hlimit hlt hok hdev' hb
  refine ⟨List.nodup_cons.mpr ⟨hfresh, h.nodup⟩, ?_, ?_, ?_, ?_, ?_, ?_, ?_⟩
  · intro dev' hdev'
    rcases List.mem_cons.mp hdev' with rfl | hold
    · exact ⟨_, boundTo_boundState card o dev' d s⟩
    · obtain ⟨b, hb⟩ := h.boundTo dev' hold
      have hne : dev' ≠ dev := by
        rintro rfl
        exact hfresh hold
      exact ⟨b, hb.boundWorld hne card o d⟩
  · rw [boundState, charMajor_boundWorld]
    exact h.major
  · rw [boundState, charNextMinor_boundWorld]
    split
    · rw [toNat_add_one hminor]
      exact hlt
    · exact hlt.le
  · intro p n hp
    have hptr := lt_nextPtr_boundWorld card o dev d s.world
    rcases (cdev_mem_boundWorld card o dev d s.world p n).mp hp with ⟨-, rfl, -⟩ | hold
    · exact hptr
    · exact (h.fresh p n hold).trans hptr
  · intro dev' hdev' b hb
    rcases boundTo_boundState_cases h.boundTo hfresh hdev' hb with ⟨-, rfl⟩ | ⟨hold, hb⟩
    · exact numberedBelow_boundContext card o dev d hlt hlimit
    · have hcreated : ¬b.contents.device.IsErr := fun herr => hok dev' hold ⟨b, hb, herr⟩
      exact (h.number dev' hold b hb).boundWorld hcreated card o dev d hminor
  · intro dev₁ hdev₁ dev₂ hdev₂ b₁ b₂ hb₁ hb₂ heq
    rcases boundTo_boundState_cases h.boundTo hfresh hdev₁ hb₁ with ⟨hd₁, rfl⟩ | ⟨hold₁, hold₁'⟩
    · rcases boundTo_boundState_cases h.boundTo hfresh hdev₂ hb₂ with ⟨hd₂, -⟩ | ⟨hold₂, hold₂'⟩
      · rw [hd₁, hd₂]
      · exact absurd heq.symm (hother dev₂ hold₂ b₂ hold₂')
    · rcases boundTo_boundState_cases h.boundTo hfresh hdev₂ hb₂ with ⟨-, rfl⟩ | ⟨hold₂, hold₂'⟩
      · exact absurd heq (hother dev₁ hold₁ b₁ hold₁')
      · exact h.distinct dev₁ hold₁ dev₂ hold₂ b₁ b₂ hold₁' hold₂' heq
  · intro dev' hdev' b hb
    unfold Opens
    simp only [boundState, cdev_mem_boundWorld]
    rcases boundTo_boundState_cases h.boundTo hfresh hdev' hb with ⟨rfl, rfl⟩ | ⟨hold, hb⟩
    · refine ⟨.inl ⟨hadd, rfl, rfl⟩, ?_⟩
      rintro q (⟨-, rfl, -⟩ | hq)
      · exact le_rfl
      · exact (h.fresh q _ hq).le
    · obtain ⟨hown, hlast⟩ := h.opens dev' hold b hb
      refine ⟨.inr hown, ?_⟩
      rintro q (⟨-, -, heq⟩ | hq)
      · exact absurd heq (hother dev' hold b hb)
      · exact hlast q hq

/-! ## Runs -/

variable {m : Machine} {s' : State} {e : Event} {log : List Event}

/-- A probe binds the card, or leaves everything alone that numbers depend on. -/
theorem step_probe_cases (hs : step m s (.probe dev device o) = some (e, s')) :
    dev ∉ s.bound ∧
      ((∃ d, lookupDescriptor m.table device = some d ∧ Binds m.table device o ∧
          s' = boundState (m.pci dev) o dev d s) ∨
        (¬Binds m.table device o ∧ s'.bound = s.bound ∧ Untouched dev s.world s'.world)) := by
  simp only [step] at hs
  split at hs
  · next hcan =>
      refine ⟨hcan.2, ?_⟩
      by_cases hbinds : Binds m.table device o
      · left
        obtain ⟨d, hd, hadmits, hirq, hdma⟩ := hbinds
        rw [exec_accesioPciDriverProbe m.pci o dev hd hadmits hirq hdma] at hs
        simp only [if_true, Option.some.injEq, Prod.mk.injEq] at hs
        exact ⟨d, hd, ⟨d, hd, hadmits, hirq, hdma⟩, hs.2.symm⟩
      · right
        have hend : ((accesioPciDriverProbe m.table dev device).exec (handler m.pci o)
            s.world).1 ≠ .returned 0 := by
          rw [Ne, ending_eq_zero_iff]
          exact hbinds
        simp only [hend, if_false, Option.some.injEq, Prod.mk.injEq] at hs
        obtain ⟨-, rfl⟩ := hs
        exact ⟨hbinds, rfl, untouched_of_not_binds hbinds⟩
  · cases hs

private theorem step_remove_eq (hbound : ∀ dev ∈ s.bound, ∃ b, BoundTo s.world dev b)
    (hs : step m s (.remove dev o) = some (e, s')) :
    dev ∈ s.bound ∧ ∃ b, BoundTo s.world dev b ∧ s' = { s with
      world := unboundWorld (m.pci dev) dev b.context b.contents s.world
      bound := s.bound.erase dev } := by
  simp only [step] at hs
  split at hs
  · next hdev =>
      obtain ⟨b, hb⟩ := hbound dev hdev
      rw [exec_accesioPciDriverRemove m.pci o dev hb.1 hb.2.1 hb.2.2.1] at hs
      simp only [Option.some.injEq, Prod.mk.injEq] at hs
      exact ⟨hdev, b, hb, hs.2.symm⟩
  · cases hs

theorem Numbered.untouched (h : Numbered limit s) (hfresh : dev ∉ s.bound)
    (hsame : s'.bound = s.bound) (hw : Untouched dev s.world s'.world) : Numbered limit s' := by
  refine h.frame (hsame ▸ h.nodup) (fun _ hdev => hsame ▸ hdev) hw.charMajor hw.charNextMinor
    hw.nextPtr ?_ hw.cdev
  intro dev' hdev' b hb
  apply boundTo_untouched hb hw
  rintro rfl
  rw [hsame] at hdev'
  exact hfresh hdev'

theorem Numbered.remove (h : Numbered limit s)
    (hs : step m s (.remove dev o) = some (e, s')) : Numbered limit s' := by
  obtain ⟨hdev, b, hb, rfl⟩ := step_remove_eq h.boundTo hs
  refine h.frame (h.nodup.erase dev) (fun _ => List.mem_of_mem_erase) rfl rfl le_rfl ?_ ?_
  · intro dev' hdev' b' hb'
    have hne : dev' ≠ dev := (h.nodup.mem_erase_iff.mp hdev').1
    exact hb'.unboundWorld hb hne (m.pci dev)
  · exact cdev_mem_unboundWorld (m.pci dev) dev b.context b.contents s.world

private theorem toNat_MAJOR_lt (dev : DevT) : (MAJOR dev).toNat < 2 ^ 12 := by
  have hlt := dev.isLt
  rw [MAJOR, BitVec.toNat_ushiftRight, Nat.shiftRight_eq_div_pow]
  omega

theorem afterLoad_world (m : Machine) (o : Outcomes) :
    (afterLoad m o).world.charMajor.toNat < 2 ^ 12 ∧ (afterLoad m o).world.charNextMinor = 0 ∧
      ∀ p n, .cdev p n ∉ (afterLoad m o).world.ledger.held := by
  have hmajor : ∀ number, (MAJOR number).toNat < 4096 := toNat_MAJOR_lt
  unfold afterLoad
  cases hm : tablesMatch m.table m.ids with
  | none => simp [accesioPciInit, hm, World.fresh, Ledger.empty]
  | some ok =>
      cases ok with
      | false => simp [accesioPciInit, hm, World.fresh, Ledger.empty]
      | true =>
          by_cases ha : o.allocChrdevRegion.1 = 0
          · cases hc : o.classCreate.isOk <;> by_cases hr : o.pciRegisterDriver = 0 <;>
              simp [accesioPciInit, initClass, hm, ha, hc, hr, World.acquireIf, World.acquire,
                World.setCharMajor, World.setCharClass, World.fresh, Ledger.empty, hmajor]
          · simp [accesioPciInit, hm, ha, World.acquireIf, World.fresh, Ledger.empty]

theorem numbered_init (m : Machine) (o : Outcomes) : Numbered limit (afterLoad m o) := by
  obtain ⟨hmajor, hnext, hcdev⟩ := afterLoad_world m o
  have hnone : (afterLoad m o).bound = [] := rfl
  refine ⟨List.nodup_nil, by simp [hnone], hmajor, ?_, ?_, by simp [hnone], by simp [hnone],
    by simp [hnone]⟩
  · rw [hnext]
    exact Nat.zero_le _
  · intro p n hp
    exact absurd hp (hcdev p n)

theorem numbered_run (h : RunWhere (hotplug m o) (KeepsNumbers m) log s) :
    Numbered MAX_CHAR_DEVICES.toNat s := by
  induction h with
  | init => exact numbered_init m o
  | @step log s s' a e _ hkeeps hs ih =>
      cases a with
      | probe dev device o =>
          obtain ⟨hfresh, hcase⟩ := step_probe_cases hs
          rcases hcase with ⟨d, -, hbinds, rfl⟩ | ⟨-, hsame, hw⟩
          · obtain ⟨hadd, hlt, hok⟩ := hkeeps hbinds
            exact ih.bind (by decide) hfresh hadd hlt hok
          · exact ih.untouched hfresh hsame hw
      | remove dev o => exact ih.remove hs

theorem Numbered.numbersServe (h : Numbered MAX_CHAR_DEVICES.toNat s) : NumbersServe s := by
  have hnumber : ∀ dev ∈ s.bound, ∀ b, BoundTo s.world dev b → ∃ minor : BitVec 32,
      b.contents.dev = MKDEV s.world.charMajor minor ∧ minor < MAX_CHAR_DEVICES ∧
        MINOR b.contents.dev = minor ∧ MAJOR b.contents.dev = s.world.charMajor := by
    intro dev hdev b hb
    obtain ⟨minor, heq, hlt, -, -⟩ := h.number dev hdev b hb
    have hsmall : minor.toNat < 2 ^ 20 := hlt.trans (by decide)
    refine ⟨minor, heq, hlt, ?_, ?_⟩
    · rw [heq, MINOR_MKDEV h.major hsmall]
    · rw [heq, MAJOR_MKDEV_minor h.major hsmall]
  refine ⟨h.boundTo, ?_, ?_, h.opens⟩
  · intro dev hdev b hb
    obtain ⟨minor, -, hlt, hminor, hmajor⟩ := hnumber dev hdev b hb
    rw [hminor]
    exact ⟨hmajor, hlt⟩
  · intro dev hdev dev' hdev' b b' hb hb' heq
    obtain ⟨minor, hnum, -, hminor, -⟩ := hnumber dev hdev b hb
    obtain ⟨minor', hnum', -, hminor', -⟩ := hnumber dev' hdev' b' hb'
    apply h.distinct dev hdev dev' hdev' b b' hb hb'
    rw [hnum, hnum', ← hminor, ← hminor', heq]

/-- What numbers that serve after a binding probe tell of the state before it. -/
theorem keeps_of_numbersServe (h : Numbered MAX_CHAR_DEVICES.toNat s) {card : PciResources}
    {o : Outcomes} {dev : PciDev} {d : DeviceDescriptor} (hfresh : dev ∉ s.bound)
    (hserve : NumbersServe (boundState card o dev d s)) :
    o.cdevAdd = 0 ∧ s.world.charNextMinor < MAX_CHAR_DEVICES ∧
      ∀ dev' ∈ s.bound, ¬CreateFailed s.world dev' := by
  have hmem : dev ∈ (boundState card o dev d s).bound := List.mem_cons_self
  have hnew := boundTo_boundState card o dev d s
  have hminor : s.world.charNextMinor.toNat < 2 ^ 20 := h.counter.trans_lt (by decide)
  have hnumber : MINOR (boundContext card o dev d s.world).dev = s.world.charNextMinor :=
    MINOR_MKDEV h.major hminor
  refine ⟨?_, ?_, ?_⟩
  · have hown := (hserve.opens dev hmem _ hnew).1
    rcases (cdev_mem_boundWorld card o dev d s.world _ _).mp hown with ⟨hadd, -, -⟩ | hold
    · exact hadd
    · exact absurd (h.fresh _ _ hold) (lt_irrefl _)
  · have hlt := (hserve.region dev hmem _ hnew).2
    rw [hnumber] at hlt
    exact hlt
  · rintro dev' hdev' ⟨b, hb, herr⟩
    obtain ⟨minor, hnum, -, -, hsame⟩ := h.number dev' hdev' b hb
    have hne : dev' ≠ dev := by
      rintro rfl
      exact hfresh hdev'
    apply hne
    apply hserve.distinct dev' (List.mem_cons_of_mem _ hdev') dev hmem b _
      (hb.boundWorld hne card o d) hnew
    rw [hnumber, hnum, hsame herr, MINOR_MKDEV h.major hminor]

/-- As long as every binding probe finds the counter below 32 and no bound card
at the number it gives, each bound card has a number of its own that opens it;
and a further step keeps that exactly on the same condition. -/
theorem numbersServe_iff_keeps (h : RunWhere (hotplug m o) (KeepsNumbers m) log s) :
    NumbersServe s ∧ ∀ a e s', (hotplug m o).step s a = some (e, s') →
      (NumbersServe s' ↔ KeepsNumbers m log s a) := by
  have hinv := numbered_run h
  refine ⟨hinv.numbersServe, ?_⟩
  intro a e s' hs
  constructor
  · intro hserve
    cases a with
    | remove dev o => trivial
    | probe dev device o =>
        intro hbinds
        obtain ⟨hfresh, hcase⟩ := step_probe_cases hs
        rcases hcase with ⟨d, -, -, rfl⟩ | ⟨hnot, -, -⟩
        · exact keeps_of_numbersServe hinv hfresh hserve
        · exact absurd hbinds hnot
  · intro hkeeps
    exact (numbered_run (h.step hkeeps hs)).numbersServe

private theorem two_probes :
    ∃ e s e' s', (hotplug oneCard allSucceed).step (hotplug oneCard allSucceed).init
        (.probe 1 0x0100 allSucceed) = some (e, s) ∧
      (hotplug oneCard allSucceed).step s (.probe 2 0x0100 allSucceed) = some (e', s') ∧
      s.bound = [1] ∧ s.world.charNextMinor = 1 ∧
      (bindingOf s.world 1).map (fun b => decide b.contents.device.IsErr) = some false ∧
      s'.bound = [2, 1] :=
  ⟨_, _, _, _, rfl, rfl, rfl, rfl, rfl, rfl⟩

theorem numbersServe_iff_keeps_two_cards :
    ∃ log s, RunWhere (hotplug oneCard allSucceed) (KeepsNumbers oneCard) log s ∧
      s.bound = [2, 1] ∧ NumbersServe s := by
  obtain ⟨e, s, e', s', hs, hs', hbound, hminor, hdevice, hboth⟩ := two_probes
  have hfirst : KeepsNumbers oneCard [] (hotplug oneCard allSucceed).init
      (.probe 1 0x0100 allSucceed) :=
    fun _ => ⟨rfl, by decide, fun _ hdev => by cases hdev⟩
  have hsecond : KeepsNumbers oneCard [e] s (.probe 2 0x0100 allSucceed) := by
    intro _
    refine ⟨rfl, by rw [hminor]; decide, fun dev hdev => ?_⟩
    rw [hbound, List.mem_singleton] at hdev
    subst hdev
    rintro ⟨b, hb, herr⟩
    rw [hb.bindingOf_eq, Option.map_some, Option.some.injEq, decide_eq_false_iff_not] at hdevice
    exact hdevice herr
  have hrun := (RunWhere.init.step hfirst hs).step hsecond hs'
  exact ⟨_, s', hrun, hboth, (numbersServe_iff_keeps hrun).1⟩

/-- Only `device_create` may fail, and at most 32 cards are bound at a time. -/
def OnlyCreateFails (m : Machine) (_ : List Event) (s : State) : Hotplug → Prop
  | .probe dev device o =>
      Succeeds m (.probe dev device { o with deviceCreate := .ok 1 }) ∧ s.bound.length < 32
  | .remove _ _ => True

def minorOf (w : World) (dev : PciDev) : Option (BitVec 32) :=
  (bindingOf w dev).map fun b => MINOR b.contents.dev

theorem minorOf_eq {b : Binding} (h : BoundTo w dev b) :
    minorOf w dev = some (MINOR b.contents.dev) := by
  rw [minorOf, h.bindingOf_eq]
  rfl

/-- The node of the first card cannot be created, and the second one gets its number. -/
theorem two_cards_share_a_number :
    ¬∀ (m : Machine) (o : Outcomes) (log : List Event) (s : State), Succeeds m (.load o) →
      RunWhere (hotplug m o) (OnlyCreateFails m) log s → NumbersServe s := by
  intro hall
  have hfail : ∀ log s, s.bound.length < 32 → OnlyCreateFails oneCard log s
      (.probe 1 0x0100 { allSucceed with deviceCreate := .error (-17) }) := by
    intro log s hlt
    exact ⟨succeeds_probe, hlt⟩
  have hcreate : ∀ log s, s.bound.length < 32 →
      OnlyCreateFails oneCard log s (.probe 2 0x0100 allSucceed) := by
    intro log s hlt
    exact ⟨succeeds_probe, hlt⟩
  have hfirst : RunWhere (hotplug oneCard allSucceed) (OnlyCreateFails oneCard) _ _ :=
    .step .init (hfail _ _ (by decide)) rfl
  have hsecond : RunWhere (hotplug oneCard allSucceed) (OnlyCreateFails oneCard) _ _ :=
    .step hfirst (hcreate _ _ (by decide)) rfl
  have hserve := hall _ _ _ _ ⟨rfl, rfl, rfl⟩ hsecond
  obtain ⟨b, hb⟩ := hserve.boundTo 1 (by decide)
  obtain ⟨b', hb'⟩ := hserve.boundTo 2 (by decide)
  have hminor : some 0 = some (MINOR b.contents.dev) := minorOf_eq hb
  have hminor' : some 0 = some (MINOR b'.contents.dev) := minorOf_eq hb'
  have hsame := Option.some.inj (hminor.symm.trans hminor')
  exact absurd (hserve.distinct 1 (by decide) 2 (by decide) b b' hb hb' hsame) (by decide)

end Aiowdm.Proofs.MinorNumbers
