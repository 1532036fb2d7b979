import Aiowdm.Driver.DeviceNodes
import Aiowdm.Proofs.MinorNumbers
import Aiowdm.Proofs.SetupCalls

/-!
# A node for every card

The name of a card's node says only its model, so two cards of one model ask
for the same node, and the second of them goes without.
-/

namespace Aiowdm.Proofs.NodeNames

open Aiowdm.Lib Aiowdm.Driver.DeviceContext Aiowdm.Driver.DeviceTable Aiowdm.Driver.Kernel
open Aiowdm.Driver.Probe Aiowdm.Driver.ModuleRuns Aiowdm.Driver.DeviceNodes
open Aiowdm.Proofs.ProbeStatus Aiowdm.Proofs.ProbeEffect Aiowdm.Proofs.Teardown
open Aiowdm.Proofs.SetupCalls Aiowdm.Proofs.MinorNumbers

/-! ## Probe under a kernel that keeps nodes -/

def nodeName (d : DeviceDescriptor) : String := "accesio_pci/" ++ d.name

def named (ns : Nodes) (o : Outcomes) (d : DeviceDescriptor) : Outcomes :=
  { o with deviceCreate := ns.created (nodeName d) }

def nodeOf (d : DeviceDescriptor) (context : Ptr) (w : World) : Node :=
  ⟨nodeName d, nextNumber w, context⟩

variable {pci : PciDev → PciResources} {o : Outcomes} {table : List DeviceDescriptor}
variable {dev : PciDev} {device : Nat} {context : Ptr} {d : DeviceDescriptor} {w : World}
variable {ns : Nodes}

theorem nodes_probeCharDevice (status : Int) :
    (probeCharDevice context d status).exec (nodeHandler pci o) (w, ns) =
      let r := (probeCharDevice context d status).exec (handler pci (named ns o d)) w
      (r.1, r.2, ns.create (nodeOf d context w)) := by
  have hname : "accesio_pci/" ++ d.name = nodeName d := rfl
  cases hok : (ns.created (nodeName d)).isOk <;>
    simp [probeCharDevice, named, nodeOf, nextNumber, hname, hok]

private theorem nodes_probeDma (hdma : DmaAllocated o d) (status : Int) :
    (probeDma context d status).exec (nodeHandler pci o) (w, ns) =
      let r := (probeDma context d status).exec (handler pci (named ns o d)) w
      (r.1, r.2, ns.create (nodeOf d context w)) := by
  by_cases hd : d.hasDma
  · have hk : o.kmalloc = true := hdma hd
    have hk' : (named ns o d).kmalloc = true := hk
    simp only [probeDma, hd, if_true, Prog.exec_bind, nodes_kmalloc, exec_kmalloc, hk, hk',
      nodes_store, exec_store, nodes_dmaLockInit, exec_dmaLockInit, nodes_probeCharDevice]
    rfl
  · simp only [probeDma, hd, Bool.false_eq_true, if_false]
    exact nodes_probeCharDevice status

private theorem nodes_probeIrq (hirq : o.requestIrq d.isr = 0) (hdma : DmaAllocated o d) :
    (probeIrq dev context d).exec (nodeHandler pci o) (w, ns) =
      let r := (probeIrq dev context d).exec (handler pci (named ns o d)) w
      (r.1, r.2, ns.create (nodeOf d context w)) := by
  have hirq' : (named ns o d).requestIrq d.isr = 0 := hirq
  simp only [probeIrq, Prog.exec_bind, nodes_pciDevIrq, exec_pciDevIrq, nodes_requestIrq,
    exec_requestIrq, nodes_store, exec_store, hirq, hirq', ne_eq, not_true, if_false,
    nodes_probeDma hdma]
  rfl

private theorem nodes_probeIrq_refused (h : ¬(o.requestIrq d.isr = 0 ∧ DmaAllocated o d)) :
    (probeIrq dev context d).exec (nodeHandler pci o) (w, ns) =
      let r := (probeIrq dev context d).exec (handler pci o) w
      (r.1, r.2, ns) := by
  by_cases hirq : o.requestIrq d.isr = 0
  · have hnodma : d.hasDma = true ∧ o.kmalloc = false := by
      simpa [DmaAllocated, hirq] using h
    simp only [probeIrq, probeDma, Prog.exec_bind, nodes_pciDevIrq, exec_pciDevIrq,
      nodes_requestIrq, exec_requestIrq, nodes_store, exec_store, hirq, ne_eq, not_true, if_false,
      hnodma.1, if_true, nodes_kmalloc, exec_kmalloc, hnodma.2, Bool.false_eq_true]
    rfl
  · simp only [probeIrq, Prog.exec_bind, nodes_pciDevIrq, exec_pciDevIrq, nodes_requestIrq,
      exec_requestIrq, nodes_store, exec_store, hirq, ne_eq, not_false_eq_true, if_true]
    rfl

/-- The calls that mind neither nodes nor device numbers. -/
def Plain : KernelCall → Prop
  | .deviceCreate _ _ _ _ | .deviceDestroy _ _ | .storeCharMajor _ | .storeCharNextMinor _ => False
  | _ => True

theorem nodes_of_plain {α : Type} {p : Prog kernel α} (hp : p.Every Plain)
    (answer : Except Int Ptr) :
    p.exec (nodeHandler pci o) (w, ns) =
      let r := p.exec (handler pci { o with deviceCreate := answer }) w
      (r.1, r.2, ns) := by
  have hrel := hp.exec_related (h := nodeHandler pci o)
    (g := handler pci { o with deviceCreate := answer })
    (R := fun s v => s = (v, ns)) (s := (w, ns)) (t := w) ?_ rfl
  · exact Prod.ext hrel.1 hrel.2
  · rintro c _ v hc rfl
    cases c <;> first | exact hc.elim | exact ⟨rfl, rfl⟩

private theorem nextNumber_of_plain {α : Type} {p : Prog kernel α} (hp : p.Every Plain)
    (w : World) :
    nextNumber (p.exec (handler pci o) w).2 = nextNumber w := by
  refine hp.exec_invariant (Q := fun v : World => nextNumber v = nextNumber w) ?_ rfl
  intro c v hc hv
  rw [← hv]
  have hif : ∀ (ok : Prop) (_ : Decidable ok) (r : Resource),
      nextNumber (v.acquireIf ok r) = nextNumber v := by
    intro ok _ r
    unfold World.acquireIf
    split <;> rfl
  cases c with
  | pciIomap dev bar =>
      change nextNumber (v.mapBar dev (o.pciIomap bar)) = _
      cases o.pciIomap bar <;> rfl
  | kzalloc | kmalloc =>
      simp only [handler]
      split <;> rfl
  | pciEnableDevice | pciRequestRegions | requestIrq | cdevAdd | allocChrdevRegion | classCreate
  | pciRegisterDriver => exact hif _ _ _
  | deviceCreate | deviceDestroy | storeCharMajor | storeCharNextMinor => exact hc.elim
  | _ => rfl

private theorem plain_store (context : Ptr) (field : Store) : (store context field).Every Plain :=
  ⟨trivial, fun _ => trivial⟩

private theorem plain_probeBars (dev : PciDev) (context : Ptr)
    (bars : List (Fin PCI_STD_NUM_BARS)) :
    (probeBars dev context bars).Every Plain :=
  every_probeBars_of dev context (fun _ => trivial) (fun _ => trivial) (fun _ _ => trivial)
    (fun _ => trivial) bars

def fillContext (dev : PciDev) (context : Ptr) (d : DeviceDescriptor) : Prog kernel Unit := do
  pciSetDrvdata dev (some context)
  store context (.pciDev dev)
  store context (.descriptor d)
  probeBars dev context (List.finRange PCI_STD_NUM_BARS)
  .guarded (defaultBarOverrides.contains d.pid) (store context (.defaultBar 2))

theorem plain_fillContext (dev : PciDev) (context : Ptr) (d : DeviceDescriptor) :
    (fillContext dev context d).Every Plain := by
  refine .perform_bind trivial fun _ => .perform_bind trivial fun _ => ?_
  refine .perform_bind trivial fun _ => .bind (plain_probeBars dev context _) fun _ => ?_
  exact .guarded (plain_store context _)

theorem probeContext_eq (hd : lookupDescriptor table device = some d) :
    probeContext table dev device context =
      (fillContext dev context d >>= fun _ => probeIrq dev context d) := by
  simp only [probeContext, fillContext, hd, Prog.bind_assoc]

private theorem nodes_probeContext (hd : lookupDescriptor table device = some d)
    (hirq : o.requestIrq d.isr = 0) (hdma : DmaAllocated o d) :
    (probeContext table dev device context).exec (nodeHandler pci o) (w, ns) =
      let r := (probeContext table dev device context).exec (handler pci (named ns o d)) w
      (r.1, r.2, ns.create (nodeOf d context w)) := by
  have hfill := plain_fillContext dev context d
  rw [probeContext_eq hd, Prog.exec_bind, nodes_of_plain hfill (ns.created (nodeName d)),
    Prog.exec_bind]
  simp only [nodes_probeIrq hirq hdma, nodeOf, nextNumber_of_plain hfill]
  rfl

theorem plain_admission (dev : PciDev) :
    (pciEnableDevice dev).Every Plain ∧ (pciRequestRegions dev).Every Plain ∧
      kzalloc.Every Plain :=
  ⟨⟨trivial, fun _ => trivial⟩, ⟨trivial, fun _ => trivial⟩, ⟨trivial, fun _ => trivial⟩⟩

theorem nodes_of_admits (hadmits : Outcomes.Admits o) :
    (accesioPciDriverProbe table dev device).exec (nodeHandler pci o) (w, ns) =
      (probeContext table dev device w.nextPtr).exec (nodeHandler pci o)
        (building w.nextPtr .zeroed (acquiredFirst dev w.nextPtr) (allocated w), ns) := by
  obtain ⟨he, hr, hk⟩ := hadmits
  obtain ⟨henable, hregions, halloc⟩ := plain_admission dev
  rw [← kzalloc_eq_building]
  simp only [accesioPciDriverProbe, probeRegions, Prog.exec_bind,
    nodes_of_plain henable o.deviceCreate, nodes_of_plain hregions o.deviceCreate,
    nodes_of_plain halloc o.deviceCreate, exec_pciEnableDevice, exec_pciRequestRegions,
    exec_kzalloc, he, hr, hk, ne_eq, not_true, if_false, if_true, World.acquireIf]
  rfl

private theorem nodes_probe (hd : lookupDescriptor table device = some d)
    (hadmits : Outcomes.Admits o) (hirq : o.requestIrq d.isr = 0) (hdma : DmaAllocated o d) :
    (accesioPciDriverProbe table dev device).exec (nodeHandler pci o) (w, ns) =
      (.returned 0, boundWorld (pci dev) (named ns o d) dev d w,
        ns.create (nodeOf d w.nextPtr w)) := by
  have hadmits' : Outcomes.Admits (named ns o d) := hadmits
  have hexec := exec_accesioPciDriverProbe (w := w) pci (named ns o d) dev hd hadmits' hirq hdma
  rw [exec_of_admits pci _ dev hadmits'] at hexec
  rw [nodes_of_admits hadmits, nodes_probeContext hd hirq hdma, hexec]
  rfl

private theorem nodes_probeContext_refused
    (h : ∀ d, lookupDescriptor table device = some d →
      ¬(o.requestIrq d.isr = 0 ∧ DmaAllocated o d)) :
    (probeContext table dev device context).exec (nodeHandler pci o) (w, ns) =
      let r := (probeContext table dev device context).exec (handler pci o) w
      (r.1, r.2, ns) := by
  cases hd : lookupDescriptor table device with
  | none =>
      have hplain : (probeContext table dev device context).Every Plain := by
        unfold probeContext
        rw [hd]
        exact .perform_bind trivial fun _ => .perform_bind trivial fun _ => trivial
      exact nodes_of_plain hplain o.deviceCreate
  | some d =>
      have hfill := plain_fillContext dev context d
      rw [probeContext_eq hd, Prog.exec_bind, nodes_of_plain hfill o.deviceCreate, Prog.exec_bind]
      exact nodes_probeIrq_refused (h d hd)

private theorem nodes_probe_refused (h : ¬Binds table device o) :
    (accesioPciDriverProbe table dev device).exec (nodeHandler pci o) (w, ns) =
      let r := (accesioPciDriverProbe table dev device).exec (handler pci o) w
      (r.1, r.2, ns) := by
  by_cases hadmits : Outcomes.Admits o
  · rw [nodes_of_admits hadmits, exec_of_admits pci o dev hadmits]
    apply nodes_probeContext_refused
    intro d hd hok
    exact h ⟨d, hd, hadmits, hok⟩
  · obtain ⟨henable, hregions, halloc⟩ := plain_admission dev
    simp only [accesioPciDriverProbe, Prog.exec_bind, nodes_of_plain henable o.deviceCreate]
    by_cases he : o.pciEnableDevice = 0
    · simp only [probeRegions, Prog.exec_bind, nodes_of_plain hregions o.deviceCreate,
        exec_pciEnableDevice, he, ne_eq, not_true, if_false]
      by_cases hr : o.pciRequestRegions = 0
      · have hk : o.kzalloc = false := by
          simpa [Outcomes.Admits, he, hr] using hadmits
        simp only [Prog.exec_bind, nodes_of_plain halloc o.deviceCreate, exec_pciRequestRegions,
          exec_kzalloc, hr, hk, not_true, if_false, Bool.false_eq_true]
        rfl
      · simp only [exec_pciRequestRegions, hr, not_false_eq_true, if_true]
        rfl
    · simp only [exec_pciEnableDevice, he, ne_eq, not_false_eq_true, if_true]
      rfl

/-! ## Model names -/

def accesio (pci : PciDev → PciResources) : Machine :=
  ⟨pci, accesioPciDeviceDescriptors, accesPciIdTable⟩

/-- Two device ids that the table gives one name: PCIe-ADI12-16F is there twice. -/
def SameModel (i j : Nat) : Prop :=
  i = j ∨ (i = 0x825d ∧ j = 0x825e) ∨ (i = 0x825e ∧ j = 0x825d)

def modelRows : List DeviceDescriptor :=
  accesioPciDeviceDescriptors.filter fun d => d.isr.isSome && d.pid != 0x825e

/-- A name as one number, which is quicker to compare. -/
def nameKey (name : String) : Nat :=
  name.toList.foldl (fun n c => 256 * n + c.toNat) 0

private theorem modelRows_nodup : (modelRows.map (·.name)).Nodup := by
  have hkeys : ((modelRows.map (·.name)).map nameKey).Nodup := by decide +kernel
  exact hkeys.of_map nameKey

theorem pid_of_adi12_name : ∀ d ∈ accesioPciDeviceDescriptors, d.isr.isSome →
    d.name = "pcie-adi12-16f" → d.pid = 0x825d ∨ d.pid = 0x825e := by
  decide +kernel

theorem nodeName_inj {d d' : DeviceDescriptor} :
    nodeName d = nodeName d' ↔ d.name = d'.name := by
  unfold nodeName
  rw [← String.toList_inj, String.toList_append, String.toList_append, List.append_right_inj,
    String.toList_inj]

theorem mem_modelRows {d : DeviceDescriptor} (hd : d ∈ accesioPciDeviceDescriptors)
    (hisr : d.isr.isSome) (hpid : d.pid ≠ 0x825e) : d ∈ modelRows := by
  unfold modelRows
  rw [List.mem_filter]
  exact ⟨hd, by simp [hisr, hpid]⟩

/-- Among the rows with an isr, only the two of the PCIe-ADI12-16F share a name. -/
theorem name_eq_iff {d d' : DeviceDescriptor} (hd : d ∈ accesioPciDeviceDescriptors)
    (hd' : d' ∈ accesioPciDeviceDescriptors) (hisr : d.isr.isSome) (hisr' : d'.isr.isSome) :
    nodeName d = nodeName d' ↔ SameModel d.pid d'.pid := by
  have hrow : ∀ i, (i = 0x825d ∨ i = 0x825e) → ∀ e ∈ accesioPciDeviceDescriptors, e.pid = i →
      e.name = "pcie-adi12-16f" := by
    rintro i (rfl | rfl) <;> decide +kernel
  rw [nodeName_inj]
  constructor
  · intro hname
    by_cases hadi : d.name = "pcie-adi12-16f"
    · have hpid := pid_of_adi12_name d hd hisr hadi
      have hpid' := pid_of_adi12_name d' hd' hisr' (hname ▸ hadi)
      unfold SameModel
      omega
    · have hne : d.pid ≠ 0x825e := fun hpid => hadi (hrow _ (.inr rfl) d hd hpid)
      have hne' : d'.pid ≠ 0x825e := fun hpid => hadi (hname ▸ hrow _ (.inr rfl) d' hd' hpid)
      have hsame : d = d' := List.inj_on_of_nodup_map modelRows_nodup
        (mem_modelRows hd hisr hne) (mem_modelRows hd' hisr' hne') hname
      rw [hsame]
      exact .inl rfl
  · rintro (hpid | ⟨hpid, hpid'⟩ | ⟨hpid, hpid'⟩)
    · have hsame : d = d' := List.inj_on_of_nodup_map pids_nodup hd hd' hpid
      rw [hsame]
    · rw [hrow _ (.inl hpid) d hd rfl, hrow _ (.inr hpid') d' hd' rfl]
    · rw [hrow _ (.inr hpid) d hd rfl, hrow _ (.inl hpid') d' hd' rfl]

/-! ## A list of cards -/

/-- Every bound card has the node of its name, made for its own context, and an
open of it reaches the card; no name was asked for twice. -/
structure OwnNodes (s : Cards) : Prop where
  names : s.nodes.names.Nodup
  created : ∀ dev ∈ s.bound, ¬CreateFailed s.world dev
  opened : ∀ dev ∈ s.bound, ∃ b d, BoundTo s.world dev b ∧ b.contents.descriptor = some d ∧
    ⟨nodeName d, b.contents.dev, b.context⟩ ∈ s.nodes.nodes ∧
    Opens s.world b.contents.dev b.context

def GetsBound (a : Attached) : Prop :=
  MinorNumbers.Binds accesioPciDeviceDescriptors a.device a.outcomes

/-- Of the cards that probe binds, no two are of one model, and `cdev_add`
succeeds for each. -/
def ModelsApart (cards : List Attached) : Prop :=
  cards.Pairwise (fun a b => GetsBound a → GetsBound b → ¬SameModel a.device b.device) ∧
    ∀ a ∈ cards, GetsBound a → a.outcomes.cdevAdd = 0

/-! ## The invariants -/

def cardsState (s : Cards) : State := ⟨s.world, true, s.bound⟩

variable {s : Cards} {a : Attached} {done : List Attached}

theorem probeCard_cases (pci : PciDev → PciResources) (s : Cards) (a : Attached) :
    (GetsBound a ∧ ∃ d, lookupDescriptor accesioPciDeviceDescriptors a.device = some d ∧
      probeCard (accesio pci) s a =
        ⟨boundWorld (pci a.dev) (named s.nodes a.outcomes d) a.dev d s.world,
          s.nodes.create (nodeOf d s.world.nextPtr s.world), a.dev :: s.bound⟩) ∨
    (¬GetsBound a ∧ ∃ w, Untouched a.dev s.world w ∧
      probeCard (accesio pci) s a = ⟨w, s.nodes, s.bound⟩) := by
  by_cases hbinds : GetsBound a
  · obtain ⟨d, hd, hadmits, hirq, hdma⟩ := hbinds
    refine .inl ⟨⟨d, hd, hadmits, hirq, hdma⟩, d, hd, ?_⟩
    simp only [probeCard, accesio, nodes_probe hd hadmits hirq hdma, if_true]
  · have huntouched : Untouched a.dev s.world
        ((accesioPciDriverProbe accesioPciDeviceDescriptors a.dev a.device).exec
          (handler pci a.outcomes) s.world).2 := untouched_of_not_binds hbinds
    refine .inr ⟨hbinds, _, huntouched, ?_⟩
    have hend : ((accesioPciDriverProbe accesioPciDeviceDescriptors a.dev a.device).exec
        (handler pci a.outcomes) s.world).1 ≠ .returned 0 := by
      rw [Ne, ending_eq_zero_iff]
      exact hbinds
    simp only [probeCard, accesio, nodes_probe_refused hbinds, hend, if_false]

/-- What holds of the cards probed so far, whatever their models. -/
structure Kept (done : List Attached) (s : Cards) : Prop where
  bound : ∀ dev, dev ∈ s.bound ↔ ∃ a ∈ done, a.dev = dev ∧ GetsBound a
  boundTo : ∀ dev ∈ s.bound, ∃ b, BoundTo s.world dev b
  cdev : ∀ p n, .cdev p n ∈ s.world.ledger.held → p < s.world.nextPtr ∧
    ∃ a ∈ done, a.outcomes.cdevAdd = 0 ∧ ∃ b, BoundTo s.world a.dev b ∧ b.context = p
  names : ∀ name, name ∈ s.nodes.names ↔ ∃ a ∈ done, GetsBound a ∧
    ∃ d, lookupDescriptor accesioPciDeviceDescriptors a.device = some d ∧ name = nodeName d
  nodup : s.nodes.names.Nodup ↔ done.Pairwise fun a b =>
    GetsBound a → GetsBound b → ¬SameModel a.device b.device

theorem row_of_lookup {i : Nat}
    (hd : lookupDescriptor accesioPciDeviceDescriptors i = some d) :
    d ∈ accesioPciDeviceDescriptors ∧ d.pid = i := by
  refine ⟨List.mem_of_find?_eq_some hd, ?_⟩
  have hpid : i = d.pid := by simpa using List.find?_some hd
  exact hpid.symm

/-- `request_irq` refuses a NULL handler, so a bound card has an isr. -/
theorem isr_of_getsBound (hnull : a.outcomes.requestIrq none ≠ 0) (h : GetsBound a)
    (hd : lookupDescriptor accesioPciDeviceDescriptors a.device = some d) : d.isr.isSome := by
  obtain ⟨d', hd', -, hirq, -⟩ := h
  have hsame : d' = d := Option.some.inj (hd'.symm.trans hd)
  rw [hsame] at hirq
  cases hisr : d.isr with
  | none =>
      rw [hisr] at hirq
      exact absurd hirq hnull
  | some style => rfl

theorem pairwise_snoc {α : Type} {R : α → α → Prop} {l : List α} {x : α} :
    (l ++ [x]).Pairwise R ↔ l.Pairwise R ∧ ∀ y ∈ l, R y x := by
  simp [List.pairwise_append]

theorem exists_mem_snoc {α : Type} {P : α → Prop} {l : List α} {x : α} :
    (∃ y ∈ l ++ [x], P y) ↔ (∃ y ∈ l, P y) ∨ P x := by
  simp [or_and_right, exists_or]

theorem Kept.refused (h : Kept done s) (hfresh : a.dev ∉ done.map (·.dev)) (hnot : ¬GetsBound a)
    {w : World} (hw : Untouched a.dev s.world w) : Kept (done ++ [a]) ⟨w, s.nodes, s.bound⟩ := by
  have hne : ∀ a' ∈ done, a'.dev ≠ a.dev := by
    intro a' ha' heq
    exact hfresh (List.mem_map.mpr ⟨a', ha', heq⟩)
  refine ⟨?_, ?_, ?_, ?_, ?_⟩
  · intro dev
    rw [h.bound, exists_mem_snoc]
    exact (or_iff_left fun hlast => hnot hlast.2).symm
  · intro dev hdev
    obtain ⟨b, hb⟩ := h.boundTo dev hdev
    obtain ⟨a', ha', rfl, -⟩ := (h.bound dev).mp hdev
    exact ⟨b, boundTo_untouched hb hw (hne a' ha')⟩
  · intro p n hp
    obtain ⟨hlt, a', ha', hadd, b, hb, hcontext⟩ := h.cdev p n ((hw.cdev p n).mp hp)
    exact ⟨hlt.trans_le hw.nextPtr, a', List.mem_append_left _ ha', hadd, b,
      boundTo_untouched hb hw (hne a' ha'), hcontext⟩
  · intro name
    rw [h.names, exists_mem_snoc]
    exact (or_iff_left fun hlast => hnot hlast.1).symm
  · rw [h.nodup, pairwise_snoc]
    constructor
    · intro hdone
      exact ⟨hdone, fun y _ _ hbinds => absurd hbinds hnot⟩
    · rintro ⟨hdone, -⟩
      exact hdone

def boundCards (pci : PciDev → PciResources) (s : Cards) (a : Attached) (d : DeviceDescriptor) :
    Cards :=
  ⟨boundWorld (pci a.dev) (named s.nodes a.outcomes d) a.dev d s.world,
    s.nodes.create (nodeOf d s.world.nextPtr s.world), a.dev :: s.bound⟩

theorem Kept.bind (h : Kept done s) (hfresh : a.dev ∉ done.map (·.dev))
    (hnull : ∀ a' ∈ done ++ [a], a'.outcomes.requestIrq none ≠ 0) (hbinds : GetsBound a)
    (hd : lookupDescriptor accesioPciDeviceDescriptors a.device = some d) :
    Kept (done ++ [a]) (boundCards pci s a d) := by
  have hlast : a ∈ done ++ [a] := List.mem_append_right _ List.mem_cons_self
  have hne : ∀ a' ∈ done, a'.dev ≠ a.dev := by
    intro a' ha' heq
    exact hfresh (List.mem_map.mpr ⟨a', ha', heq⟩)
  let o := named s.nodes a.outcomes d
  have hptr := lt_nextPtr_boundWorld (pci a.dev) o a.dev d s.world
  have hself : BoundTo (boundCards pci s a d).world a.dev
      ⟨s.world.nextPtr, boundContext (pci a.dev) o a.dev d s.world⟩ :=
    boundTo_boundState (pci a.dev) o a.dev d (cardsState s)
  have hold : ∀ a' ∈ done, ∀ b, BoundTo s.world a'.dev b →
      BoundTo (boundCards pci s a d).world a'.dev b := by
    intro a' ha' b hb
    exact hb.boundWorld (hne a' ha') (pci a.dev) o d
  refine ⟨?_, ?_, ?_, ?_, ?_⟩
  · intro dev
    change dev ∈ a.dev :: s.bound ↔ _
    rw [List.mem_cons, h.bound, exists_mem_snoc, or_comm]
    apply or_congr_right
    constructor
    · intro hdev
      exact ⟨hdev.symm, hbinds⟩
    · rintro ⟨hdev, -⟩
      exact hdev.symm
  · intro dev hdev
    rcases List.mem_cons.mp hdev with rfl | hdev'
    · exact ⟨_, hself⟩
    · obtain ⟨b, hb⟩ := h.boundTo dev hdev'
      obtain ⟨a', ha', rfl, -⟩ := (h.bound dev).mp hdev'
      exact ⟨b, hold a' ha' b hb⟩
  · intro p n hp
    have hcases := (cdev_mem_boundWorld (pci a.dev) o a.dev d s.world p n).mp hp
    rcases hcases with ⟨hadd, rfl, -⟩ | hp'
    · exact ⟨hptr, a, hlast, hadd, _, hself, rfl⟩
    · obtain ⟨hlt, a', ha', hadd, b, hb, hcontext⟩ := h.cdev p n hp'
      exact ⟨hlt.trans hptr, a', List.mem_append_left _ ha', hadd, b, hold a' ha' b hb, hcontext⟩
  · intro name
    change name ∈ nodeName d :: s.nodes.names ↔ _
    rw [List.mem_cons, h.names, exists_mem_snoc, or_comm]
    apply or_congr_right
    constructor
    · intro hname
      exact ⟨hbinds, d, hd, hname⟩
    · rintro ⟨-, d', hd', rfl⟩
      rw [hd] at hd'
      exact congrArg nodeName (Option.some.inj hd').symm
  · change (nodeName d :: s.nodes.names).Nodup ↔ _
    obtain ⟨hrow, hpid⟩ := row_of_lookup hd
    have hisr := isr_of_getsBound (hnull a hlast) hbinds hd
    rw [List.nodup_cons, h.nodup, pairwise_snoc, and_comm]
    apply and_congr_right
    intro _
    rw [h.names]
    constructor
    · intro hnone a' ha' hbinds' _ hsame
      obtain ⟨d', hd', -⟩ := id hbinds'
      obtain ⟨hrow', hpid'⟩ := row_of_lookup hd'
      have hisr' := isr_of_getsBound (hnull a' (List.mem_append_left _ ha')) hbinds' hd'
      rw [← hpid, ← hpid'] at hsame
      exact hnone ⟨a', ha', hbinds', d', hd', ((name_eq_iff hrow' hrow hisr' hisr).mpr hsame).symm⟩
    · rintro hapart ⟨a', ha', hbinds', d', hd', hname⟩
      obtain ⟨hrow', hpid'⟩ := row_of_lookup hd'
      have hisr' := isr_of_getsBound (hnull a' (List.mem_append_left _ ha')) hbinds' hd'
      have hsame := (name_eq_iff hrow' hrow hisr' hisr).mp hname.symm
      rw [hpid, hpid'] at hsame
      exact hapart a' ha' hbinds' hbinds hsame

theorem kept_unprobed (m : Machine) (o : Outcomes) : Kept [] (unprobed m o) := by
  have hcdev : ∀ p n, .cdev p n ∉ (unprobed m o).world.ledger.held := (afterLoad_world m o).2.2
  refine ⟨by simp [unprobed], by simp [unprobed], ?_, by simp [unprobed, Nodes.none],
    by simp [unprobed, Nodes.none]⟩
  intro p n hp
  exact absurd hp (hcdev p n)

/-- What holds of the cards probed so far as long as every node could be made. -/
structure Served (s : Cards) : Prop where
  numbered : Numbered (2 ^ 20) (cardsState s)
  created : ∀ dev ∈ s.bound, ¬CreateFailed s.world dev
  nodes : ∀ dev ∈ s.bound, ∀ b, BoundTo s.world dev b → ∃ d, b.contents.descriptor = some d ∧
    ⟨nodeName d, b.contents.dev, b.context⟩ ∈ s.nodes.nodes
  taken : ∀ name, s.nodes.taken name → name ∈ s.nodes.names
  counter : s.world.charNextMinor.toNat = s.nodes.names.length

theorem served_unprobed (m : Machine) (o : Outcomes) : Served (unprobed m o) := by
  have hnumbered : Numbered (2 ^ 20) (afterLoad m o) := numbered_init m o
  refine ⟨?_, by simp [unprobed], by simp [unprobed], ?_, ?_⟩
  · exact ⟨List.nodup_nil, by simp [cardsState, unprobed], hnumbered.major, hnumbered.counter,
      hnumbered.fresh, by simp [cardsState, unprobed], by simp [cardsState, unprobed],
      by simp [cardsState, unprobed]⟩
  · simp [unprobed, Nodes.none, Nodes.taken]
  · have hnext : (unprobed m o).world.charNextMinor = 0 := (afterLoad_world m o).2.1
    rw [hnext]
    rfl

theorem Served.refused (h : Served s) (hfresh : dev ∉ s.bound) {w : World}
    (hw : Untouched dev s.world w) : Served ⟨w, s.nodes, s.bound⟩ := by
  have hback : ∀ dev' ∈ s.bound, ∀ b, BoundTo w dev' b → BoundTo s.world dev' b := by
    intro dev' hdev' b hb
    have hne : dev' ≠ dev := fun heq => hfresh (heq ▸ hdev')
    exact boundTo_back hb (h.numbered.boundTo dev' hdev') fun _ hb' => boundTo_untouched hb' hw hne
  refine ⟨?_, ?_, ?_, h.taken, ?_⟩
  · have hnumbered : Numbered (2 ^ 20) ⟨w, true, s.bound⟩ := h.numbered.untouched hfresh rfl hw
    exact hnumbered
  · rintro dev' hdev' ⟨b, hb, herr⟩
    exact h.created dev' hdev' ⟨b, hback dev' hdev' b hb, herr⟩
  · intro dev' hdev' b hb
    exact h.nodes dev' hdev' b (hback dev' hdev' b hb)
  · rw [hw.charNextMinor]
    exact h.counter

theorem Served.bind (h : Served s) (hfresh : a.dev ∉ s.bound)
    (hname : nodeName d ∉ s.nodes.names) (hadd : a.outcomes.cdevAdd = 0)
    (hlen : s.nodes.names.length < 2 ^ 20) : Served (boundCards pci s a d) := by
  have hfree : ¬s.nodes.taken (nodeName d) := fun ht => hname (h.taken _ ht)
  have hcreated : s.nodes.created (nodeName d) = .ok (s.nodes.nodes.length + 1) := if_neg hfree
  have hok : (named s.nodes a.outcomes d).deviceCreate.isOk = true := by
    change (s.nodes.created (nodeName d)).isOk = true
    rw [hcreated]
    rfl
  have hnodes : (boundCards pci s a d).nodes.nodes =
      nodeOf d s.world.nextPtr s.world :: s.nodes.nodes := if_neg hfree
  have hlt : s.world.charNextMinor.toNat < 2 ^ 20 := h.counter ▸ hlen
  have hcases : ∀ dev' ∈ (boundCards pci s a d).bound, ∀ b,
      BoundTo (boundCards pci s a d).world dev' b →
        (dev' = a.dev ∧ b = ⟨s.world.nextPtr,
          boundContext (pci a.dev) (named s.nodes a.outcomes d) a.dev d s.world⟩) ∨
        (dev' ∈ s.bound ∧ BoundTo s.world dev' b) := by
    intro dev' hdev' b hb
    have hbound : ∀ dev ∈ (cardsState s).bound, ∃ b, BoundTo (cardsState s).world dev b :=
      h.numbered.boundTo
    exact boundTo_boundState_cases hbound hfresh hdev' hb
  refine ⟨?_, ?_, ?_, ?_, ?_⟩
  · exact h.numbered.bind le_rfl hfresh hadd hlt h.created
  · rintro dev' hdev' ⟨b, hb, herr⟩
    rcases hcases dev' hdev' b hb with ⟨-, rfl⟩ | ⟨hold, hb'⟩
    · have hfail : (named s.nodes a.outcomes d).deviceCreate.isOk = false := by
        simpa [boundContext] using herr
      rw [hok] at hfail
      cases hfail
    · exact h.created dev' hold ⟨b, hb', herr⟩
  · intro dev' hdev' b hb
    rw [hnodes]
    rcases hcases dev' hdev' b hb with ⟨-, rfl⟩ | ⟨hold, hb'⟩
    · exact ⟨d, rfl, List.mem_cons_self⟩
    · obtain ⟨d', hd', hmem⟩ := h.nodes dev' hold b hb'
      exact ⟨d', hd', List.mem_cons_of_mem _ hmem⟩
  · intro name ht
    unfold Nodes.taken at ht
    rw [hnodes, List.map_cons, List.mem_cons] at ht
    rcases ht with rfl | ht
    · exact List.mem_cons_self
    · exact List.mem_cons_of_mem _ (h.taken name ht)
  · have hnext := charNextMinor_boundWorld (pci a.dev) (named s.nodes a.outcomes d) a.dev d s.world
    rw [if_pos hok] at hnext
    change ((boundWorld (pci a.dev) (named s.nodes a.outcomes d) a.dev d
      s.world).charNextMinor).toNat = s.nodes.names.length + 1
    rw [hnext, toNat_add_one hlt, h.counter]

/-! ## Probing them all -/

theorem length_names_lt (h : Kept done s) (hnodup : s.nodes.names.Nodup) :
    s.nodes.names.length < 2 ^ 20 := by
  have hsub : s.nodes.names ⊆ accesioPciDeviceDescriptors.map nodeName := by
    intro name hname
    obtain ⟨a, -, -, d, hd, rfl⟩ := (h.names name).mp hname
    exact List.mem_map.mpr ⟨d, (row_of_lookup hd).1, rfl⟩
  have hle := (hnodup.subperm hsub).length_le
  have hrows : (accesioPciDeviceDescriptors.map nodeName).length = 121 := rfl
  omega

theorem notMem_bound (h : Kept done s) (hfresh : a.dev ∉ done.map (·.dev)) : a.dev ∉ s.bound := by
  intro hbound
  obtain ⟨a', ha', hdev, -⟩ := (h.bound a.dev).mp hbound
  exact hfresh (List.mem_map.mpr ⟨a', ha', hdev⟩)

private theorem kept_probeCard (pci : PciDev → PciResources) (h : Kept done s)
    (hfresh : a.dev ∉ done.map (·.dev))
    (hnull : ∀ a' ∈ done ++ [a], a'.outcomes.requestIrq none ≠ 0) :
    Kept (done ++ [a]) (probeCard (accesio pci) s a) ∧
      (ModelsApart (done ++ [a]) → Served s → Served (probeCard (accesio pci) s a)) := by
  rcases probeCard_cases pci s a with ⟨hbinds, d, hd, heq⟩ | ⟨hnot, w, hw, heq⟩
  · have hkept : Kept (done ++ [a]) (boundCards pci s a d) := h.bind hfresh hnull hbinds hd
    rw [heq]
    refine ⟨hkept, ?_⟩
    rintro ⟨hapart, hadd⟩ hserved
    have hnodup : (nodeName d :: s.nodes.names).Nodup := hkept.nodup.mpr hapart
    obtain ⟨hname, hnames⟩ := List.nodup_cons.mp hnodup
    have hok := hadd a (List.mem_append_right _ List.mem_cons_self) hbinds
    exact hserved.bind (notMem_bound h hfresh) hname hok (length_names_lt h hnames)
  · rw [heq]
    refine ⟨h.refused hfresh hnot hw, ?_⟩
    intro _ hserved
    exact hserved.refused (notMem_bound h hfresh) hw

theorem ModelsApart.of_append {more : List Attached} (h : ModelsApart (done ++ more)) :
    ModelsApart done := by
  refine ⟨(List.pairwise_append.mp h.1).1, ?_⟩
  intro a ha
  exact h.2 a (List.mem_append_left _ ha)

theorem kept_probeAll (pci : PciDev → PciResources) (cards : List Attached) (h : Kept done s)
    (hdevs : ((done ++ cards).map (·.dev)).Nodup)
    (hnull : ∀ a ∈ done ++ cards, a.outcomes.requestIrq none ≠ 0) :
    Kept (done ++ cards) (probeAll (accesio pci) s cards) ∧
      (ModelsApart (done ++ cards) → Served s → Served (probeAll (accesio pci) s cards)) := by
  induction cards generalizing done s with
  | nil =>
      rw [List.append_nil]
      exact ⟨h, fun _ hserved => hserved⟩
  | cons a cards ih =>
      have hsplit : done ++ a :: cards = done ++ [a] ++ cards := by simp
      rw [hsplit] at hdevs hnull ⊢
      have hfresh : a.dev ∉ done.map (·.dev) := by
        rw [List.map_append, List.map_append] at hdevs
        have hfront := (List.nodup_append'.mp hdevs).1
        exact fun hmem => (List.nodup_append'.mp hfront).2.2 hmem List.mem_cons_self
      have hnull' : ∀ a' ∈ done ++ [a], a'.outcomes.requestIrq none ≠ 0 :=
        fun a' ha' => hnull a' (List.mem_append_left _ ha')
      obtain ⟨hkept, hserve⟩ := kept_probeCard pci h hfresh hnull'
      obtain ⟨hall, hserveAll⟩ := ih hkept hdevs hnull
      refine ⟨hall, ?_⟩
      intro hapart hserved
      exact hserveAll hapart (hserve hapart.of_append hserved)

theorem Served.ownNodes (h : Served s) (hnames : s.nodes.names.Nodup) : OwnNodes s := by
  refine ⟨hnames, h.created, ?_⟩
  intro dev hdev
  obtain ⟨b, hb⟩ := h.numbered.boundTo dev hdev
  obtain ⟨d, hd, hmem⟩ := h.nodes dev hdev b hb
  exact ⟨b, d, hb, hd, hmem, h.numbered.opens dev hdev b hb⟩

theorem Kept.modelsApart (h : Kept done s) (hdevs : (done.map (·.dev)).Nodup)
    (hown : OwnNodes s) : ModelsApart done := by
  refine ⟨h.nodup.mp hown.names, ?_⟩
  intro a ha hbinds
  obtain ⟨b, d, hb, -, -, hopens⟩ := hown.opened a.dev ((h.bound _).mpr ⟨a, ha, rfl, hbinds⟩)
  obtain ⟨-, a', ha', hadd, b', hb', hcontext⟩ := h.cdev _ _ hopens.1
  -- Both contexts are the same memory, so both cards are the same.
  have hsame : b'.contents = b.contents := by
    have hlive := hb'.2.1
    rw [hcontext, hb.2.1] at hlive
    exact (Option.some.inj hlive).symm
  have hdev : a'.dev = a.dev := by
    have hpci := hb'.2.2.1
    rw [hsame, hb.2.2.1] at hpci
    exact (Option.some.inj hpci).symm
  rw [List.inj_on_of_nodup_map hdevs ha ha' hdev.symm]
  exact hadd

/-- Probing a list of cards gives every bound card its own node exactly when no
two of the bound cards are of one model, as long as `cdev_add` succeeds. -/
theorem ownNodes_iff_modelsApart (pci : PciDev → PciResources) (o : Outcomes)
    (cards : List Attached) (hdevs : (cards.map (·.dev)).Nodup)
    (hnull : ∀ a ∈ cards, a.outcomes.requestIrq none ≠ 0) :
    OwnNodes (probeAll (accesio pci) (unprobed (accesio pci) o) cards) ↔ ModelsApart cards := by
  have hstart := kept_unprobed (accesio pci) o
  obtain ⟨hkept, hserve⟩ := kept_probeAll pci cards hstart hdevs hnull
  constructor
  · exact hkept.modelsApart hdevs
  · intro hapart
    have hserved := hserve hapart (served_unprobed (accesio pci) o)
    exact hserved.ownNodes (hkept.nodup.mpr hapart.1)

theorem ownNodes_two_models :
    OwnNodes (probeAll (accesio oneBar) (unprobed (accesio oneBar) allSucceed)
      [⟨1, 0x0100, allSucceed⟩, ⟨2, 0x0101, allSucceed⟩]) := by
  refine (ownNodes_iff_modelsApart oneBar allSucceed _ (by decide) ?_).mpr ⟨?_, ?_⟩
  · intro a ha
    simp only [List.mem_cons, List.not_mem_nil, or_false] at ha
    rcases ha with rfl | rfl <;> decide
  · simp [SameModel]
  · intro a ha _
    simp only [List.mem_cons, List.not_mem_nil, or_false] at ha
    rcases ha with rfl | rfl <;> rfl

/-- The second of two mPCIe-DIO-24S cards goes without a node. -/
theorem two_cards_of_one_model :
    ¬∀ (pci : PciDev → PciResources) (o : Outcomes) (cards : List Attached),
      (cards.map (·.dev)).Nodup →
      (∀ a ∈ cards, a.device ∈ accesioPciDeviceDescriptors.map (·.pid) ∧
        a.outcomes.requestIrq none ≠ 0 ∧ a.outcomes.cdevAdd = 0) →
      OwnNodes (probeAll (accesio pci) (unprobed (accesio pci) o) cards) := by
  intro hall
  let cards : List Attached := [⟨1, 0x0100, allSucceed⟩, ⟨2, 0x0100, allSucceed⟩]
  have hcards : ∀ a ∈ cards, a.device ∈ accesioPciDeviceDescriptors.map (·.pid) ∧
      a.outcomes.requestIrq none ≠ 0 ∧ a.outcomes.cdevAdd = 0 := by
    intro a ha
    simp only [cards, List.mem_cons, List.not_mem_nil, or_false] at ha
    rcases ha with rfl | rfl <;> exact ⟨by decide, by decide, rfl⟩
  have hdevs : (cards.map (·.dev)).Nodup := by decide
  have hown := hall oneBar allSucceed cards hdevs hcards
  have hkept := (kept_probeAll oneBar cards (kept_unprobed (accesio oneBar) allSucceed) hdevs
    fun a ha => (hcards a ha).2.1).1
  have hbinds : ∀ a ∈ cards, GetsBound a := by
    intro a ha
    simp only [cards, List.mem_cons, List.not_mem_nil, or_false] at ha
    rcases ha with rfl | rfl <;> exact ⟨_, rfl, ⟨rfl, rfl, rfl⟩, rfl, fun _ => rfl⟩
  have hapart := (hkept.modelsApart hdevs hown).1
  have hfirst := List.rel_of_pairwise_cons hapart (List.mem_cons_self)
  exact hfirst (hbinds _ (by simp [cards])) (hbinds _ (by simp [cards])) (.inl rfl)

end Aiowdm.Proofs.NodeNames
