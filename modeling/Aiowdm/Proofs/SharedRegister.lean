import Aiowdm.Proofs.DefaultBar
import Aiowdm.Proofs.IrqDelivery
import Aiowdm.Proofs.RegisterBounds

/-!
# One register for the program and the isr

The isr of an ADIO16F card polls and acknowledges the register at 0x40 of BAR 2.  A
program reaches offset 0x40 of the default BAR, which is the same register where
probe has set the default BAR to 2.
-/

namespace Aiowdm.Proofs.SharedRegister

open Aiowdm.Lib Aiowdm.Driver Aiowdm.Driver.Bus Aiowdm.Driver.DeviceContext
open Aiowdm.Driver.DeviceTable Aiowdm.Driver.InterruptStyles Aiowdm.Driver.Kernel
open Aiowdm.Driver.Probe Aiowdm.Driver.RegisterIo Aiowdm.Library.Registers
open Aiowdm.Driver.ModuleRuns (Binding bindingOf)
open Aiowdm.Driver.IrqWait (WaitFlags)
open Aiowdm.Proofs.DefaultBar Aiowdm.Proofs.IrqDelivery Aiowdm.Proofs.ProbeEffect
open Aiowdm.Proofs.ProbeStatus Aiowdm.Proofs.RegisterBounds Aiowdm.Proofs.Teardown

/-! ## Runs of a bound card -/

inductive Action where
  | registerIo (request : RegisterIoContext)
  | relOutPortL (value : BitVec 32)
  | interrupt

inductive Event where
  | registerIo (request : RegisterIoContext) (accesses : List BusCall)
  | relOutPortL (accesses : List BusCall)
  | interrupt (accesses : List BusCall)

structure State (σ : Type) where
  regs : σ
  flags : WaitFlags

variable {σ : Type}

def styleOf (c : Context) : Option Style := c.descriptor.bind (·.isr)

/-- `c` is the context of the card.  `RelOutPortL` is called with the register 0x40. -/
def step (card : Handler bus σ) (c : Context) (s : State σ) : Action → Option (Event × State σ)
  | .registerIo request =>
      let r := (ioctlAccesioPciRegisterIo c).exec (card.record.sum buffer) ((s.regs, []), request)
      some (.registerIo request r.2.1.2, { s with regs := r.2.1.1 })
  | .relOutPortL value =>
      let r := (relOutPortL (fun _ => 3) 0 0x40 value).exec
        (driver card.record fun _ => c) (s.regs, [])
      some (.relOutPortL r.2.2, { s with regs := r.2.1 })
  | .interrupt =>
      (styleOf c).map fun style =>
        let r := style.interrupt.exec (card.record.sum contextHandler) ((s.regs, []), s.flags)
        (.interrupt r.2.1.2, ⟨r.2.1.1, r.2.2⟩)

def system (card : Handler bus σ) (c : Context) (s : State σ) : System (State σ) Action Event where
  init := s
  step := step card c

def Event.programmed : Event → List BusCall
  | .registerIo request accesses => if request.offset = 0x40 then accesses else []
  | .relOutPortL accesses => accesses
  | .interrupt _ => []

def Event.serviced : Event → List BusCall
  | .interrupt accesses => accesses
  | .registerIo _ _ | .relOutPortL _ => []

/-- Whatever a program reaches at the offset 0x40 is what the isr polls. -/
def SameRegister (log : List Event) : Prop :=
  ∀ e ∈ log, ∀ access ∈ e.programmed, ∀ e' ∈ log, ∀ polled ∈ e'.serviced,
    access.addr = polled.addr

/-! ## What each step accesses -/

def statusRegister : Addr := bar 2 0x40

def OnStatusRegister : isr.Call → Prop
  | .inl access => access.addr = statusRegister
  | .inr _ => True

private theorem accesses_of_every {α : Type} (card : Handler bus σ) {p : Prog isr α}
    (hp : p.Every OnStatusRegister) (regs : σ) (flags : WaitFlags) (before : List BusCall) :
    ∃ more : List BusCall, (∀ access ∈ more, access.addr = statusRegister) ∧
      (p.exec (card.record.sum contextHandler) ((regs, before), flags)).2.1.2 =
        List.append before more := by
  let OnlyAdds (s : (σ × List BusCall) × WaitFlags) : Prop :=
    ∃ more : List BusCall, (∀ access ∈ more, access.addr = statusRegister) ∧ s.1.2 = before ++ more
  have hstart : OnlyAdds ((regs, before), flags) := ⟨[], by simp, (List.append_nil before).symm⟩
  refine hp.exec_invariant (Q := OnlyAdds) ?_ hstart
  rintro (access | call) s hcall ⟨more, hmore, hs⟩
  · let added : List BusCall := [access]
    refine ⟨more ++ added, fun a ha => ?_, ?_⟩
    · rcases List.mem_append.mp ha with ha | ha
      · exact hmore a ha
      · rw [List.mem_singleton.mp ha]
        exact hcall
    · rw [← List.append_assoc, ← hs]
      rfl
  · exact ⟨more, hmore, hs⟩

theorem accesses_interrupt (card : Handler bus σ) (regs : σ) (flags : WaitFlags) :
    ∃ more, (∀ access ∈ more, access.addr = statusRegister) ∧
      (Style.adio16f.interrupt.exec (card.record.sum contextHandler)
        ((regs, []), flags)).2.1.2 = .ioread .dword statusRegister :: more := by
  have hevery : interruptAdio16fStyle.Every OnStatusRegister :=
    every_interruptAdio16fStyle rfl (fun _ => rfl) fun _ => trivial
  exact accesses_of_every card (hevery.2 _) _ flags [.ioread .dword statusRegister]

private theorem accesses_registerIo (card : Handler bus σ) (c : Context) (regs : σ)
    (request : RegisterIoContext) :
    ((ioctlAccesioPciRegisterIo c).exec (card.record.sum buffer) ((regs, []), request)).2.1.2 =
      (access c request).toList :=
  accesses_ioctl card buffer regs request c

private theorem addr_of_mem_access {c : Context} {request : RegisterIoContext} {a : BusCall}
    (ha : a ∈ (access c request).toList) : a.addr = registerAddr c request := by
  rw [Option.mem_toList] at ha
  cases hw : widthOfSize request.size with
  | none => simp [access, hw] at ha
  | some w =>
      obtain ⟨a', ha', haddr, -⟩ := exists_access c request hw
      rw [ha'] at ha
      rw [← Option.some.inj ha]
      exact haddr

theorem accesses_relOutPortL (card : Handler bus σ) (c : Context) (regs : σ) (value : BitVec 32) :
    ((relOutPortL (fun _ => 3) 0 0x40 value).exec (driver card.record fun _ => c)
      (regs, [])).2.2 = [.iowrite .dword value (bar c.defaultBar 0x40)] :=
  (exec_relOut card regs (fun _ => c) (fun _ => 3) 0 0x40 .dword value).2

theorem step_interrupt (card : Handler bus σ) {c : Context} (hstyle : styleOf c = some .adio16f)
    (s s₀ : State σ) :
    let r := Style.adio16f.interrupt.exec (card.record.sum contextHandler) ((s.regs, []), s.flags)
    (system card c s₀).step s .interrupt = some (.interrupt r.2.1.2, ⟨r.2.1.1, r.2.2⟩) := by
  simp only [system, step, hstyle, Option.map_some]

/-- A step programs the register at 0x40 of the default BAR, and services the one at
0x40 of BAR 2. -/
theorem step_accesses {card : Handler bus σ} {c : Context} (hstyle : styleOf c = some .adio16f)
    {s s' : State σ} {a : Action} {e : Event} (h : step card c s a = some (e, s')) :
    (∀ access ∈ e.programmed, access.addr = bar c.defaultBar 0x40) ∧
      ∀ access ∈ e.serviced, access.addr = statusRegister := by
  cases a with
  | registerIo request =>
      simp only [step, Option.some.injEq, Prod.mk.injEq] at h
      obtain ⟨rfl, -⟩ := h
      refine ⟨fun access haccess => ?_, by simp [Event.serviced]⟩
      simp only [Event.programmed, accesses_registerIo] at haccess
      split_ifs at haccess with hoffset
      · rw [addr_of_mem_access haccess, registerAddr, hoffset]
        rfl
      · cases haccess
  | relOutPortL value =>
      simp only [step, Option.some.injEq, Prod.mk.injEq] at h
      obtain ⟨rfl, -⟩ := h
      refine ⟨fun access haccess => ?_, by simp [Event.serviced]⟩
      simp only [Event.programmed, accesses_relOutPortL] at haccess
      rw [List.mem_singleton.mp haccess]
      rfl
  | interrupt =>
      cases (step_interrupt card hstyle s s).symm.trans h
      obtain ⟨more, hmore, hacc⟩ := accesses_interrupt card s.regs s.flags
      refine ⟨by simp [Event.programmed], fun access haccess => ?_⟩
      rcases List.mem_cons.mp (hacc ▸ haccess) with rfl | haccess
      · rfl
      · exact hmore access haccess

theorem run_accesses {card : Handler bus σ} {c : Context} (hstyle : styleOf c = some .adio16f)
    {s s' : State σ} {log : List Event} (h : Run (system card c s) log s') :
    ∀ e ∈ log, (∀ access ∈ e.programmed, access.addr = bar c.defaultBar 0x40) ∧
      ∀ access ∈ e.serviced, access.addr = statusRegister := by
  induction h with
  | init => simp
  | step _ _ hs ih =>
      intro e he
      rcases List.mem_cons.mp he with rfl | he
      · exact step_accesses hstyle hs
      · exact ih e he

/-! ## The same register -/

/-- Runs of a card keep to one register exactly where its default BAR is 2. -/
theorem sameRegister_iff_defaultBar (card : Handler bus σ) {c : Context}
    (hstyle : styleOf c = some .adio16f) (s : State σ) :
    (∀ log s', Run (system card c s) log s' → SameRegister log) ↔ c.defaultBar = 2 := by
  constructor
  · intro hall
    -- One write by the program, then one interrupt.
    let written := (relOutPortL (fun _ => 3) 0 0x40 0).exec (driver card.record fun _ => c)
      (s.regs, [])
    have hprogram : Run (system card c s) [.relOutPortL written.2.2] ⟨written.2.1, s.flags⟩ :=
      Run.init.step (a := .relOutPortL 0) rfl
    have hboth := hprogram.step (a := .interrupt) (step_interrupt card hstyle _ s)
    have hwritten := accesses_relOutPortL card c s.regs 0
    obtain ⟨more, -, hpolled⟩ := accesses_interrupt card written.2.1 s.flags
    have hsame : bar c.defaultBar 0x40 = statusRegister := by
      refine hall _ _ hboth _ (List.mem_cons_of_mem _ List.mem_cons_self)
        (.iowrite .dword (0 : BitVec 32) (bar c.defaultBar 0x40)) ?_ _ List.mem_cons_self
        (.ioread .dword statusRegister) ?_
      · exact hwritten ▸ List.mem_cons_self
      · exact hpolled ▸ List.mem_cons_self
    exact Base.bar.inj (congrArg Addr.base hsame)
  · intro hbar log s' hrun e he access haccess e' he' polled hpolled
    rw [(run_accesses hstyle hrun e he).1 access haccess,
      (run_accesses hstyle hrun e' he').2 polled hpolled, hbar]
    rfl

theorem defaultBar_boundContext_eq_two (card : PciResources) (o : Outcomes) (dev : PciDev)
    (d : DeviceDescriptor) (w : World) :
    (boundContext card o dev d w).defaultBar = 2 ↔ d.pid ∈ defaultBarOverrides := by
  rw [defaultBar_boundContext]
  split_ifs with hover hio <;> simp [hover]

private theorem overridden_rows : ∀ d ∈ accesioPciDeviceDescriptors, d.isr = some .adio16f →
    (d.pid ∈ defaultBarOverrides ↔ d.pid = 0xc2ef) := by
  decide +kernel

/-- Of an ADIO16F card, whatever its BARs, every run of requests and interrupts keeps
to the register of the isr exactly where the default BAR is overridden by its id, which
of the family it is for 0xc2ef only. -/
theorem sameRegister_iff_overridden (pci : PciDev → PciResources) (o : Outcomes)
    {table : List DeviceDescriptor} (dev : PciDev) {device : Nat} {d : DeviceDescriptor}
    (hd : lookupDescriptor table device = some d) (hisr : d.isr = some .adio16f) (w : World)
    (hret : ((accesioPciDriverProbe table dev device).exec (handler pci o) w).1 = .returned 0) :
    (∃ b, bindingOf ((accesioPciDriverProbe table dev device).exec (handler pci o) w).2 dev =
        some b ∧ ∀ (σ : Type) (card : Handler bus σ) (s : State σ),
          (∀ log s', Run (system card b.contents s) log s' → SameRegister log) ↔
            d.pid ∈ defaultBarOverrides) ∧
      ∀ d ∈ accesioPciDeviceDescriptors, d.isr = some .adio16f →
        (d.pid ∈ defaultBarOverrides ↔ d.pid = 0xc2ef) := by
  refine ⟨⟨_, bindingOf_of_returned hd hret, fun σ card s => ?_⟩, overridden_rows⟩
  have hstyle : styleOf (boundContext (pci dev) o dev d w) = some .adio16f := hisr
  rw [sameRegister_iff_defaultBar card hstyle s]
  exact defaultBar_boundContext_eq_two (pci dev) o dev d w

theorem sameRegister_iff_overridden_pcieAdio1616fds :
    let d : DeviceDescriptor :=
      { withStyle 0xc2ef "pcie-adio16-16fds" .adio16f with hasDma := true }
    ∃ b, bindingOf ((accesioPciDriverProbe [d] 1 0xc2ef).exec (handler bridged allSucceed)
        .fresh).2 1 = some b ∧ ∀ (σ : Type) (card : Handler bus σ) (s : State σ),
          (∀ log s', Run (system card b.contents s) log s' → SameRegister log) ↔
            d.pid ∈ defaultBarOverrides := by
  refine (sameRegister_iff_overridden bridged allSucceed 1 rfl rfl .fresh ?_).1
  rw [ending_accesioPciDriverProbe]
  decide

/-- A program that writes to 0x40 of a PCIe-ADIO16-16F reaches its memory BAR 1. -/
theorem register_not_shared :
    ¬∀ d ∈ accesioPciDeviceDescriptors, d.isr = some .adio16f →
      ∀ (pci : PciDev → PciResources) (o : Outcomes) (dev : PciDev) (w : World) (b : Binding),
        Maps (pci dev) o 2 →
        ((accesioPciDriverProbe accesioPciDeviceDescriptors dev d.pid).exec (handler pci o) w).1 =
          .returned 0 →
        bindingOf ((accesioPciDriverProbe accesioPciDeviceDescriptors dev d.pid).exec
          (handler pci o) w).2 dev = some b →
        ∀ (card : Handler bus Unit) (s : State Unit) (log : List Event) (s' : State Unit),
          Run (system card b.contents s) log s' → SameRegister log := by
  intro hall
  have hrow : { withStyle 0xc2ec "pcie-adio16-16f" .adio16f with hasDma := true } ∈
      accesioPciDeviceDescriptors := by decide +kernel
  generalize hcard : { withStyle 0xc2ec "pcie-adio16-16f" .adio16f with hasDma := true } = d
    at hrow
  have hpid : d.pid ∉ defaultBarOverrides := by
    rw [← hcard]
    decide
  have hisr : d.isr = some .adio16f := by
    rw [← hcard]
    rfl
  have hd := lookupDescriptor_of_mem pids_nodup hrow
  have hret := returned_allSucceed bridged hd hisr 1 .fresh
  have hruns := hall d hrow hisr bridged allSucceed 1 .fresh _ ⟨by decide, by decide⟩ hret
    (bindingOf_of_returned hd hret) allOnes ⟨(), .zeroed⟩
  have hstyle : styleOf (boundContext (bridged 1) allSucceed 1 d .fresh) = some .adio16f := hisr
  have hdefault := (sameRegister_iff_defaultBar allOnes hstyle _).mp hruns
  exact hpid ((defaultBar_boundContext_eq_two _ _ _ _ _).mp hdefault)

end Aiowdm.Proofs.SharedRegister
