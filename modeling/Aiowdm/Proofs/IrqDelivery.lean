import Aiowdm.Driver.DeviceTable
import Aiowdm.Proofs.IrqSlot

/-!
# Which interrupts reach a waiter

An interrupt function runs against any register file and the flags of its
context.  All styles but ADIO16F share one shape, in which nothing touches the
flags, so what they handle stays unknown to a thread in WAIT.
-/

namespace Aiowdm.Proofs.IrqDelivery

open Aiowdm.Lib Aiowdm.Driver Aiowdm.Driver.Bus Aiowdm.Driver.InterruptStyles
open Aiowdm.Driver.DeviceTable Aiowdm.Driver.IrqWait Aiowdm.Proofs.IrqSlot

/-! ## Running an interrupt function -/

/-- The section under `irq_lock`, with the lock free.  `wake_up_interruptible` changes no
flag. -/
def contextHandler : Handler context WaitFlags
  | .spinLock, flags => ((), flags)
  | .spinUnlock, flags => ((), flags)
  | .loadWaitingForIrq, flags => (flags.waitingForIrq, flags)
  | .storeWaitingForIrq value, flags => ((), { flags with waitingForIrq := value })
  | .wakeUpInterruptible, flags => ((), flags)

variable {σ : Type}

def runInterrupt (card : Handler bus σ) (style : Style) (regs : σ) (flags : WaitFlags) :
    IrqReturn × σ × WaitFlags :=
  style.interrupt.exec (card.sum contextHandler) (regs, flags)

/-- The program of the section does to the flags what the section does as a step. -/
theorem exec_accesioNotifyUser (flags : WaitFlags) :
    InterruptStyles.accesioNotifyUser.exec contextHandler flags =
      ((), IrqWait.accesioNotifyUser flags) := by
  by_cases hw : flags.waitingForIrq = 0
  · simp [InterruptStyles.accesioNotifyUser, contextHandler, IrqWait.accesioNotifyUser, hw]
    rfl
  · simp [InterruptStyles.accesioNotifyUser, contextHandler, IrqWait.accesioNotifyUser, hw]
    rfl

def readLatch (card : Handler bus σ) (latch : Latch) (regs : σ) : BitVec 8 :=
  (card (BusCall.ioread .byte latch.addr) regs).1

def Latched (card : Handler bus σ) (latch : Latch) (regs : σ) : Prop :=
  readLatch card latch regs &&& latch.mask ≠ 0

private theorem exec_leaveIfNotLatched (card : Handler bus σ) (latch : Latch)
    (acknowledge : Prog bus Unit) (regs : σ) (flags : WaitFlags) :
    let done := (leaveIfNotLatched latch acknowledge).exec (card.sum contextHandler) (regs, flags)
    (done.1 = .handled ↔ Latched card latch regs) ∧ done.2.2 = flags := by
  have hread : (ioread8 latch.addr).exec card regs =
      (readLatch card latch regs, (card (BusCall.ioread .byte latch.addr) regs).2) := rfl
  simp only [leaveIfNotLatched, Prog.exec_bind, Prog.exec_inl, hread, Latched]
  by_cases hl : readLatch card latch regs &&& latch.mask = 0
  · simp [hl]
  · rw [if_neg hl]
    simpa using hl

/-- Every style but ADIO16F leaves on its latch and otherwise only acknowledges. -/
theorem exists_interrupt_eq {style : Style} (h : style ≠ .adio16f) :
    ∃ latch acknowledge, style.latch = some latch ∧
      style.interrupt = leaveIfNotLatched latch acknowledge := by
  cases style
  case adio16f => exact absurd rfl h
  all_goals exact ⟨_, _, rfl, rfl⟩

private theorem flags_of_handled_adio16f (card : Handler bus σ) (regs : σ) (flags : WaitFlags)
    (h : (runInterrupt card .adio16f regs flags).1 = .handled) :
    (runInterrupt card .adio16f regs flags).2.2 = IrqWait.accesioNotifyUser flags := by
  obtain ⟨status, regs', hread⟩ : ∃ (status : BitVec 32) (regs' : σ),
      (ioread32 (bar 2 0x40)).exec card regs = (status, regs') := ⟨_, _, rfl⟩
  simp only [runInterrupt, Style.interrupt, interruptAdio16fStyle, Prog.exec_bind, Prog.exec_inl,
    hread] at h ⊢
  by_cases hs : status &&& ADIO16F_INTERRUPT_MASK = 0
  · simp [hs] at h
  · rw [if_neg hs]
    simp [exec_accesioNotifyUser]

/-! ## Every handled interrupt reaches the waiter -/

variable {τ : Type} [DecidableEq τ]

/-- If the interrupt function handles the interrupt, the slot is empty when it
returns and every WAIT accepted before has been released. -/
def ReachesWaiter (card : Handler bus σ) (style : Style) (regs : σ) (log : List (Event τ))
    (s : State τ) : Prop :=
  let flags := (runInterrupt card style regs s.flags).2.2
  (runInterrupt card style regs s.flags).1 = .handled → flags.waitingForIrq = 0 ∧
    ∀ t, waitStatus t log ≠ .none →
      ∃ r, waitStatus t (.notify (released s.flags flags) :: log) = .releasedBy r

private theorem releases_of_notify {log : List (Event τ)} {s : State τ} (h : Run (system τ) log s) :
    let flags := IrqWait.accesioNotifyUser s.flags
    flags.waitingForIrq = 0 ∧ ∀ t, waitStatus t log ≠ .none →
      ∃ r, waitStatus t (.notify (released s.flags flags) :: log) = .releasedBy r := by
  by_cases hw : s.flags.waitingForIrq = 0
  · refine ⟨by simp [IrqWait.accesioNotifyUser, hw], fun t ht => ?_⟩
    have hpending : waitStatus t log ≠ .pending := by
      intro hp
      have := waiting_of_pending h hp
      omega
    cases hstatus : waitStatus t log with
    | none => exact absurd hstatus ht
    | pending => exact absurd hstatus hpending
    | releasedBy r => exact ⟨r, by simp [released, hw, waitStatus, hstatus]⟩
  · refine ⟨by simp [IrqWait.accesioNotifyUser, hw], fun t ht => ?_⟩
    have hrel : released s.flags (IrqWait.accesioNotifyUser s.flags) = true := by
      simp [released, IrqWait.accesioNotifyUser, hw]
    cases hstatus : waitStatus t log with
    | none => exact absurd hstatus ht
    | pending => exact ⟨.isr, by simp [hrel, waitStatus, hstatus, WaitStatus.release]⟩
    | releasedBy r => exact ⟨r, by simp [hrel, waitStatus, hstatus, WaitStatus.release]⟩

/-- A handled interrupt reaches the waiter exactly where nobody waits, where the
card is of the ADIO16F style, or where the latch is clear and nothing is handled. -/
theorem reachesWaiter_iff (d : DeviceDescriptor) {style : Style} (hisr : d.isr = some style)
    (card : Handler bus σ) (regs : σ) {log : List (Event τ)} {s : State τ}
    (h : Run (system τ) log s) :
    ReachesWaiter card style regs log s ↔
      s.flags.waitingForIrq = 0 ∨ d.isr = some .adio16f ∨
        ∃ latch, style.latch = some latch ∧ ¬Latched card latch regs := by
  have hnotify := releases_of_notify h
  by_cases hstyle : style = .adio16f
  · subst style
    refine iff_of_true ?_ (.inr (.inl hisr))
    unfold ReachesWaiter
    intro flags hhandled
    have hflags : flags = _ := flags_of_handled_adio16f card regs s.flags hhandled
    rw [hflags]
    exact hnotify
  · obtain ⟨latch, acknowledge, hlatch, hint⟩ := exists_interrupt_eq hstyle
    obtain ⟨hhandled, hflags⟩ := exec_leaveIfNotLatched card latch acknowledge regs s.flags
    have hreaches : ReachesWaiter card style regs log s ↔
        (Latched card latch regs → s.flags.waitingForIrq = 0 ∧ ∀ t, waitStatus t log ≠ .none →
          ∃ r, waitStatus t (.notify (released s.flags s.flags) :: log) = .releasedBy r) := by
      simp only [ReachesWaiter, runInterrupt, hint, hhandled, hflags]
    rw [hreaches]
    by_cases hw : s.flags.waitingForIrq = 0
    · have hsame : IrqWait.accesioNotifyUser s.flags = s.flags := by
        simp [IrqWait.accesioNotifyUser, hw]
      rw [hsame] at hnotify
      exact iff_of_true (fun _ => hnotify) (.inl hw)
    · simp [hw, hisr, hstyle, hlatch]

def allOnes : Handler bus Unit
  | .ioread w _, s => (BitVec.allOnes w.bits, s)
  | .iowrite _ _ _, s => ((), s)

/-- Thread 0 waits on a pcie-adio16-16fds with an event. -/
theorem reachesWaiter_iff_pcieAdio1616fds :
    ∃ s, Run (system Nat) [.accepted 0] s ∧ s.flags.waitingForIrq = 1 ∧
      (runInterrupt allOnes .adio16f () s.flags).1 = .handled ∧
      ReachesWaiter allOnes .adio16f () [.accepted (0 : Nat)] s := by
  have hwait := Run.init (M := system Nat) |>.step (a := .wait 0) rfl
  refine ⟨_, hwait, rfl, rfl, ?_⟩
  refine (reachesWaiter_iff { withStyle 0xc2ef "pcie-adio16-16fds" .adio16f with hasDma := true }
    rfl allOnes () hwait).mpr (.inr (.inl rfl))

/-- Thread 0 waits on an mPCIe-DIO-24S whose latched interrupt is acknowledged
and not passed on. -/
theorem handled_interrupt_not_passed_on :
    ¬∀ d ∈ accesioPciDeviceDescriptors, ∀ style, d.isr = some style →
      ∀ (card : Handler bus Unit) (log : List (Event Nat)) (s : State Nat),
        Run (system Nat) log s → ReachesWaiter card style () log s := by
  intro hall
  have hwait := Run.init (M := system Nat) |>.step (a := .wait 0) rfl
  have hreaches := hall (withStyle 0x0100 "mpcie-dio-24s" .pcie2) (by decide) .pcie2 rfl allOnes
    _ _ hwait
  exact absurd (hreaches rfl).1 (by decide)

end Aiowdm.Proofs.IrqDelivery
