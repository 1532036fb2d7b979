import Aiowdm.Driver.CardThreads
import Aiowdm.Proofs.IrqDelivery

/-!
# Where a thread is in its section

WAIT, CANCEL and the isr load and store the two flags of the context one at a time.
The places that a thread or the isr can be at, and what one step does from each of them.
-/

namespace Aiowdm.Proofs.SectionPlaces

open Aiowdm.Lib Aiowdm.Driver Aiowdm.Driver.CardThreads Aiowdm.Driver.DeviceContext
open Aiowdm.Driver.InterruptStyles Aiowdm.Driver.Ioctls
open Aiowdm.Driver.IrqWait (EALREADY ECANCELED WaitFlags)
open Aiowdm.Driver.Probe (Ending)
open Aiowdm.Proofs.IrqDelivery

variable {τ : Type}

/-! ## What a call means for the slot -/

def waitEvent (t : τ) : SlotCall → Int → Option (IrqWait.Event τ)
  | .loadWaitingForIrq, v => if v = 1 then some (.refused t (-EALREADY)) else none
  | .storeIrqCancelled _, _ => some (.accepted t)
  | .loadIrqCancelled, v => some (.returned t (if v = 1 then -ECANCELED else 0))
  | _, _ => none

def cancelEvent (t : τ) : SlotCall → Int → Option (IrqWait.Event τ)
  | .loadWaitingForIrq, v => if v = 0 then some (.cancel t (-EALREADY) false) else none
  | .storeIrqCancelled _, _ => some (.cancel t 0 true)
  | _, _ => none

def notifyEvent : ContextCall → Int → Option (IrqWait.Event τ)
  | .loadWaitingForIrq, v => if v = 0 then some (.notify false) else none
  | .storeWaitingForIrq _, _ => some (.notify true)
  | _, _ => none

/-- The call with which a section takes effect, as that section in one step. -/
def sectionEvent : Event τ → Option (IrqWait.Event τ)
  | .slot t cmd c v =>
      if cmd = ACCESIO_PCI_IRQ_WAIT then waitEvent t c v
      else if cmd = ACCESIO_PCI_IRQ_WAIT_CANCEL then cancelEvent t c v
      else none
  | .context c v => notifyEvent c v
  | _ => none

/-- A thread does not see how it woke up. -/
def withoutSleep : IrqWait.Event τ → Option (IrqWait.Event τ)
  | .asleep _ | .awake _ _ => none
  | e => some e

/-! ## What is left of an ioctl -/

def liftSlot (p : Prog slot Int) : Prog ioctls (Ending Int) := do
  return .returned (← p.inr.inr)

def waitRead : Prog slot Int := do
  if (← loadIrqCancelled) = 1 then
    return -ECANCELED
  return 0

def waitSleep : Prog slot Int := do
  let _ ← waitEventInterruptible
  waitRead

def waitUnlock : Prog slot Int := do
  spinUnlockIrqrestore
  waitSleep

def waitClear : Prog slot Int := do
  storeIrqCancelled 0
  waitUnlock

def waitAccept : Prog slot Int := do
  storeWaitingForIrq 1
  waitClear

def refuse : Prog slot Int := do
  spinUnlockIrqrestore
  return -EALREADY

def waitLocked : Prog slot Int := do
  let waiting ← loadWaitingForIrq
  if waiting = 1 then refuse else waitAccept

def cancelWake : Prog slot Int := do
  wakeUpInterruptible
  return 0

def cancelUnlock : Prog slot Int := do
  spinUnlockIrqrestore
  cancelWake

def cancelEmpty : Prog slot Int := do
  storeWaitingForIrq 0
  cancelUnlock

def cancelMark : Prog slot Int := do
  storeIrqCancelled 1
  cancelEmpty

def cancelLocked : Prog slot Int := do
  let waiting ← loadWaitingForIrq
  if waiting = 0 then refuse else cancelMark

/-! ## What is left of a run of the isr -/

def liftContext (p : Prog context Unit) : Prog isr IrqReturn := do
  p.inr
  return .handled

def notifyRelease : Prog context Unit := do
  spinUnlock
  InterruptStyles.wakeUpInterruptible

def notifyStore : Prog context Unit := do
  InterruptStyles.storeWaitingForIrq 0
  notifyRelease

def notifyLocked : Prog context Unit := do
  let waiting ← InterruptStyles.loadWaitingForIrq
  if waiting ≠ 0 then notifyStore else spinUnlock

/-! ## Places -/

/-- Where a thread or the isr is; `out` before it takes the lock, and `done` with what a
WAIT or a CANCEL is about to return. -/
inductive Place where
  | out
  | waitLocked | waitAccept | waitClear | waitUnlock | waitSleep | waitRead
  | cancelLocked | cancelMark | cancelEmpty | cancelUnlock | cancelWake
  | refuse
  | done (status : Int)
  | notifyLocked | notifyStore | notifyUnlock
deriving DecidableEq

namespace Place

def locked : Place → Bool
  | out | waitSleep | waitRead | cancelWake | done _ => false
  | _ => true

def status : Place → Option Int
  | refuse => some (-EALREADY)
  | cancelEmpty | cancelUnlock | cancelWake => some 0
  | done status => some status
  | _ => none

end Place

/-! ## Programs at their places -/

def isSlot : ioctls.Call → Bool
  | .inr (.inr _) => true
  | _ => false

abbrev atCall (cmd : BitVec 32) (c : SlotCall) (k : c.Reply → Prog slot Int) : Option Ioctl :=
  some ⟨cmd, .call (I := ioctls) (.inr (.inr c)) fun r => liftSlot (k r)⟩

def Waits (cmd : BitVec 32) : Prop :=
  cmd = ACCESIO_PCI_IRQ_WAIT ∨ cmd = ACCESIO_PCI_IRQ_WAIT_CANCEL

instance : DecidablePred Waits := fun _ => inferInstanceAs (Decidable (_ ∨ _))

/-- What a thread still has to do of its ioctl, and the place that it is at. -/
inductive ThreadAt : Option Ioctl → Place → Prop
  | idle : ThreadAt none .out
  | other {cmd : BitVec 32} {p : Prog ioctls (Ending Int)} :
      ¬Waits cmd → p.Every (fun c => isSlot c = false) → ThreadAt (some ⟨cmd, p⟩) .out
  | wait : ThreadAt (atCall ACCESIO_PCI_IRQ_WAIT .spinLockIrqsave fun _ => waitLocked) .out
  | waitLocked : ThreadAt (atCall ACCESIO_PCI_IRQ_WAIT .loadWaitingForIrq
      fun v : Int => if v = 1 then refuse else waitAccept) .waitLocked
  | waitAccept : ThreadAt (atCall ACCESIO_PCI_IRQ_WAIT (.storeWaitingForIrq 1)
      fun _ => waitClear) .waitAccept
  | waitClear : ThreadAt (atCall ACCESIO_PCI_IRQ_WAIT (.storeIrqCancelled 0)
      fun _ => waitUnlock) .waitClear
  | waitUnlock : ThreadAt (atCall ACCESIO_PCI_IRQ_WAIT .spinUnlockIrqrestore
      fun _ => waitSleep) .waitUnlock
  | waitSleep : ThreadAt (atCall ACCESIO_PCI_IRQ_WAIT .waitEventInterruptible
      fun _ => waitRead) .waitSleep
  | waitRead : ThreadAt (atCall ACCESIO_PCI_IRQ_WAIT .loadIrqCancelled
      fun v : Int => if v = 1 then .ret (-ECANCELED) else .ret 0) .waitRead
  | cancel : ThreadAt (atCall ACCESIO_PCI_IRQ_WAIT_CANCEL .spinLockIrqsave
      fun _ => cancelLocked) .out
  | cancelLocked : ThreadAt (atCall ACCESIO_PCI_IRQ_WAIT_CANCEL .loadWaitingForIrq
      fun v : Int => if v = 0 then refuse else cancelMark) .cancelLocked
  | cancelMark : ThreadAt (atCall ACCESIO_PCI_IRQ_WAIT_CANCEL (.storeIrqCancelled 1)
      fun _ => cancelEmpty) .cancelMark
  | cancelEmpty : ThreadAt (atCall ACCESIO_PCI_IRQ_WAIT_CANCEL (.storeWaitingForIrq 0)
      fun _ => cancelUnlock) .cancelEmpty
  | cancelUnlock : ThreadAt (atCall ACCESIO_PCI_IRQ_WAIT_CANCEL .spinUnlockIrqrestore
      fun _ => cancelWake) .cancelUnlock
  | cancelWake : ThreadAt (atCall ACCESIO_PCI_IRQ_WAIT_CANCEL .wakeUpInterruptible
      fun _ => .ret 0) .cancelWake
  | refuse {cmd : BitVec 32} : Waits cmd → ThreadAt (atCall cmd .spinUnlockIrqrestore
      fun _ => .ret (-EALREADY)) .refuse
  | done {cmd : BitVec 32} {status : Int} :
      Waits cmd → ThreadAt (some ⟨cmd, liftSlot (.ret status)⟩) (.done status)

private theorem threadAt_unlockedIoctl (pci : PciDev → PciResources)
    (starts : PciDev → Fin PCI_STD_NUM_BARS → BitVec 64) (context : Context) (cmd : BitVec 32) :
    ThreadAt (some ⟨cmd, accesioCharDriverUnlockedIoctl pci starts context cmd⟩) .out := by
  by_cases hwait : cmd = ACCESIO_PCI_IRQ_WAIT
  · subst hwait
    exact .wait
  by_cases hcancel : cmd = ACCESIO_PCI_IRQ_WAIT_CANCEL
  · subst hcancel
    exact .cancel
  refine .other (not_or.mpr ⟨hwait, hcancel⟩) ?_
  simp only [accesioCharDriverUnlockedIoctl, if_neg hwait, if_neg hcancel]
  split_ifs
  · exact Prog.Every.inr (Prog.every_inl_iff.mpr (Prog.Every.of_forall (fun _ => rfl) _))
  · trivial
  · trivial
  · refine Prog.Every.bind (Prog.every_inl_iff.mpr ?_) fun _ => trivial
    exact Prog.Every.of_forall (fun _ => rfl) _
  · trivial

/-- A run of the isr before it notifies a waiter, if it does at all. -/
inductive Leads : Prog isr IrqReturn → Prop
  | ret (r : IrqReturn) : Leads (.ret r)
  | access {c : Bus.BusCall} {k : c.Reply → Prog isr IrqReturn} :
      (∀ r, Leads (k r)) → Leads (.call (I := isr) (.inl c) k)
  | notify : Leads (.call (I := isr) (.inr .spinLock) fun _ => liftContext notifyLocked)

theorem Leads.of_every {p : Prog isr IrqReturn} (hp : p.Every fun c => Sum.isLeft c = true) :
    Leads p := by
  induction p with
  | ret r => exact .ret r
  | call c k ih =>
      rcases c with c | c
      · exact .access fun r => ih r (hp.2 r)
      · cases hp.1

private theorem leads_interrupt (style : Style) : Leads style.interrupt := by
  by_cases hstyle : style = .adio16f
  · subst hstyle
    refine .access fun irqStatus : BitVec 32 => ?_
    change Leads (if irqStatus &&& ADIO16F_INTERRUPT_MASK = 0 then .ret .none else _)
    split
    · exact .ret .none
    · exact .access fun _ => .notify
  · obtain ⟨latch, acknowledge, -, hint⟩ := exists_interrupt_eq hstyle
    rw [hint]
    refine .of_every (every_leaveIfNotLatched rfl (Prog.every_inl_iff.mpr ?_))
    exact Prog.Every.of_forall (fun _ => rfl) _

abbrev isrAtCall (c : ContextCall) (k : c.Reply → Prog context Unit) :
    Option (Prog isr IrqReturn) :=
  some (.call (I := isr) (.inr c) fun r => liftContext (k r))

inductive IsrAt : Option (Prog isr IrqReturn) → Place → Prop
  | idle : IsrAt none .out
  | leads {p : Prog isr IrqReturn} : Leads p → IsrAt (some p) .out
  | locked : IsrAt (isrAtCall .loadWaitingForIrq
      fun v : Int => if v ≠ 0 then notifyStore else spinUnlock) .notifyLocked
  | store : IsrAt (isrAtCall (.storeWaitingForIrq 0) fun _ => notifyRelease) .notifyStore
  | release : IsrAt (isrAtCall .spinUnlock fun _ => InterruptStyles.wakeUpInterruptible)
      .notifyUnlock
  | pass : IsrAt (isrAtCall .spinUnlock fun _ => .ret ()) .notifyUnlock
  | wake : IsrAt (isrAtCall .wakeUpInterruptible fun _ => .ret ()) .out

/-! ## What a step does -/

def returnedStatus : Event τ → Option (τ × Int)
  | .returned t cmd status => if Waits cmd then some (t, status) else none
  | _ => none

/-- One step of `a`: the place, the lock and the flags before it, what it is in the
protocol and what it returns, and the place, the lock and the flags after it. -/
inductive Moves : Agent τ → Place → Option (Agent τ) → WaitFlags → Option (IrqWait.Event τ) →
    Option (τ × Int) → Place → Option (Agent τ) → WaitFlags → Prop
  | outside {a : Agent τ} {lock : Option (Agent τ)} {flags : WaitFlags} :
      Moves a .out lock flags none none .out lock flags
  | enter {a : Agent τ} {p : Place} {flags : WaitFlags} :
      p = .waitLocked ∨ p = .cancelLocked ∨ p = .notifyLocked →
      Moves a .out none flags none none p (some a) flags
  | refused {u : τ} {lock : Option (Agent τ)} {flags : WaitFlags} : flags.waitingForIrq = 1 →
      Moves (.thread u) .waitLocked lock flags (some (.refused u (-EALREADY))) none
        .refuse lock flags
  | mayWait {u : τ} {lock : Option (Agent τ)} {flags : WaitFlags} : flags.waitingForIrq ≠ 1 →
      Moves (.thread u) .waitLocked lock flags none none .waitAccept lock flags
  | accept {u : τ} {lock : Option (Agent τ)} {flags : WaitFlags} :
      Moves (.thread u) .waitAccept lock flags none none
        .waitClear lock { flags with waitingForIrq := 1 }
  | clear {u : τ} {lock : Option (Agent τ)} {flags : WaitFlags} :
      Moves (.thread u) .waitClear lock flags (some (.accepted u)) none
        .waitUnlock lock { flags with irqCancelled := 0 }
  | waitUnlock {u : τ} {lock : Option (Agent τ)} {flags : WaitFlags} :
      Moves (.thread u) .waitUnlock lock flags none none .waitSleep none flags
  | awake {u : τ} {lock : Option (Agent τ)} {flags : WaitFlags} :
      Moves (.thread u) .waitSleep lock flags none none .waitRead lock flags
  | read {u : τ} {lock : Option (Agent τ)} {flags : WaitFlags} :
      Moves (.thread u) .waitRead lock flags
        (some (.returned u (IrqWait.ioctlAccesioPciIrqWaitFinish flags))) none
        (.done (IrqWait.ioctlAccesioPciIrqWaitFinish flags)) lock flags
  | cancelRefused {u : τ} {lock : Option (Agent τ)} {flags : WaitFlags} :
      flags.waitingForIrq = 0 →
      Moves (.thread u) .cancelLocked lock flags (some (.cancel u (-EALREADY) false)) none
        .refuse lock flags
  | mayCancel {u : τ} {lock : Option (Agent τ)} {flags : WaitFlags} : flags.waitingForIrq ≠ 0 →
      Moves (.thread u) .cancelLocked lock flags none none .cancelMark lock flags
  | mark {u : τ} {lock : Option (Agent τ)} {flags : WaitFlags} :
      Moves (.thread u) .cancelMark lock flags (some (.cancel u 0 true)) none
        .cancelEmpty lock { flags with irqCancelled := 1 }
  | empty {u : τ} {lock : Option (Agent τ)} {flags : WaitFlags} :
      Moves (.thread u) .cancelEmpty lock flags none none
        .cancelUnlock lock { flags with waitingForIrq := 0 }
  | cancelUnlock {u : τ} {lock : Option (Agent τ)} {flags : WaitFlags} :
      Moves (.thread u) .cancelUnlock lock flags none none .cancelWake none flags
  | wake {u : τ} {lock : Option (Agent τ)} {flags : WaitFlags} :
      Moves (.thread u) .cancelWake lock flags none none (.done 0) lock flags
  | refuse {u : τ} {lock : Option (Agent τ)} {flags : WaitFlags} :
      Moves (.thread u) .refuse lock flags none none (.done (-EALREADY)) none flags
  | finish {u : τ} {status : Int} {lock : Option (Agent τ)} {flags : WaitFlags} :
      Moves (.thread u) (.done status) lock flags none (some (u, status)) .out lock flags
  | nobody {lock : Option (Agent τ)} {flags : WaitFlags} : flags.waitingForIrq = 0 →
      Moves .isr .notifyLocked lock flags (some (.notify false)) none .notifyUnlock lock flags
  | somebody {lock : Option (Agent τ)} {flags : WaitFlags} : flags.waitingForIrq ≠ 0 →
      Moves .isr .notifyLocked lock flags none none .notifyStore lock flags
  | notify {lock : Option (Agent τ)} {flags : WaitFlags} :
      Moves .isr .notifyStore lock flags (some (.notify true)) none
        .notifyUnlock lock { flags with waitingForIrq := 0 }
  | notifyUnlock {lock : Option (Agent τ)} {flags : WaitFlags} :
      Moves .isr .notifyUnlock lock flags none none .out none flags

variable [DecidableEq τ]
variable {pci : PciDev → PciResources} {starts : PciDev → Fin PCI_STD_NUM_BARS → BitVec 64}
variable {context : Context} {s s' : State τ} {e : Event τ} {p : Place}

structure ThreadStep (u : τ) (p : Place) (s : State τ) (e : Event τ) (s' : State τ)
    (q : Place) : Prop where
  thread : ThreadAt (s'.ioctls u) q
  others : ∀ v, v ≠ u → s'.ioctls v = s.ioctls v
  isr : s'.isr = s.isr
  moves : Moves (.thread u) p s.lock s.flags (sectionEvent e) (returnedStatus e) q
    s'.lock s'.flags

theorem setIoctl_self (s : State τ) (u : τ) (x : Option Ioctl) :
    (s.setIoctl u x).ioctls u = x := by
  simp [State.setIoctl]

private theorem setIoctl_of_ne (s : State τ) {u v : τ} (x : Option Ioctl) (h : v ≠ u) :
    (s.setIoctl u x).ioctls v = s.ioctls v := by
  simp [State.setIoctl, h]

theorem ThreadStep.intro {u : τ} {q : Place} {x : Option Ioctl} {lock : Option (Agent τ)}
    {flags : WaitFlags} (hx : ThreadAt x q)
    (hmoves : Moves (.thread u) p s.lock s.flags (sectionEvent e) (returnedStatus e) q lock
      flags) :
    ThreadStep u p s e (({ s with lock, flags } : State τ).setIoctl u x) q where
  thread := by rwa [setIoctl_self]
  others v hv := setIoctl_of_ne _ x hv
  isr := rfl
  moves := hmoves

theorem step_atCall {u : τ} {answers : Answers} {cmd : BitVec 32} {c : SlotCall}
    {k : c.Reply → Prog slot Int} (hx : s.ioctls u = atCall cmd c k)
    (hs : step pci starts context s (.step u answers) = some (e, s')) :
    ∃ r s₁, slotCall s u c = some (r, s₁) ∧ e = .slot u cmd c (slotValue c r) ∧
      s' = s₁.setIoctl u (some ⟨cmd, liftSlot (k r)⟩) := by
  simp only [step, hx, ioctlCall, Option.map_map, Option.map_eq_some_iff] at hs
  obtain ⟨⟨r, s₁⟩, hcall, hres⟩ := hs
  cases hres
  exact ⟨r, s₁, hcall, rfl, rfl⟩

omit [DecidableEq τ] in
theorem ioctlCall_of_not_slot {u : τ} {answers : Answers} {cmd : BitVec 32} {c : ioctls.Call}
    {r : ioctls.Reply c} {s₁ : State τ} (hc : isSlot c = false)
    (h : ioctlCall s u cmd answers c = some (r, e, s₁)) : e = .quiet ∧ s₁ = s := by
  match c with
  | .inl (.inl (.ioread _ _)) | .inl (.inl (.iowrite _ _ _)) | .inl (.inr .copyFromUser)
  | .inl (.inr (.copyToUser _)) | .inr (.inl (.copyToUser _)) =>
      cases h
      exact ⟨rfl, rfl⟩
  | .inr (.inr _) => cases hc

private theorem other_step {u : τ} {answers : Answers} {cmd : BitVec 32}
    {program : Prog ioctls (Ending Int)} (hcmd : ¬Waits cmd)
    (hevery : program.Every fun c => isSlot c = false) (hx : s.ioctls u = some ⟨cmd, program⟩)
    (hs : step pci starts context s (.step u answers) = some (e, s')) :
    ThreadStep u .out s e s' .out := by
  cases program with
  | ret r => simp [step, hx] at hs
  | call c k =>
      simp only [step, hx, Option.map_eq_some_iff] at hs
      obtain ⟨⟨r, d, s₁⟩, hcall, hres⟩ := hs
      cases hres
      obtain ⟨rfl, rfl⟩ := ioctlCall_of_not_slot hevery.1 hcall
      exact .intro (.other hcmd (hevery.2 r)) .outside

omit [DecidableEq τ] in
private theorem sectionEvent_unlock {u : τ} {cmd : BitVec 32} {v : Int} :
    sectionEvent (.slot u cmd .spinUnlockIrqrestore v) = none := by
  simp only [sectionEvent, waitEvent, cancelEvent, ite_self]

private theorem thread_step {u : τ} {answers : Answers} (hp : ThreadAt (s.ioctls u) p)
    (hs : step pci starts context s (.step u answers) = some (e, s')) :
    ∃ q, ThreadStep u p s e s' q := by
  generalize hx : s.ioctls u = x at hp
  cases hp with
  | idle => simp [step, hx] at hs
  | other hcmd hevery => exact ⟨_, other_step hcmd hevery hx hs⟩
  | @done cmd status hcmd =>
      have hret : s.ioctls u = some ⟨cmd, .ret (.returned status)⟩ := hx
      simp [step, hret] at hs
  | wait =>
      obtain ⟨r, s₁, hcall, rfl, rfl⟩ := step_atCall hx hs
      simp only [slotCall] at hcall
      split at hcall
      · next hlock =>
          cases hcall
          refine ⟨_, .intro .waitLocked ?_⟩
          rw [hlock]
          exact .enter (.inl rfl)
      · cases hcall
  | waitLocked =>
      obtain ⟨r, s₁, hcall, rfl, rfl⟩ := step_atCall hx hs
      cases hcall
      by_cases hw : s.flags.waitingForIrq = 1
      · refine ⟨.refuse, .intro ?_ ?_⟩
        · simp only [hw, if_true]
          exact .refuse (.inl rfl)
        · change Moves _ _ _ _ (if s.flags.waitingForIrq = 1 then _ else none) _ _ _ _
          rw [if_pos hw]
          exact .refused hw
      · refine ⟨.waitAccept, .intro ?_ ?_⟩
        · simp only [if_neg hw]
          exact .waitAccept
        · change Moves _ _ _ _ (if s.flags.waitingForIrq = 1 then _ else none) _ _ _ _
          rw [if_neg hw]
          exact .mayWait hw
  | waitAccept =>
      obtain ⟨r, s₁, hcall, rfl, rfl⟩ := step_atCall hx hs
      cases hcall
      exact ⟨_, .intro .waitClear .accept⟩
  | waitClear =>
      obtain ⟨r, s₁, hcall, rfl, rfl⟩ := step_atCall hx hs
      cases hcall
      exact ⟨_, .intro .waitUnlock .clear⟩
  | waitUnlock =>
      obtain ⟨r, s₁, hcall, rfl, rfl⟩ := step_atCall hx hs
      cases hcall
      exact ⟨_, .intro .waitSleep .waitUnlock⟩
  | waitSleep =>
      obtain ⟨r, s₁, hcall, rfl, rfl⟩ := step_atCall hx hs
      simp only [slotCall] at hcall
      split at hcall
      · cases hcall
        exact ⟨_, .intro .waitRead .awake⟩
      · cases hcall
  | waitRead =>
      obtain ⟨r, s₁, hcall, rfl, rfl⟩ := step_atCall hx hs
      cases hcall
      refine ⟨_, .intro ?_ .read⟩
      by_cases hc : s.flags.irqCancelled = 1
      · simp only [IrqWait.ioctlAccesioPciIrqWaitFinish, if_pos hc]
        exact .done (.inl rfl)
      · simp only [IrqWait.ioctlAccesioPciIrqWaitFinish, if_neg hc]
        exact .done (.inl rfl)
  | cancel =>
      obtain ⟨r, s₁, hcall, rfl, rfl⟩ := step_atCall hx hs
      simp only [slotCall] at hcall
      split at hcall
      · next hlock =>
          cases hcall
          refine ⟨_, .intro .cancelLocked ?_⟩
          rw [hlock]
          exact .enter (.inr (.inl rfl))
      · cases hcall
  | cancelLocked =>
      obtain ⟨r, s₁, hcall, rfl, rfl⟩ := step_atCall hx hs
      cases hcall
      by_cases hw : s.flags.waitingForIrq = 0
      · refine ⟨.refuse, .intro ?_ ?_⟩
        · simp only [hw, if_true]
          exact .refuse (.inr rfl)
        · change Moves _ _ _ _ (if s.flags.waitingForIrq = 0 then _ else none) _ _ _ _
          rw [if_pos hw]
          exact .cancelRefused hw
      · refine ⟨.cancelMark, .intro ?_ ?_⟩
        · simp only [if_neg hw]
          exact .cancelMark
        · change Moves _ _ _ _ (if s.flags.waitingForIrq = 0 then _ else none) _ _ _ _
          rw [if_neg hw]
          exact .mayCancel hw
  | cancelMark =>
      obtain ⟨r, s₁, hcall, rfl, rfl⟩ := step_atCall hx hs
      cases hcall
      exact ⟨_, .intro .cancelEmpty .mark⟩
  | cancelEmpty =>
      obtain ⟨r, s₁, hcall, rfl, rfl⟩ := step_atCall hx hs
      cases hcall
      exact ⟨_, .intro .cancelUnlock .empty⟩
  | cancelUnlock =>
      obtain ⟨r, s₁, hcall, rfl, rfl⟩ := step_atCall hx hs
      cases hcall
      exact ⟨_, .intro .cancelWake .cancelUnlock⟩
  | cancelWake =>
      obtain ⟨r, s₁, hcall, rfl, rfl⟩ := step_atCall hx hs
      cases hcall
      exact ⟨_, .intro (.done (.inr rfl)) .wake⟩
  | refuse hcmd =>
      obtain ⟨r, s₁, hcall, rfl, rfl⟩ := step_atCall hx hs
      cases hcall
      refine ⟨_, .intro (.done hcmd) ?_⟩
      rw [sectionEvent_unlock]
      exact .refuse

private theorem signal_step {u : τ} (hp : ThreadAt (s.ioctls u) p)
    (hs : step pci starts context s (.signal u) = some (e, s')) :
    ∃ q, ThreadStep u p s e s' q := by
  generalize hx : s.ioctls u = x at hp
  cases hp with
  | waitSleep =>
      simp only [step, hx] at hs
      split at hs
      · cases hs
        exact ⟨_, .intro .waitRead .awake⟩
      · cases hs
  | @other cmd program hcmd hevery =>
      rcases program with _ | ⟨(c | (c | c)), k⟩
      case call.inr.inr => cases hevery.1
      all_goals simp [step, hx] at hs
  | idle => simp [step, hx] at hs
  | @done cmd status hcmd =>
      have hret : s.ioctls u = some ⟨cmd, .ret (.returned status)⟩ := hx
      simp [step, hret] at hs
  | _ => simp [step, hx] at hs

private theorem finish_step {u : τ} (hp : ThreadAt (s.ioctls u) p)
    (hs : step pci starts context s (.finish u) = some (e, s')) :
    ∃ q, ThreadStep u p s e s' q := by
  generalize hx : s.ioctls u = x at hp
  cases hp with
  | @done cmd status hcmd =>
      have hret : s.ioctls u = some ⟨cmd, .ret (.returned status)⟩ := hx
      simp only [step, hret] at hs
      cases hs
      refine ⟨_, .intro .idle ?_⟩
      simp only [returnedStatus, if_pos hcmd]
      exact .finish
  | @other cmd program hcmd hevery =>
      rcases program with (status | _) | _
      · simp only [step, hx] at hs
        cases hs
        refine ⟨_, .intro .idle ?_⟩
        simp only [returnedStatus, if_neg hcmd]
        exact .outside
      all_goals simp [step, hx] at hs
  | _ => simp [step, hx] at hs

private theorem ioctl_step {u : τ} {cmd : BitVec 32} (hp : ThreadAt (s.ioctls u) p)
    (hs : step pci starts context s (.ioctl u cmd) = some (e, s')) :
    ∃ q, ThreadStep u p s e s' q := by
  generalize hx : s.ioctls u = x at hp
  cases hp with
  | idle =>
      simp only [step, hx] at hs
      cases hs
      exact ⟨_, .intro (threadAt_unlockedIoctl pci starts context cmd) .outside⟩
  | _ => simp [step, hx] at hs

structure IsrStep (p : Place) (s : State τ) (e : Event τ) (s' : State τ) (q : Place) : Prop where
  isr : IsrAt s'.isr q
  ioctls : s'.ioctls = s.ioctls
  moves : Moves .isr p s.lock s.flags (sectionEvent e) (returnedStatus e) q s'.lock s'.flags

private theorem isr_step {reading : BitVec 32} (hp : IsrAt s.isr p)
    (hs : step pci starts context s (.isr reading) = some (e, s')) :
    ∃ q, IsrStep p s e s' q := by
  generalize hx : s.isr = x at hp
  cases hp with
  | idle => simp [step, hx] at hs
  | leads hleads =>
      cases hleads with
      | ret r =>
          simp only [step, hx] at hs
          cases hs
          exact ⟨_, .idle, rfl, .outside⟩
      | @access c k hk =>
          simp only [step, hx] at hs
          cases c <;> cases hs <;> exact ⟨_, .leads (hk _), rfl, .outside⟩
      | notify =>
          simp only [step, hx, isrCall, contextCall] at hs
          split at hs
          · next hlock =>
              cases hs
              refine ⟨_, .locked, rfl, ?_⟩
              rw [hlock]
              exact .enter (.inr (.inr rfl))
          · cases hs
  | locked =>
      simp only [step, hx] at hs
      cases hs
      by_cases hw : s.flags.waitingForIrq = 0
      · refine ⟨.notifyUnlock, ?_, rfl, ?_⟩
        · simp only [hw, ne_eq, not_true_eq_false, if_false]
          exact .pass
        · change Moves _ _ _ _ (if s.flags.waitingForIrq = 0 then _ else none) _ _ _ _
          rw [if_pos hw]
          exact .nobody hw
      · refine ⟨.notifyStore, ?_, rfl, ?_⟩
        · simp only [ne_eq, hw, not_false_eq_true, if_true]
          exact .store
        · change Moves _ _ _ _ (if s.flags.waitingForIrq = 0 then _ else none) _ _ _ _
          rw [if_neg hw]
          exact .somebody hw
  | store =>
      simp only [step, hx] at hs
      cases hs
      exact ⟨_, .release, rfl, .notify⟩
  | release =>
      simp only [step, hx] at hs
      cases hs
      exact ⟨_, .wake, rfl, .notifyUnlock⟩
  | pass =>
      simp only [step, hx] at hs
      cases hs
      exact ⟨_, .leads (.ret _), rfl, .notifyUnlock⟩
  | wake =>
      simp only [step, hx] at hs
      cases hs
      exact ⟨_, .leads (.ret _), rfl, .outside⟩

private theorem interrupt_step (hp : IsrAt s.isr p)
    (hs : step pci starts context s .interrupt = some (e, s')) :
    ∃ q, IsrStep p s e s' q := by
  simp only [step] at hs
  split at hs
  · next style hidle hstyle =>
      cases hs
      rw [hidle] at hp
      cases hp
      exact ⟨_, .leads (leads_interrupt style), rfl, .outside⟩
  · cases hs

/-! ## Everyone at their places -/

def Holder (place : Agent τ → Place) (lock : Option (Agent τ)) : Prop :=
  ∀ a, (place a).locked = true ↔ lock = some a

section

variable {place : Agent τ → Place} {lock : Option (Agent τ)} {a : Agent τ}

omit [DecidableEq τ] in
theorem Holder.not_locked_of_free (h : Holder place lock) (hlock : lock = none) (b : Agent τ) :
    (place b).locked = false := by
  rw [Bool.eq_false_iff, ne_eq, h b, hlock]
  exact fun hsome => by cases hsome

omit [DecidableEq τ] in
theorem Holder.not_locked_of_ne (h : Holder place lock) (ha : (place a).locked = true)
    (b : Agent τ) (hb : b ≠ a) : (place b).locked = false := by
  rw [Bool.eq_false_iff, ne_eq, h b, (h a).mp ha, Option.some.injEq]
  exact fun heq => hb heq.symm

omit [DecidableEq τ] in
/-- The lock is only taken where it is free, and only freed by its holder. -/
theorem Moves.lock_cases {q : Place} {lock' : Option (Agent τ)} {flags flags' : WaitFlags}
    {event : Option (IrqWait.Event τ)} {ret : Option (τ × Int)}
    (h : Moves a p lock flags event ret q lock' flags') :
    p.locked = q.locked ∧ lock' = lock ∨
      p.locked = false ∧ q.locked = true ∧ lock = none ∧ lock' = some a ∨
      p.locked = true ∧ q.locked = false ∧ lock' = none := by
  cases h with
  | enter hq => exact .inr (.inl (by rcases hq with rfl | rfl | rfl <;> exact ⟨rfl, rfl, rfl, rfl⟩))
  | waitUnlock | cancelUnlock | refuse | notifyUnlock => exact .inr (.inr ⟨rfl, rfl, rfl⟩)
  | _ => exact .inl ⟨rfl, rfl⟩

theorem Holder.moves {q : Place} {lock' : Option (Agent τ)} {flags flags' : WaitFlags}
    {event : Option (IrqWait.Event τ)} {ret : Option (τ × Int)} (h : Holder place lock)
    (hmoves : Moves a (place a) lock flags event ret q lock' flags') :
    Holder (Function.update place a q) lock' := by
  refine (Function.forall_update_iff place fun b r => r.locked = true ↔ lock' = some b).mpr ?_
  rcases hmoves.lock_cases with ⟨hsame, rfl⟩ | ⟨-, hq, hfree, rfl⟩ | ⟨ha, hq, rfl⟩
  · exact ⟨by rw [← hsame]; exact h a, fun b _ => h b⟩
  · refine ⟨iff_of_true hq rfl, fun b hb => ?_⟩
    rw [h.not_locked_of_free hfree b, Option.some.injEq]
    exact iff_of_false Bool.false_ne_true hb.symm
  · refine ⟨iff_of_false (by rw [hq]; exact Bool.false_ne_true) (Option.some_ne_none a).symm,
      fun b hb => ?_⟩
    rw [h.not_locked_of_ne ha b hb]
    exact iff_of_false Bool.false_ne_true (Option.some_ne_none b).symm

end

structure Located (s : State τ) (place : Agent τ → Place) : Prop where
  thread : ∀ u, ThreadAt (s.ioctls u) (place (.thread u))
  isr : IsrAt s.isr (place .isr)
  holder : Holder place s.lock

variable {place : Agent τ → Place}

def actor : Action τ → Agent τ
  | .ioctl t _ | .step t _ | .signal t | .finish t => .thread t
  | .interrupt | .isr _ => .isr

def Moved (place : Agent τ → Place) (a : Agent τ) (s : State τ) (e : Event τ) (s' : State τ) :
    Prop :=
  ∃ q, Located s' (Function.update place a q) ∧
    Moves a (place a) s.lock s.flags (sectionEvent e) (returnedStatus e) q s'.lock s'.flags ∧
    ∀ v, .thread v ≠ a → s'.ioctls v = s.ioctls v

theorem Located.ofThread {u : τ} (h : Located s place)
    (hstep : ∃ q, ThreadStep u (place (.thread u)) s e s' q) :
    Moved place (.thread u) s e s' := by
  obtain ⟨q, hthread, hothers, hisr, hmoves⟩ := hstep
  refine ⟨q, ⟨fun v => ?_, ?_, h.holder.moves hmoves⟩, hmoves,
    fun v hv => hothers v fun heq => hv (congrArg Agent.thread heq)⟩
  · by_cases hv : v = u
    · subst hv
      rwa [Function.update_self]
    · rw [Function.update_of_ne fun heq => hv (Agent.thread.inj heq), hothers v hv]
      exact h.thread v
  · rw [Function.update_of_ne (fun heq => by cases heq), hisr]
    exact h.isr

theorem Located.ofIsr (h : Located s place) (hstep : ∃ q, IsrStep (place .isr) s e s' q) :
    Moved place .isr s e s' := by
  obtain ⟨q, hisr, hioctls, hmoves⟩ := hstep
  refine ⟨q, ⟨fun v => ?_, ?_, h.holder.moves hmoves⟩, hmoves, fun v _ => by rw [hioctls]⟩
  · rw [Function.update_of_ne (fun heq => by cases heq), hioctls]
    exact h.thread v
  · rwa [Function.update_self]

theorem Located.moved {a : Action τ} (h : Located s place)
    (hs : step pci starts context s a = some (e, s')) : Moved place (actor a) s e s' := by
  cases a with
  | ioctl u cmd => exact h.ofThread (ioctl_step (h.thread u) hs)
  | step u answers => exact h.ofThread (thread_step (h.thread u) hs)
  | signal u => exact h.ofThread (signal_step (h.thread u) hs)
  | finish u => exact h.ofThread (finish_step (h.thread u) hs)
  | interrupt => exact h.ofIsr (interrupt_step h.isr hs)
  | isr reading => exact h.ofIsr (isr_step h.isr hs)

theorem located_init : Located (system pci starts context τ).init fun _ => .out where
  thread _ := .idle
  isr := .idle
  holder _ := iff_of_false Bool.false_ne_true (Option.some_ne_none _).symm

end Aiowdm.Proofs.SectionPlaces
