import Aiowdm.Lib.Simulation
import Aiowdm.Proofs.IrqSlot
import Aiowdm.Proofs.SectionPlaces

/-!
# The sections under the lock are single steps

WAIT, CANCEL and the isr load and store the two flags one at a time, and WAIT looks at
them without the lock when it wakes up.  Still all that happens to the flags, and all
that the ioctls return, could have happened with each section under `irq_lock` in one
step.
-/

namespace Aiowdm.Proofs.SectionPlaces.Place

open Aiowdm.Driver.IrqWait (Pc WaitFlags)

/-! ## What the protocol knows of a place -/

/-- What the thread is doing as far as the protocol of single steps knows. -/
def AgreesWith : Place → Pc → Prop
  | waitUnlock, pc | waitSleep, pc => pc = .waitEvent
  | waitRead, pc => ∃ ret, pc = .readCancelled ret
  | _, pc => pc = .idle

/-- The flags there are, and those of the protocol, as the holder of the lock knows
them.  They differ between the two stores of a section. -/
def Sees : Place → WaitFlags → WaitFlags → Prop
  | out, _, _ | waitSleep, _, _ | waitRead, _, _ | cancelWake, _, _ | done _, _, _ => True
  | waitAccept, fine, coarse => fine = coarse ∧ coarse.waitingForIrq ≠ 1
  | waitClear, fine, coarse =>
      fine = { coarse with waitingForIrq := 1 } ∧ coarse.waitingForIrq ≠ 1
  | cancelMark, fine, coarse | notifyStore, fine, coarse =>
      fine = coarse ∧ coarse.waitingForIrq ≠ 0
  | cancelEmpty, fine, coarse => coarse = { fine with waitingForIrq := 0 }
  | _, fine, coarse => fine = coarse

variable {p : Place} {fine coarse : WaitFlags}

theorem sees_of_not_locked (h : p.locked = false) : p.Sees fine coarse := by
  cases p <;> trivial

theorem Sees.irqCancelled (h : p.Sees fine coarse) (hp : p.locked = true) :
    fine.irqCancelled = coarse.irqCancelled := by
  cases p
  case out | waitSleep | waitRead | cancelWake | done => cases hp
  case waitAccept | cancelMark | notifyStore | waitClear => rw [h.1]
  case cancelEmpty =>
    have heq : coarse = { fine with waitingForIrq := 0 } := h
    rw [heq]
  all_goals exact congrArg WaitFlags.irqCancelled h

end Aiowdm.Proofs.SectionPlaces.Place

namespace Aiowdm.Proofs.LockSections

open Aiowdm.Lib Aiowdm.Driver Aiowdm.Driver.CardThreads Aiowdm.Driver.DeviceContext
open Aiowdm.Driver.Ioctls
open Aiowdm.Driver.IrqWait (EALREADY Pc WaitFlags)
open Aiowdm.Proofs.IrqSlot Aiowdm.Proofs.SectionPlaces

variable {τ : Type}

/-! ## The flags there are and those of the protocol -/

/-- Where the lock is free, the flags are those of the protocol. -/
structure Coherent (place : Agent τ → Place) (lock : Option (Agent τ))
    (fine coarse : WaitFlags) : Prop where
  sees : ∀ a, (place a).Sees fine coarse
  free : lock = none → fine = coarse

namespace Coherent

variable {place : Agent τ → Place} {lock : Option (Agent τ)} {fine coarse : WaitFlags}
variable {a : Agent τ} {p : Place}

theorem irqCancelled (h : Coherent place lock fine coarse) (hholder : Holder place lock) :
    fine.irqCancelled = coarse.irqCancelled := by
  cases hlock : lock with
  | none => rw [h.free hlock]
  | some b => exact (h.sees b).irqCancelled ((hholder b).mpr hlock)

variable [DecidableEq τ]

theorem outside (h : Coherent place lock fine coarse) (hp : p.locked = false)
    {lock' : Option (Agent τ)} (hfree : lock' = none → fine = coarse) :
    Coherent (Function.update place a p) lock' fine coarse where
  sees := (Function.forall_update_iff place fun _ q => q.Sees fine coarse).mpr
    ⟨Place.sees_of_not_locked hp, fun b _ => h.sees b⟩
  free := hfree

theorem take (h : Coherent place none fine coarse) (hsees : p.Sees fine coarse) :
    Coherent (Function.update place a p) (some a) fine coarse where
  sees := (Function.forall_update_iff place fun _ q => q.Sees fine coarse).mpr
    ⟨hsees, fun b _ => h.sees b⟩
  free hnone := by cases hnone

theorem inside (hholder : Holder place lock) (ha : (place a).locked = true)
    {fine coarse : WaitFlags} (hsees : p.Sees fine coarse) :
    Coherent (Function.update place a p) lock fine coarse where
  sees := (Function.forall_update_iff place fun _ q => q.Sees fine coarse).mpr
    ⟨hsees, fun b hb => Place.sees_of_not_locked (hholder.not_locked_of_ne ha b hb)⟩
  free hnone := by
    rw [(hholder a).mp ha] at hnone
    cases hnone

end Coherent

variable [DecidableEq τ]
variable {pci : PciDev → PciResources} {starts : PciDev → Fin PCI_STD_NUM_BARS → BitVec 64}
variable {context : Context} {s s' : State τ} {e : Event τ} {p : Place}

/-! ## The protocol follows -/

def AgreesAt (t : IrqWait.State τ) : Agent τ → Place → Prop
  | .thread u, p => p.AgreesWith (t.pc u)
  | .isr, _ => True

structure Follows (place : Agent τ → Place) (lock : Option (Agent τ)) (flags : WaitFlags)
    (t : IrqWait.State τ) : Prop where
  coherent : Coherent place lock flags t.flags
  agrees : ∀ a, AgreesAt t a (place a)

/-- The protocol makes the step `event`, or none, and agrees again. -/
def Answered (t : IrqWait.State τ) (event : Option (IrqWait.Event τ)) (place : Agent τ → Place)
    (lock : Option (Agent τ)) (flags : WaitFlags) : Prop :=
  ∃ new t', Steps (IrqWait.system τ) t new t' ∧ new.filterMap withoutSleep = event.toList ∧
    Follows place lock flags t'

section

variable {place : Agent τ → Place} {lock : Option (Agent τ)} {flags : WaitFlags}
variable {t t' : IrqWait.State τ} {a : Agent τ} {q : Place}

theorem answered_none (hagrees : ∀ b, AgreesAt t b (place b)) (hq : AgreesAt t a q)
    (hc : Coherent (Function.update place a q) lock flags t.flags) :
    Answered t none (Function.update place a q) lock flags :=
  ⟨[], t, .refl, rfl, hc,
    (Function.forall_update_iff place (AgreesAt t)).mpr ⟨hq, fun b _ => hagrees b⟩⟩

theorem answered_step {act : IrqWait.Action τ} {event : IrqWait.Event τ}
    (hagrees : ∀ b, AgreesAt t b (place b)) (hstep : Step t act event t')
    (hothers : ∀ v, .thread v ≠ a → t'.pc v = t.pc v) (hq : AgreesAt t' a q)
    (hc : Coherent (Function.update place a q) lock flags t'.flags) :
    Answered t (withoutSleep event) (Function.update place a q) lock flags := by
  refine ⟨[event], t', .single (step_iff.mpr hstep), ?_, hc, ?_⟩
  · cases hevent : withoutSleep event <;> simp [hevent]
  · refine (Function.forall_update_iff place (AgreesAt t')).mpr ⟨hq, fun b hb => ?_⟩
    cases b with
    | thread v =>
        change (place (.thread v)).AgreesWith (t'.pc v)
        rw [hothers v hb]
        exact hagrees (.thread v)
    | isr => trivial

theorem setPc_others {u : τ} {pc : Pc} (v : τ) (hv : Agent.thread v ≠ .thread u) :
    (t.setPc u pc).pc v = t.pc v := by
  rw [IrqWait.setPc_pc, if_neg fun heq => hv (congrArg Agent.thread heq)]

/-- A step in a section is a step of the protocol where it takes effect. -/
theorem Follows.answered {event : Option (IrqWait.Event τ)} {ret : Option (τ × Int)}
    {lock' : Option (Agent τ)} {flags' : WaitFlags} (h : Follows place lock flags t)
    (hholder : Holder place lock) (hplace : place a = p)
    (hmoves : Moves a p lock flags event ret q lock' flags') :
    Answered t event (Function.update place a q) lock' flags' := by
  obtain ⟨hc, hagrees⟩ := h
  have hpc : AgreesAt t a p := hplace ▸ hagrees a
  have hsees : p.Sees flags t.flags := hplace ▸ hc.sees a
  have hin (hlocked : p.locked = true) : (place a).locked = true := by rw [hplace, hlocked]
  cases hmoves with
  | outside => exact answered_none hagrees (by cases a <;> exact hpc) (hc.outside rfl hc.free)
  | enter hq =>
      have heq : flags = t.flags := hc.free rfl
      refine answered_none hagrees ?_ (hc.take ?_)
      · rcases hq with rfl | rfl | rfl <;> cases a <;> exact hpc
      · rcases hq with rfl | rfl | rfl <;> exact heq
  | refused hw =>
      have heq : flags = t.flags := hsees
      exact answered_step hagrees (.refused hpc (heq ▸ hw)) (fun _ _ => rfl) hpc
        (.inside hholder (hin rfl) heq)
  | mayWait hw =>
      have heq : flags = t.flags := hsees
      exact answered_none hagrees hpc (.inside hholder (hin rfl) ⟨heq, heq ▸ hw⟩)
  | accept =>
      obtain ⟨heq, hw⟩ := hsees
      exact answered_none hagrees hpc (.inside hholder (hin rfl) ⟨by rw [heq], hw⟩)
  | @clear u =>
      obtain ⟨heq, hw⟩ := hsees
      refine answered_step hagrees (.accepted hpc hw) setPc_others ?_
        (.inside hholder (hin rfl) ?_)
      · exact if_pos rfl
      · rw [heq]
        rfl
  | waitUnlock => exact answered_none hagrees hpc (hc.outside rfl fun _ => hsees)
  | awake =>
      -- The protocol looks at its own flags; a signal may come to find the slot empty.
      by_cases hw : t.flags.waitingForIrq = 0
      · exact answered_step hagrees (.awake hpc hw) setPc_others ⟨0, if_pos rfl⟩
          (hc.outside rfl hc.free)
      · exact answered_step hagrees (.signalled hpc hw) setPc_others ⟨_, if_pos rfl⟩
          (hc.outside rfl hc.free)
  | read =>
      obtain ⟨ret, hret⟩ := hpc
      have hvalue : IrqWait.ioctlAccesioPciIrqWaitFinish flags =
          IrqWait.ioctlAccesioPciIrqWaitFinish t.flags := by
        simp only [IrqWait.ioctlAccesioPciIrqWaitFinish, hc.irqCancelled hholder]
      rw [hvalue]
      exact answered_step hagrees (.returned hret) setPc_others (if_pos rfl)
        (hc.outside rfl hc.free)
  | cancelRefused hw =>
      have heq : flags = t.flags := hsees
      exact answered_step hagrees (.cancelRefused hpc (heq ▸ hw)) (fun _ _ => rfl) hpc
        (.inside hholder (hin rfl) heq)
  | mayCancel hw =>
      have heq : flags = t.flags := hsees
      exact answered_none hagrees hpc (.inside hholder (hin rfl) ⟨heq, heq ▸ hw⟩)
  | mark =>
      obtain ⟨heq, hw⟩ := hsees
      exact answered_step hagrees (.cancelled hpc hw) (fun _ _ => rfl) hpc
        (.inside hholder (hin rfl) rfl)
  | empty => exact answered_none hagrees hpc (.inside hholder (hin rfl) hsees.symm)
  | cancelUnlock | refuse => exact answered_none hagrees hpc (hc.outside rfl fun _ => hsees)
  | wake | finish => exact answered_none hagrees hpc (hc.outside rfl hc.free)
  | nobody hw =>
      have heq : flags = t.flags := hsees
      exact answered_step hagrees (.notifyIdle (heq ▸ hw)) (fun _ _ => rfl) trivial
        (.inside hholder (hin rfl) heq)
  | somebody hw =>
      have heq : flags = t.flags := hsees
      exact answered_none hagrees trivial (.inside hholder (hin rfl) ⟨heq, heq ▸ hw⟩)
  | notify =>
      obtain ⟨heq, hw⟩ := hsees
      refine answered_step hagrees (.notified hw) (fun _ _ => rfl) trivial
        (.inside hholder (hin rfl) ?_)
      rw [heq]
      rfl
  | notifyUnlock => exact answered_none hagrees trivial (hc.outside rfl fun _ => hsees)

end

/-! ## Whole runs -/

variable {place : Agent τ → Place}

omit [DecidableEq τ] in
private theorem coherent_init : Coherent (τ := τ) (fun _ => .out) none .zeroed .zeroed where
  sees _ := trivial
  free _ := rfl

private theorem simulation_sections : Simulation (system pci starts context τ) (fun _ _ _ => True)
    (IrqWait.system τ) sectionEvent withoutSleep
    (fun s t => ∃ place, Located s place ∧ Follows place s.lock s.flags t) where
  init := ⟨fun _ => .out, located_init, coherent_init, fun a => by cases a <;> trivial⟩
  step := by
    rintro log s s' a e log' t hrun hrun' ⟨place, hlocated, hfollows⟩ - hs
    obtain ⟨q, hlocated', hmoves, -⟩ := hlocated.moved hs
    obtain ⟨new, t', hsteps, hseen, hfollows'⟩ := hfollows.answered hlocated.holder rfl hmoves
    exact ⟨new, t', hsteps, hseen, _, hlocated', hfollows'⟩

/-! ## What the ioctls return -/

def settles (u : τ) : IrqWait.Event τ → Option Int
  | .refused t ret | .returned t ret | .cancel t ret _ => if t = u then some ret else none
  | _ => none

/-- Newest first, what the sections of `u` settled. -/
def statuses (u : τ) (log : List (IrqWait.Event τ)) : List Int :=
  log.filterMap (settles u)

def returnedTo (u : τ) (log : List (Event τ)) : List Int :=
  log.filterMap fun e => (returnedStatus e).bind fun x => if x.1 = u then some x.2 else none

private theorem statuses_withoutSleep (u : τ) (log : List (IrqWait.Event τ)) :
    statuses u (log.filterMap withoutSleep) = statuses u log := by
  rw [statuses, List.filterMap_filterMap]
  refine List.filterMap_congr fun e _ => ?_
  cases e <;> rfl

private theorem statuses_self {u : τ} {p q : Place} {lock lock' : Option (Agent τ)}
    {flags flags' : WaitFlags} {event : Option (IrqWait.Event τ)} {ret : Option (τ × Int)}
    (h : Moves (.thread u) p lock flags event ret q lock' flags') :
    (event.bind (settles u)).toList ++ p.status.toList = q.status.toList ++
      (ret.bind fun x => if x.1 = u then some x.2 else none).toList := by
  cases h with
  | enter hq => rcases hq with rfl | rfl | rfl <;> rfl
  | _ => simp [settles, Place.status]

private theorem statuses_other {u : τ} {a : Agent τ} {p q : Place} {lock lock' : Option (Agent τ)}
    {flags flags' : WaitFlags} {event : Option (IrqWait.Event τ)} {ret : Option (τ × Int)}
    (h : Moves a p lock flags event ret q lock' flags') (ha : a ≠ .thread u) :
    event.bind (settles u) = none ∧
      (ret.bind fun x => if x.1 = u then some x.2 else none) = none := by
  cases h <;> simp_all [settles]

/-- What the sections of a thread settled is what it got back, and what it is about to
get back. -/
theorem statuses_of_run {log : List (Event τ)}
    (hrun : Run (system pci starts context τ) log s) :
    ∃ place, Located s place ∧ ∀ u, statuses u (log.filterMap sectionEvent) =
      (place (.thread u)).status.toList ++ returnedTo u log := by
  induction hrun with
  | init => exact ⟨fun _ => .out, located_init, fun _ => rfl⟩
  | @step log s s' a e hrun _ hs ih =>
      obtain ⟨place, hlocated, hstatuses⟩ := ih
      obtain ⟨q, hlocated', hmoves, -⟩ := hlocated.moved hs
      refine ⟨Function.update place (actor a) q, hlocated', fun u => ?_⟩
      have hsections : statuses u ((e :: log).filterMap sectionEvent) =
          ((sectionEvent e).bind (settles u)).toList ++
            statuses u (log.filterMap sectionEvent) := by
        rw [statuses, statuses, List.filterMap_filterMap, List.filterMap_filterMap,
          filterMap_cons_eq]
      have hreturned : returnedTo u (e :: log) = ((returnedStatus e).bind fun x =>
          if x.1 = u then some x.2 else none).toList ++ returnedTo u log :=
        filterMap_cons_eq _ e log
      rw [hsections, hreturned, hstatuses u]
      by_cases hb : actor a = .thread u
      · rw [hb] at hmoves ⊢
        rw [Function.update_self, ← List.append_assoc, ← List.append_assoc,
          statuses_self hmoves]
      · obtain ⟨hevent, hret⟩ := statuses_other hmoves hb
        rw [hevent, hret, Function.update_of_ne (Ne.symm hb)]
        rfl

/-- For any number of threads, any ioctls of theirs and any runs of the isr: the log is
one of the protocol in which each section under `irq_lock` is a single step, its flags
are those of the context whenever the lock is free, and each WAIT and CANCEL returns
what its own section settled. -/
theorem sections_take_effect_at_once (pci : PciDev → PciResources)
    (starts : PciDev → Fin PCI_STD_NUM_BARS → BitVec 64) (context : Context)
    (log : List (Event τ)) (s : State τ) (hrun : Run (system pci starts context τ) log s) :
    ∃ log' t, Run (IrqWait.system τ) log' t ∧
      log'.filterMap withoutSleep = log.filterMap sectionEvent ∧
      (s.lock = none → s.flags = t.flags) ∧
      ∀ u, returnedTo u log <:+ statuses u log' ∧
        (statuses u log').length ≤ (returnedTo u log).length + 1 ∧
        (s.ioctls u = none → statuses u log' = returnedTo u log) := by
  obtain ⟨log', t, hrun', hseen, _, _, hfollows⟩ := simulation_sections.run hrun
  obtain ⟨place, hlocated, hstatuses⟩ := statuses_of_run hrun
  refine ⟨log', t, hrun', hseen, hfollows.coherent.free, fun u => ?_⟩
  rw [← statuses_withoutSleep u log', hseen, hstatuses u]
  refine ⟨List.suffix_append _ _, ?_, fun hidle => ?_⟩
  · rw [List.length_append, Nat.add_comm]
    exact Nat.add_le_add_left (by cases (place (.thread u)).status <;> simp) _
  · have hout := hlocated.thread u
    rw [hidle] at hout
    generalize place (.thread u) = p at hout
    cases hout
    rfl

/-! ## A wait that is over before the isr is out of its section -/

def waitingCard : Context :=
  { Context.zeroed with
    descriptor := some (DeviceTable.withStyle 0xc2ec "pcie-adio16-16f" .adio16f) }

def noResources : PciDev → PciResources := fun _ => ⟨0, fun _ => .unimplemented⟩

/-- A signal that interrupts are due, and no copy that fails. -/
def allBits : Answers := ⟨0xffffffff, none, true⟩

/-- The waiter wakes up while the isr has the lock, a CANCEL comes too late. -/
def lateCancel : List (Action Bool) :=
  .ioctl false ACCESIO_PCI_IRQ_WAIT :: List.replicate 5 (.step false allBits) ++
  .interrupt :: List.replicate 5 (.isr allBits.reading) ++
  [.step false allBits, .ioctl true ACCESIO_PCI_IRQ_WAIT_CANCEL, .isr allBits.reading,
    .step true allBits, .step false allBits, .finish false, .step true allBits,
    .step true allBits, .finish true]

theorem sections_take_effect_at_once_late_cancel :
    ∃ log' t, Run (IrqWait.system Bool) log' t ∧
      log'.filterMap withoutSleep =
        [.cancel true (-EALREADY) false, .returned false 0, .notify true, .accepted false] ∧
      t.flags = ⟨0, 0⟩ ∧ statuses true log' = [-EALREADY] ∧ statuses false log' = [0] := by
  obtain ⟨log, s, hrun, hends⟩ := (system noResources (fun _ _ => 0) waitingCard
      Bool).exists_runWhere_map_of_exec (G := fun _ _ _ => True)
    (fun c => (c.1.filterMap sectionEvent, c.2.lock, c.2.flags, returnedTo true c.1,
      returnedTo false c.1, (c.2.ioctls true).isNone, (c.2.ioctls false).isNone)) lateCancel
    (b := ([.cancel true (-EALREADY) false, .returned false 0, .notify true, .accepted false],
      none, ⟨0, 0⟩, [-EALREADY], [0], true, true))
    (fun _ _ _ _ => trivial) rfl
  simp only [Prod.mk.injEq, Option.isNone_iff_eq_none] at hends
  obtain ⟨hsections, hlock, hflags, htrue, hfalse, hidle, hidle'⟩ := hends
  obtain ⟨log', t, hrun', hseen, hfree, hstatuses⟩ := sections_take_effect_at_once noResources
    (fun _ _ => 0) waitingCard log s hrun
  exact ⟨log', t, hrun', hseen.trans hsections, (hfree hlock).symm.trans hflags,
    ((hstatuses true).2.2 hidle).trans htrue, ((hstatuses false).2.2 hidle').trans hfalse⟩

end Aiowdm.Proofs.LockSections
