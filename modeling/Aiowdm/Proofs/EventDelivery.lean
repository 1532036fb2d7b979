import Aiowdm.Driver.StatusRegister
import Aiowdm.Proofs.IrqDelivery
import Mathlib.Tactic.Common

/-!
# No event is lost to a waiting thread

Events of an ADIO16F card may come between the isr's read of the status register and
its acknowledge, and between that and the section that notifies a waiter.  An
acknowledge clears only bits that the same run of the isr read, and once the run is
over nobody who waited before the acknowledge is still waiting.
-/

namespace Aiowdm.Proofs.EventDelivery

open Aiowdm.Lib Aiowdm.Driver Aiowdm.Driver.Bus Aiowdm.Driver.DeviceContext
open Aiowdm.Driver.InterruptStyles Aiowdm.Driver.RegisterIo Aiowdm.Driver.StatusRegister
open Aiowdm.Proofs.IrqDelivery (exec_accesioNotifyUser runInterrupt)
open Aiowdm.Proofs.IrqSlot (flags_and_history latestSlotEvent latestSlotEvent_cons step_iff)

variable {τ : Type} [DecidableEq τ]

/-! ## What a step can do -/

@[simp] theorem exec_isrRead (status : BitVec 32) :
    isrRead.exec card status = (status, status) := by
  change (BitVec.setWidth 32 (status >>> 0), status) = (status, status)
  simp

private theorem lanesOf_status (value : BitVec 32) :
    lanesOf .dword value (bar 2 0x40) = ⟨BitVec.allOnes 32, value⟩ := by
  simp [lanesOf, place, bar, Width.bits, Width.bytes]

@[simp] theorem exec_isrAcknowledge (irqStatus status : BitVec 32) :
    (isrAcknowledge irqStatus).exec card status =
      ((), status &&& ADIO16F_INTERRUPT_MASK &&& ~~~irqStatus) := by
  have hcard : (isrAcknowledge irqStatus).exec card status = ((),
      (lanesOf .dword (irqStatus &&& ADIO16F_INTERRUPT_MASK) (bar 2 0x40)).write status) := rfl
  rw [hcard, lanesOf_status]
  refine Prod.ext rfl ?_
  ext i hi
  simp only [Lanes.write, Lanes.keep, BitVec.getElem_or, BitVec.getElem_and, BitVec.getElem_not,
    BitVec.getElem_allOnes]
  cases status[i] <;> cases irqStatus[i] <;> cases ADIO16F_INTERRUPT_MASK[i] <;> rfl

/-- A run of the isr's three steps with nothing in between does what the isr does as a
program. -/
theorem exec_isr (context : Context) (status : BitVec 32) (log : List (Event τ)) (s : State τ)
    (hidle : s.isr = .idle) (hbits : s.status &&& ADIO16F_INTERRUPT_MASK ≠ 0) :
    ((system τ context status).exec [.isr, .isr, .isr] (log, s)).map
        (fun c => (c.2.status, c.2.threads.flags)) =
      some (runInterrupt card .adio16f s.status s.threads.flags).2 := by
  have hprogram : (runInterrupt card .adio16f s.status s.threads.flags).2 =
      (s.status &&& ADIO16F_INTERRUPT_MASK &&& ~~~s.status,
        IrqWait.accesioNotifyUser s.threads.flags) := by
    simp only [runInterrupt, Style.interrupt, interruptAdio16fStyle_eq, Prog.exec_bind,
      Prog.exec_inl, exec_isrRead, if_neg hbits]
    simp [exec_accesioNotifyUser]
  rw [hprogram]
  simp only [System.exec, system, step, hidle, exec_isrRead, if_neg hbits, exec_isrAcknowledge,
    IrqWait.step, Option.map_some]

inductive Step (context : Context) (s : State τ) : Action τ → Event τ → State τ → Prop
  | raised {bits : BitVec 32} :
      Step context s (.raise bits) (.raised bits)
        { s with status := s.status ||| bits &&& ADIO16F_INTERRUPT_MASK }
  | ignored : s.isr = .idle → s.status &&& ADIO16F_INTERRUPT_MASK = 0 →
      Step context s .isr .ignored s
  | read : s.isr = .idle → s.status &&& ADIO16F_INTERRUPT_MASK ≠ 0 →
      Step context s .isr (.read s.status) { s with isr := .acknowledge s.status }
  | acknowledged {irqStatus : BitVec 32} : s.isr = .acknowledge irqStatus →
      Step context s .isr (.acknowledged irqStatus) { s with
        status := s.status &&& ADIO16F_INTERRUPT_MASK &&& ~~~irqStatus
        isr := .notify }
  | notified {e : IrqWait.Event τ} {threads : IrqWait.State τ} : s.isr = .notify →
      (IrqWait.system τ).step s.threads .notify = some (e, threads) →
      Step context s .isr (.thread e) { s with threads, isr := .idle }
  | thread {a : IrqWait.Action τ} {e : IrqWait.Event τ} {threads : IrqWait.State τ} :
      a ≠ .notify → (IrqWait.system τ).step s.threads a = some (e, threads) →
      Step context s (.thread a) (.thread e) { s with threads }
  | written {request : RegisterIoContext} :
      Step context s (.write request) (.written request) { s with
        status := ((writeRegister context request).exec card s.status).2
        lastWritten := ((writeRegister context request).exec writes s.lastWritten).2 }

theorem step_of_step {context : Context} {status : BitVec 32} {s s' : State τ} {a : Action τ}
    {e : Event τ} (h : (system τ context status).step s a = some (e, s')) :
    Step context s a e s' := by
  change step context s a = some (e, s') at h
  cases a with
  | raise bits =>
      cases h
      exact .raised
  | isr =>
      simp only [step, exec_isrRead, exec_isrAcknowledge] at h
      split at h
      · next hisr =>
          by_cases hbits : s.status &&& ADIO16F_INTERRUPT_MASK = 0
          · rw [if_pos hbits] at h
            cases h
            exact .ignored hisr hbits
          · rw [if_neg hbits] at h
            cases h
            exact .read hisr hbits
      · next irqStatus hisr =>
          cases h
          exact .acknowledged hisr
      · next hisr =>
          obtain ⟨⟨e, threads⟩, hs, heq⟩ := Option.map_eq_some_iff.mp h
          cases heq
          exact .notified hisr hs
  | thread a =>
      simp only [step] at h
      split at h
      · cases h
      · next ha =>
          obtain ⟨⟨e, threads⟩, hs, heq⟩ := Option.map_eq_some_iff.mp h
          cases heq
          exact .thread ha hs
  | write request =>
      cases h
      exact .written

/-! ## The event bits -/

/-- The request leaves the event bits as they are, whatever they are. -/
def LeavesEvents (context : Context) (request : RegisterIoContext) : Prop :=
  ∀ status, ((writeRegister context request).exec card status).2 &&& ADIO16F_INTERRUPT_MASK =
    status &&& ADIO16F_INTERRUPT_MASK

/-- Only the isr writes the event bits. -/
def OnlyIsrWrites (context : Context) (_ : List (Event τ)) (_ : State τ) (a : Action τ) : Prop :=
  ∀ request, a = .write request → LeavesEvents context request

def lastRead : List (Event τ) → Option (BitVec 32)
  | [] => none
  | .read irqStatus :: _ => some irqStatus
  | _ :: log => lastRead log

/-- If the step clears an event bit, it acknowledges what the isr read, with the bit set. -/
def ClearsOnlyRead (log : List (Event τ)) (s : State τ) (e : Event τ) (s' : State τ) : Prop :=
  ∀ i, ADIO16F_INTERRUPT_MASK.getLsbD i = true →
    s.status.getLsbD i = true → s'.status.getLsbD i = false →
      ∃ irqStatus, e = .acknowledged irqStatus ∧ lastRead log = some irqStatus ∧
        irqStatus.getLsbD i = true

private theorem lastRead_of_acknowledge {context : Context} {status : BitVec 32}
    {log : List (Event τ)}
    {s : State τ} (h : Run (system τ context status) log s) {irqStatus : BitVec 32}
    (hisr : s.isr = .acknowledge irqStatus) : lastRead log = some irqStatus := by
  induction h generalizing irqStatus with
  | init => cases hisr
  | step _ _ hs ih =>
      cases step_of_step hs with
      | read hidle hbits =>
          cases hisr
          rfl
      | ignored hidle hbits => exact ih hisr
      | raised | thread | written => exact ih hisr
      | acknowledged | notified => cases hisr

theorem clearsOnlyRead {context : Context} {status : BitVec 32} {log : List (Event τ)}
    {s s' : State τ} {a : Action τ} {e : Event τ} (h : Run (system τ context status) log s)
    (ha : OnlyIsrWrites context log s a) (hs : (system τ context status).step s a = some (e, s')) :
    ClearsOnlyRead log s e s' := by
  intro i hi hset hclear
  cases step_of_step hs with
  | raised => simp [hset] at hclear
  | acknowledged hisr =>
      refine ⟨_, rfl, lastRead_of_acknowledge h hisr, ?_⟩
      have hlt : i < 32 := BitVec.lt_of_getLsbD hi
      simpa [hset, hi, hlt] using hclear
  | written =>
      have hkept := congrArg (BitVec.getLsbD · i) (ha _ rfl s.status)
      simp only [BitVec.getLsbD_and, hi, Bool.and_true] at hkept
      rw [hkept, hset] at hclear
      cases hclear
  | ignored | read | notified | thread =>
      rw [hset] at hclear
      cases hclear

/-- The event has been cleared since only `newer` was logged. -/
def Cleared (i : Nat) (newer : List (Event τ)) : Prop :=
  ∃ irqStatus, .acknowledged irqStatus ∈ newer ∧ irqStatus.getLsbD i = true

/-- An event whose bit is clear has been cleared since it was raised. -/
def ClearedSinceRaised (log : List (Event τ)) (s : State τ) : Prop :=
  ∀ newer bits older i, log = newer ++ .raised bits :: older →
    (bits &&& ADIO16F_INTERRUPT_MASK).getLsbD i = true → s.status.getLsbD i = false →
      Cleared i newer

private theorem clearedSinceRaised {context : Context} {status : BitVec 32} {log : List (Event τ)}
    {s : State τ} (h : RunWhere (system τ context status) (OnlyIsrWrites context) log s) :
    ClearedSinceRaised log s := by
  induction h with
  | init =>
      intro newer bits older i heq
      simp at heq
  | @step log s s' a e hr ha hs ih =>
      intro newer bits older i heq hi hclear
      cases newer with
      | nil =>
          obtain ⟨rfl, rfl⟩ := List.cons_eq_cons.mp heq
          cases step_of_step hs with
          | raised =>
              rw [BitVec.getLsbD_or, hi, Bool.or_true] at hclear
              cases hclear
      | cons d newer =>
          obtain ⟨rfl, hlog⟩ := List.cons_eq_cons.mp heq
          by_cases hset : s.status.getLsbD i = true
          · have hmask : ADIO16F_INTERRUPT_MASK.getLsbD i = true := by
              rw [BitVec.getLsbD_and, Bool.and_eq_true] at hi
              exact hi.2
            obtain ⟨irqStatus, rfl, -, hread⟩ := clearsOnlyRead hr.run ha hs i hmask hset hclear
            exact ⟨irqStatus, List.mem_cons_self, hread⟩
          · obtain ⟨irqStatus, hmem, hread⟩ := ih newer bits older i hlog hi (by simpa using hset)
            exact ⟨irqStatus, List.mem_cons_of_mem _ hmem, hread⟩

/-! ## The wait slot -/

def Event.threadEvent : Event τ → Option (IrqWait.Event τ)
  | .thread e => some e
  | _ => none

def threadLog (log : List (Event τ)) : List (IrqWait.Event τ) :=
  log.filterMap Event.threadEvent

private theorem run_threads {context : Context} {status : BitVec 32} {log : List (Event τ)}
    {s : State τ}
    (h : Run (system τ context status) log s) :
    Run (IrqWait.system τ) (threadLog log) s.threads := by
  induction h with
  | init => exact .init
  | step _ _ hs ih =>
      cases step_of_step hs with
      | notified _ hstep | thread _ hstep => exact ih.step hstep
      | raised | ignored | read | acknowledged | written => exact ih

def SlotEmptied (newer : List (Event τ)) : Prop :=
  ∃ e r, .thread e ∈ newer ∧ e.slotEvent = some (.release r)

omit [DecidableEq τ] in
theorem SlotEmptied.cons {newer : List (Event τ)} (h : SlotEmptied newer) (e : Event τ) :
    SlotEmptied (e :: newer) := by
  obtain ⟨d, r, hd, hr⟩ := h
  exact ⟨d, r, List.mem_cons_of_mem e hd, hr⟩

omit [DecidableEq τ] in
private theorem slotEmptied_or_accept (newer : List (Event τ)) (t : τ) (older : List (Event τ)) :
    SlotEmptied newer ∨
      latestSlotEvent (threadLog (newer ++ .thread (.accepted t) :: older)) = some .accept := by
  induction newer with
  | nil => exact .inr rfl
  | cons e newer ih =>
      rcases ih with ih | ih
      · exact .inl (ih.cons e)
      · cases e with
        | thread d =>
            have hlatest : latestSlotEvent
                (threadLog (.thread d :: newer ++ .thread (.accepted t) :: older)) =
                  d.slotEvent.or (some .accept) := by
              rw [← ih]
              exact latestSlotEvent_cons d _
            cases hd : d.slotEvent with
            | none => exact .inr (hlatest.trans (by rw [hd]; rfl))
            | some event =>
                cases event with
                | accept => exact .inr (hlatest.trans (by rw [hd]; rfl))
                | release r => exact .inl ⟨d, r, List.mem_cons_self, hd⟩
        | raised | ignored | read | acknowledged | written => exact .inr ih

private theorem slot_empty_of_notified {context : Context} {status : BitVec 32} {s s' : State τ}
    {a : Action τ} {e : Event τ} (hs : (system τ context status).step s a = some (e, s'))
    (hisr : s.isr = .notify) (hisr' : s'.isr ≠ .notify) :
    s'.threads.flags.waitingForIrq = 0 := by
  cases step_of_step hs with
  | notified _ hstep =>
      cases step_iff.mp hstep with
      | notifyIdle hw => exact hw
      | notified hw => rfl
  | raised | thread | written => exact absurd hisr hisr'
  | ignored hidle | read hidle => simp [hisr] at hidle
  | acknowledged hack => simp [hisr] at hack

/-- A wait that began before an acknowledge is over once the isr has run to its end. -/
def AcknowledgeReleases (log : List (Event τ)) : Prop :=
  ∀ newer t older irqStatus, log = newer ++ .thread (.accepted t) :: older →
    .acknowledged irqStatus ∈ newer → SlotEmptied newer

private theorem acknowledgeReleases {context : Context} {status : BitVec 32} {log : List (Event τ)}
    {s : State τ} (h : Run (system τ context status) log s) (hisr : s.isr ≠ .notify) :
    AcknowledgeReleases log := by
  induction h with
  | init =>
      intro newer t older irqStatus heq
      simp at heq
  | @step log s s' a e hr _ hs ih =>
      intro newer t older irqStatus heq hack
      -- after the acknowledge itself, the section that notifies a waiter is still to come
      by_cases hnotify : s.isr = .notify
      · rcases slotEmptied_or_accept newer t older with hemptied | hlatest
        · exact hemptied
        · have hempty := slot_empty_of_notified hs hnotify hisr
          have hflags := (flags_and_history (run_threads (Run.step hr hs))).1
          rw [heq, hlatest] at hflags
          rw [hflags] at hempty
          cases hempty
      · cases newer with
        | nil => simp at hack
        | cons d newer =>
            obtain ⟨rfl, hlog⟩ := List.cons_eq_cons.mp heq
            rcases List.mem_cons.mp hack with rfl | hack
            · cases step_of_step hs with
              | acknowledged => exact absurd rfl hisr
            · exact (ih hnotify newer t older irqStatus hlog hack).cons _

/-! ## No event is lost -/

/-- Every WAIT accepted before the raising of an event that has since been cleared has
been released. -/
def WaitersReleased (log : List (Event τ)) : Prop :=
  ∀ newer bits between t older i,
    log = newer ++ .raised bits :: between ++ .thread (.accepted t) :: older →
      (bits &&& ADIO16F_INTERRUPT_MASK).getLsbD i = true → Cleared i newer →
        SlotEmptied (newer ++ .raised bits :: between)

/-- Over every run in which only the isr writes the event bits, a step clears an event
only where the isr acknowledges what it read, an event whose bit is clear has been so
cleared since, and between two runs of the isr nobody who waited for it still waits. -/
theorem no_event_lost {context : Context} {status : BitVec 32} {log : List (Event τ)}
    {s : State τ} (h : RunWhere (system τ context status) (OnlyIsrWrites context) log s) :
    (∀ a e s', OnlyIsrWrites context log s a → (system τ context status).step s a = some (e, s') →
      ClearsOnlyRead log s e s') ∧
      ClearedSinceRaised log s ∧ (s.isr = .idle → WaitersReleased log) := by
  refine ⟨fun a e s' ha hs => clearsOnlyRead h.run ha hs, clearedSinceRaised h, ?_⟩
  intro hisr newer bits between t older i heq _ hcleared
  obtain ⟨irqStatus, hmem, -⟩ := hcleared
  have hreleases := acknowledgeReleases h.run (by simp [hisr])
  exact hreleases _ t older irqStatus heq (List.mem_append_left _ hmem)

def adio16f : Context := { Context.zeroed with defaultBar := 2 }

private theorem leavesEvents_at_zero : LeavesEvents adio16f ⟨0, 0, 1, 1⟩ := by
  intro status
  change (lanesOf .byte 1 (bar 2 0)).write status &&& ADIO16F_INTERRUPT_MASK = _
  have hlanes : lanesOf .byte 1 (bar 2 0) = ⟨0, 0⟩ := by decide
  rw [hlanes]
  ext i hi
  simp only [Lanes.write, Lanes.keep, BitVec.getElem_or, BitVec.getElem_and, BitVec.getElem_not]
  cases status[i] <;> cases ADIO16F_INTERRUPT_MASK[i] <;> simp

/-- A second event comes between the isr's read and its acknowledge, and keeps its bit. -/
theorem no_event_lost_two_events :
    ∃ log s, RunWhere (system Nat adio16f 0) (OnlyIsrWrites adio16f) log s ∧
      s.status = 0x00020000 ∧ s.isr = .idle ∧
      SlotEmptied ([.thread (.notify true), .acknowledged 0x00010000, .raised 0x00020000,
        .read (0x00010000 : BitVec 32)] ++ (.raised 0x00010000 : Event Nat) :: []) := by
  obtain ⟨log, s, hrun, heq⟩ := System.exists_runWhere_map_of_exec
    (M := system Nat adio16f 0) (G := OnlyIsrWrites adio16f)
    (fun c => (c.1, c.2.status, c.2.isr))
    [.write ⟨0, 0, 1, 1⟩, .thread (.wait 0), .raise 0x00010000, .isr, .raise 0x00020000, .isr, .isr]
    (by
      intro a ha log s request heq
      subst heq
      simp at ha
      subst ha
      exact leavesEvents_at_zero)
    (show _ = some (
      [.thread (.notify true), .acknowledged 0x00010000, .raised 0x00020000, .read 0x00010000,
        .raised 0x00010000, .thread (.accepted 0), .written ⟨0, 0, 1, 1⟩],
      (0x00020000 : BitVec 32), IsrPc.idle) by decide +kernel)
  simp only [Prod.mk.injEq] at heq
  obtain ⟨rfl, hstatus, hisr⟩ := heq
  obtain ⟨-, -, hreleased⟩ := no_event_lost hrun
  refine ⟨_, s, hrun, hstatus, hisr, hreleased hisr _ 0x00010000 [] 0 _ 16 rfl (by decide) ?_⟩
  exact ⟨0x00010000, by simp, by decide⟩

end Aiowdm.Proofs.EventDelivery
