import Aiowdm.Proofs.EventDelivery

/-!
# What an acknowledge does to the enables

A program enables the sources of an ADIO16F card in the bits of the status register
that are no events.  The isr acknowledges by writing the events alone, so it writes
zeros to the enables: they are kept exactly where they were zero.
-/

namespace Aiowdm.Proofs.EnableBits

open Aiowdm.Lib Aiowdm.Driver Aiowdm.Driver.Bus Aiowdm.Driver.DeviceContext
open Aiowdm.Driver.InterruptStyles Aiowdm.Driver.RegisterIo Aiowdm.Driver.StatusRegister
open Aiowdm.Proofs.EventDelivery

variable {τ : Type} [DecidableEq τ]

/-- The enables are what the program last wrote. -/
def EnablesKept (s : State τ) : Prop :=
  s.status &&& ~~~ADIO16F_INTERRUPT_MASK = s.lastWritten &&& ~~~ADIO16F_INTERRUPT_MASK

def acknowledges (s : State τ) : Action τ → Bool
  | .isr =>
      match s.isr with
      | .acknowledge _ => true
      | _ => false
  | _ => false

/-- If the step acknowledges, the program has nothing enabled. -/
def NothingEnabled (s : State τ) (a : Action τ) : Prop :=
  acknowledges s a = true → s.lastWritten &&& ~~~ADIO16F_INTERRUPT_MASK = 0

instance (s : State τ) (a : Action τ) : Decidable (NothingEnabled s a) :=
  inferInstanceAs (Decidable (_ → _))

/-! ## One step -/

theorem enables_write_eq_keep (l : Lanes) {status last : BitVec 32}
    (h : status &&& ~~~ADIO16F_INTERRUPT_MASK = last &&& ~~~ADIO16F_INTERRUPT_MASK) :
    l.write status &&& ~~~ADIO16F_INTERRUPT_MASK = l.keep last &&& ~~~ADIO16F_INTERRUPT_MASK := by
  ext i hi
  have hbit := congrArg (BitVec.getLsbD · i) h
  simp only [BitVec.getLsbD_eq_getElem hi, BitVec.getElem_and, BitVec.getElem_not] at hbit
  simp only [Lanes.write, Lanes.keep, BitVec.getElem_or, BitVec.getElem_and, BitVec.getElem_not]
  cases hmask : ADIO16F_INTERRUPT_MASK[i]
  · simp only [hmask, Bool.not_false, Bool.and_true] at hbit
    simp [hbit]
  · simp

theorem exec_writeRegister (context : Context) (request : RegisterIoContext) :
    (∃ l : Lanes, ∀ bits,
      ((writeRegister context request).exec card bits).2 = l.write bits ∧
        ((writeRegister context request).exec writes bits).2 = l.keep bits) ∨
      ∀ bits, ((writeRegister context request).exec card bits).2 = bits ∧
        ((writeRegister context request).exec writes bits).2 = bits := by
  unfold writeRegister
  split
  · exact .inl ⟨lanesOf .byte _ _, fun _ => ⟨rfl, rfl⟩⟩
  · split
    · exact .inl ⟨lanesOf .word _ _, fun _ => ⟨rfl, rfl⟩⟩
    · split
      · exact .inl ⟨lanesOf .dword _ _, fun _ => ⟨rfl, rfl⟩⟩
      · exact .inr fun _ => ⟨rfl, rfl⟩

theorem enablesKept_step_iff {context : Context} {status : BitVec 32} {s s' : State τ}
    {a : Action τ} {e : Event τ} (hkept : EnablesKept s)
    (hs : (system τ context status).step s a = some (e, s')) :
    EnablesKept s' ↔ NothingEnabled s a := by
  cases step_of_step hs with
  | raised =>
      refine iff_of_true ?_ (fun hack => by cases hack)
      rw [EnablesKept, ← hkept]
      ext i hi
      simp only [BitVec.getElem_or, BitVec.getElem_and, BitVec.getElem_not]
      cases ADIO16F_INTERRUPT_MASK[i] <;> simp
  | ignored hisr | read hisr | notified hisr =>
      exact iff_of_true hkept (fun hack => by simp [acknowledges, hisr] at hack)
  | thread => exact iff_of_true hkept (fun hack => by cases hack)
  | @acknowledged irqStatus hisr =>
      have hack : acknowledges s .isr = true := by simp [acknowledges, hisr]
      have hzero : s.status &&& ADIO16F_INTERRUPT_MASK &&& ~~~irqStatus &&&
          ~~~ADIO16F_INTERRUPT_MASK = 0 := by
        ext i hi
        simp only [BitVec.getElem_and, BitVec.getElem_not]
        cases ADIO16F_INTERRUPT_MASK[i] <;> simp
      constructor
      · intro hkept' _
        exact hkept'.symm.trans hzero
      · intro hnone
        exact hzero.trans (hnone hack).symm
  | @written request =>
      refine iff_of_true ?_ (fun hack => by cases hack)
      rcases exec_writeRegister context request with ⟨l, hl⟩ | hnone
      · rw [EnablesKept, (hl s.status).1, (hl s.lastWritten).2]
        exact enables_write_eq_keep l hkept
      · rw [EnablesKept, (hnone s.status).1, (hnone s.lastWritten).2]
        exact hkept

/-! ## Whole runs -/

/-- Where every acknowledge finds nothing enabled, the enables are always what the program
last wrote; and the next step keeps them if and only if it is no acknowledge, or finds
nothing enabled. -/
theorem enables_kept_iff {context : Context} {status : BitVec 32} {log : List (Event τ)}
    {s : State τ} (h : RunWhere (system τ context status) (fun _ => NothingEnabled) log s) :
    EnablesKept s ∧ ∀ a e s', (system τ context status).step s a = some (e, s') →
      (EnablesKept s' ↔ NothingEnabled s a) := by
  have hkept : EnablesKept s := by
    induction h with
    | init => rfl
    | step _ ha hs ih => exact (enablesKept_step_iff ih hs).mpr ha
  exact ⟨hkept, fun a e s' hs => enablesKept_step_iff hkept hs⟩

/-- An event on a card whose program wrote no enables. -/
theorem enables_kept_iff_none_enabled :
    ∃ log s, RunWhere (system Nat adio16f 0x80) (fun _ => NothingEnabled) log s ∧
      s.isr = .idle ∧ log.head? = some (.thread (.notify false)) ∧ EnablesKept s := by
  obtain ⟨log, s, hrun, heq⟩ := System.exists_runWhere_map_of_execWhere
    (M := system Nat adio16f 0x80) (G := fun _ => NothingEnabled)
    (fun c => (c.1.head?, c.2.isr))
    [.write ⟨0, 0x40, 1, 0⟩, .raise 0x00010000, .isr, .isr, .isr]
    (show _ = some (some (.thread (.notify false)), IsrPc.idle) by decide +kernel)
  simp only [Prod.mk.injEq] at heq
  exact ⟨log, s, hrun, heq.2, heq.1, (enables_kept_iff hrun).1⟩

/-- The program enables a source by writing 0x80, its event comes, and after the isr has run
nothing is enabled. -/
theorem acknowledge_clears_enables :
    ¬∀ log s, Run (system Nat adio16f 0) log s → s.isr = .idle → EnablesKept s := by
  intro hall
  obtain ⟨log, s, hrun, heq⟩ := System.exists_runWhere_map_of_exec
    (M := system Nat adio16f 0) (G := fun _ _ _ => True)
    (fun c => (c.2.isr, c.2.status, c.2.lastWritten))
    [.write ⟨0, 0x40, 4, 0x80⟩, .raise 0x00010000, .isr, .isr, .isr]
    (fun _ _ _ _ => trivial)
    (show _ = some (IsrPc.idle, 0, 0x80) by decide +kernel)
  simp only [Prod.mk.injEq] at heq
  obtain ⟨hisr, hstatus, hlast⟩ := heq
  have hkept := hall log s hrun hisr
  rw [EnablesKept, hstatus, hlast] at hkept
  exact absurd hkept (by decide)

end Aiowdm.Proofs.EnableBits
