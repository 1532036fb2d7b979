import Aiowdm.Proofs.EventDelivery
import Mathlib.Algebra.Order.BigOperators.Group.List
import Mathlib.Algebra.Order.Ring.Nat

/-!
# No event is delivered twice

Each acknowledge of an event bit answers a raising of it of its own, and each run of the
isr that notifies has acknowledged an event.  Neither the threads nor what a program
writes to the card adds to what the hardware raised.
-/

namespace Aiowdm.Proofs.EventCounts

open Aiowdm.Lib Aiowdm.Driver Aiowdm.Driver.Bus Aiowdm.Driver.DeviceContext
open Aiowdm.Driver.InterruptStyles Aiowdm.Driver.RegisterIo Aiowdm.Driver.StatusRegister
open Aiowdm.Proofs.EventDelivery
open Aiowdm.Proofs.IrqSlot (step_iff)

variable {τ : Type} [DecidableEq τ]

/-! ## What is counted -/

def eventBits : List Nat := (List.range 32).filter fun i => ADIO16F_INTERRUPT_MASK.getLsbD i

theorem mem_eventBits {i : Nat} : i ∈ eventBits ↔ ADIO16F_INTERRUPT_MASK.getLsbD i = true := by
  rw [eventBits, List.mem_filter, List.mem_range]
  exact and_iff_right_of_imp BitVec.lt_of_getLsbD

def raisedAt (i : Nat) : Event τ → Bool
  | .raised bits => bits.getLsbD i
  | _ => false

def acknowledgedAt (i : Nat) : Event τ → Bool
  | .acknowledged irqStatus => irqStatus.getLsbD i
  | _ => false

def acknowledges : Event τ → Bool
  | .acknowledged _ => true
  | _ => false

def notifies : Event τ → Bool
  | .thread (.notify _) => true
  | _ => false

def reading (i : Nat) (s : State τ) : Bool :=
  match s.isr with
  | .acknowledge irqStatus => irqStatus.getLsbD i
  | .idle | .notify => false

/-- The events `i` that are on their way: one that the isr has read, and one that was
raised after that or has not been read. -/
def underWay (i : Nat) (s : State τ) : Nat :=
  (reading i s).toNat + (s.status.getLsbD i && !reading i s).toNat

/-! ## A program sets no event bit -/

theorem getLsbD_write {l : Lanes} {status : BitVec 32} {i : Nat}
    (hi : ADIO16F_INTERRUPT_MASK.getLsbD i = true) (hclear : status.getLsbD i = false) :
    (l.write status).getLsbD i = false := by
  simp only [Lanes.write, BitVec.getLsbD_or, BitVec.getLsbD_and, BitVec.getLsbD_not, hi, hclear]
  simp

private theorem getLsbD_writeRegister (context : Context) (request : RegisterIoContext)
    {status : BitVec 32} {i : Nat} (hi : ADIO16F_INTERRUPT_MASK.getLsbD i = true)
    (hclear : status.getLsbD i = false) :
    ((writeRegister context request).exec card status).2.getLsbD i = false := by
  refine (Prog.Every.of_forall (fun _ => trivial) _).exec_invariant (P := fun _ => True)
    (Q := fun status : BitVec 32 => status.getLsbD i = false) ?_ hclear
  intro c status _ hclear
  cases c with
  | ioread w addr => exact hclear
  | iowrite w value addr => exact getLsbD_write hi hclear

/-! ## Each acknowledge has its raising -/

variable {context : Context} {status : BitVec 32} {s s' : State τ} {a : Action τ} {e : Event τ}
variable {log : List (Event τ)} {i : Nat}

omit [DecidableEq τ] in
private theorem underWay_le (hreading : reading i s' = reading i s)
    (hstatus : s.status.getLsbD i = false → s'.status.getLsbD i = false) :
    underWay i s' ≤ underWay i s := by
  unfold underWay
  rw [hreading]
  cases hset : s.status.getLsbD i with
  | true => cases s'.status.getLsbD i <;> cases reading i s <;> decide
  | false => rw [hstatus hset]

/-- An acknowledge uses up a raising, and a raising adds one at most. -/
theorem count_step (hi : ADIO16F_INTERRUPT_MASK.getLsbD i = true) (hs : Step context s a e s') :
    (acknowledgedAt i e).toNat + underWay i s' ≤ (raisedAt i e).toNat + underWay i s := by
  have hlt : i < 32 := BitVec.lt_of_getLsbD hi
  cases hs with
  | @raised bits =>
      have hreading : reading i { s with status := s.status ||| bits &&& ADIO16F_INTERRUPT_MASK } =
          reading i s := rfl
      simp only [acknowledgedAt, raisedAt, underWay, hreading, BitVec.getLsbD_or,
        BitVec.getLsbD_and, hi, Bool.and_true]
      cases s.status.getLsbD i <;> cases bits.getLsbD i <;> cases reading i s <;> decide
  | read hidle hbits =>
      simp only [acknowledgedAt, raisedAt, underWay, reading, hidle]
      cases s.status.getLsbD i <;> decide
  | @acknowledged irqStatus hisr =>
      simp only [acknowledgedAt, raisedAt, underWay, reading, hisr, BitVec.getLsbD_and,
        BitVec.getLsbD_not, hi, hlt]
      cases s.status.getLsbD i <;> cases irqStatus.getLsbD i <;> decide
  | notified hisr hstep =>
      simp only [acknowledgedAt, raisedAt, underWay, reading, hisr]
      exact le_rfl
  | written =>
      simp only [acknowledgedAt, raisedAt, Bool.toNat_false, Nat.zero_add]
      exact underWay_le rfl (getLsbD_writeRegister context _ hi)
  | ignored | thread => exact le_rfl

theorem countP_cons_toNat {α : Type} (p : α → Bool) (x : α) (l : List α) :
    (x :: l).countP p = (p x).toNat + l.countP p := by
  rw [List.countP_cons, Nat.add_comm]
  cases p x <;> rfl

/-- The acknowledges and what is under way are covered by what was raised. -/
theorem acknowledged_le (hi : ADIO16F_INTERRUPT_MASK.getLsbD i = true)
    (h : Run (system τ context status) log s) :
    log.countP (acknowledgedAt i) + underWay i s ≤
      log.countP (raisedAt i) + (status.getLsbD i).toNat := by
  induction h with
  | init =>
      change 0 + ((false).toNat + (status.getLsbD i && !false).toNat) ≤ 0 + (status.getLsbD i).toNat
      cases status.getLsbD i <;> decide
  | step _ _ hs ih =>
      have hcount := count_step hi (step_of_step hs)
      rw [countP_cons_toNat, countP_cons_toNat]
      omega

/-! ## Each notify has its acknowledge -/

theorem notify_of_notifies {t t' : IrqWait.State τ} {a : IrqWait.Action τ} {e : IrqWait.Event τ}
    (hs : (IrqWait.system τ).step t a = some (e, t')) (he : notifies (.thread e) = true) :
    a = .notify := by
  cases step_iff.mp hs <;> first | rfl | cases he

def atNotify (s : State τ) : Bool := s.isr = .notify

private theorem notify_step (hs : Step context s a e s') :
    (notifies e).toNat + (atNotify s').toNat ≤ (acknowledges e).toNat + (atNotify s).toNat := by
  cases hs with
  | acknowledged hisr => simp [notifies, acknowledges, atNotify]
  | read hidle hbits => simp [notifies, atNotify]
  | @notified e threads hisr hstep =>
      have hle : (notifies (.thread e)).toNat ≤ 1 := Bool.toNat_le _
      simpa [acknowledges, atNotify, hisr] using hle
  | @thread a e threads hne hstep =>
      have hnot : notifies (.thread e) = false :=
        Bool.eq_false_iff.mpr fun he => hne (notify_of_notifies hstep he)
      rw [hnot]
      exact le_rfl
  | raised | ignored | written => exact le_rfl

private theorem notifies_le (h : Run (system τ context status) log s) :
    log.countP notifies + (atNotify s).toNat ≤ log.countP acknowledges := by
  induction h with
  | init => exact le_rfl
  | step _ _ hs ih =>
      have hcount := notify_step (step_of_step hs)
      rw [countP_cons_toNat, countP_cons_toNat]
      omega

/-- What the isr is about to acknowledge, or has acknowledged, has an event in it. -/
def SomeEvent (irqStatus : BitVec 32) : Prop := irqStatus &&& ADIO16F_INTERRUPT_MASK ≠ 0

private theorem someEvent_of_acknowledge (h : Run (system τ context status) log s)
    {irqStatus : BitVec 32}
    (hisr : s.isr = .acknowledge irqStatus) : SomeEvent irqStatus := by
  induction h generalizing irqStatus with
  | init => cases hisr
  | step _ _ hs ih =>
      cases step_of_step hs with
      | read hidle hbits =>
          cases hisr
          exact hbits
      | raised | ignored | thread | written => exact ih hisr
      | acknowledged | notified => cases hisr

private theorem someEvent_of_acknowledged (h : Run (system τ context status) log s)
    {irqStatus : BitVec 32} (hmem : .acknowledged irqStatus ∈ log) : SomeEvent irqStatus := by
  induction h with
  | init => cases hmem
  | step hr _ hs ih =>
      rcases List.mem_cons.mp hmem with rfl | hold
      · cases step_of_step hs with
        | acknowledged hisr => exact someEvent_of_acknowledge hr hisr
      · exact ih hold

private theorem exists_eventBit {irqStatus : BitVec 32} (h : SomeEvent irqStatus) :
    ∃ i ∈ eventBits, irqStatus.getLsbD i = true := by
  by_contra hnone
  refine h (BitVec.eq_of_getLsbD_eq fun i hi => ?_)
  have hzero : (0 : BitVec 32).getLsbD i = false := BitVec.getLsbD_zero
  rw [BitVec.getLsbD_and, hzero]
  cases hmask : ADIO16F_INTERRUPT_MASK.getLsbD i with
  | false => exact Bool.and_false _
  | true =>
      rw [Bool.and_true]
      by_contra hset
      exact hnone ⟨i, mem_eventBits.mpr hmask, by simpa using hset⟩

private theorem countP_le_sum {α ι : Type} {p : α → Bool} {q : ι → α → Bool} {is : List ι}
    {l : List α}
    (h : ∀ x ∈ l, p x = true → ∃ i ∈ is, q i x = true) :
    l.countP p ≤ (is.map fun i => l.countP (q i)).sum := by
  induction l with
  | nil => exact Nat.zero_le _
  | cons x l ih =>
      have hsplit : (is.map fun i => (x :: l).countP (q i)).sum =
          (is.map fun i => (q i x).toNat).sum + (is.map fun i => l.countP (q i)).sum := by
        simp only [countP_cons_toNat, List.sum_map_add]
      have hfirst : (p x).toNat ≤ (is.map fun i => (q i x).toNat).sum := by
        cases hx : p x with
        | false => exact Nat.zero_le _
        | true =>
            obtain ⟨i, hi, hq⟩ := h x List.mem_cons_self hx
            have hone : (q i x).toNat ∈ is.map fun i => (q i x).toNat :=
              List.mem_map.mpr ⟨i, hi, rfl⟩
            rw [hq] at hone
            exact List.single_le_sum (fun _ _ => Nat.zero_le _) _ hone
      have hrest := ih fun y hy => h y (List.mem_cons_of_mem x hy)
      rw [hsplit, countP_cons_toNat]
      omega

/-! ## No event twice -/

/-- In every run, whatever the threads do and the program writes: each event bit is
acknowledged at most as often as it was raised, the bits set at the start included, and
the isr notifies at most as often as events were raised. -/
theorem no_event_twice (context : Context) (status : BitVec 32) (log : List (Event τ))
    (s : State τ) (h : Run (system τ context status) log s) :
    (∀ i ∈ eventBits, log.countP (acknowledgedAt i) ≤
      log.countP (raisedAt i) + (status.getLsbD i).toNat) ∧
    log.countP notifies ≤
      (eventBits.map fun i => log.countP (raisedAt i) + (status.getLsbD i).toNat).sum := by
  have hbits : ∀ i ∈ eventBits, log.countP (acknowledgedAt i) ≤
      log.countP (raisedAt i) + (status.getLsbD i).toNat := by
    intro i hi
    have hle := acknowledged_le (mem_eventBits.mp hi) h
    omega
  refine ⟨hbits, ?_⟩
  have hevent : ∀ e ∈ log, acknowledges e = true → ∃ i ∈ eventBits, acknowledgedAt i e = true := by
    intro e he hack
    cases e with
    | acknowledged irqStatus => exact exists_eventBit (someEvent_of_acknowledged h he)
    | raised | ignored | read | thread | written => cases hack
  calc log.countP notifies ≤ log.countP acknowledges :=
        (Nat.le_add_right _ _).trans (notifies_le h)
    _ ≤ (eventBits.map fun i => log.countP (acknowledgedAt i)).sum := countP_le_sum hevent
    _ ≤ (eventBits.map fun i => log.countP (raisedAt i) + (status.getLsbD i).toNat).sum :=
        List.sum_le_sum hbits

/-- An event that is raised again between the isr's read and its acknowledge is
acknowledged once. -/
theorem no_event_twice_raised_again :
    ∃ (log : List (Event Nat)) (s : State Nat), Run (system Nat adio16f 0) log s ∧
      log.countP (raisedAt 16) = 2 ∧ log.countP (acknowledgedAt 16) = 1 ∧
      (∀ i ∈ eventBits, log.countP (acknowledgedAt i) ≤
        log.countP (raisedAt i) + ((0 : BitVec 32).getLsbD i).toNat) ∧
      log.countP notifies ≤
        (eventBits.map fun i =>
          log.countP (raisedAt i) + ((0 : BitVec 32).getLsbD i).toNat).sum := by
  have hexec : ((system Nat adio16f 0).exec
      [.raise 0x00010000, .isr, .raise 0x00010000, .isr, .isr]
        ([], (system Nat adio16f 0).init)).map Prod.fst =
      some [.thread (.notify false), .acknowledged 0x00010000, .raised 0x00010000,
        .read 0x00010000, .raised 0x00010000] := by decide +kernel
  obtain ⟨s, hrun⟩ := System.exists_run_of_exec _ hexec
  exact ⟨_, s, hrun, by decide, by decide, no_event_twice adio16f 0 _ s hrun⟩

end Aiowdm.Proofs.EventCounts
