import Aiowdm.Proofs.LockSections

/-!
# The lock is held for three steps at most

Nobody sleeps with `irq_lock` held, and nothing keeps its holder from going on.  So an
ioctl can come to its end whatever the others are doing: its own thread and the holder
of the lock have what it takes.
-/

namespace Aiowdm.Proofs.LockProgress

open Aiowdm.Lib Aiowdm.Driver Aiowdm.Driver.CardThreads Aiowdm.Driver.DeviceContext
open Aiowdm.Driver.Ioctls
open Aiowdm.Driver.IrqWait (WaitFlags wakeCondition)
open Aiowdm.Driver.Probe (Ending)
open Aiowdm.Proofs.LockSections (allBits noResources waitingCard)
open Aiowdm.Proofs.SectionPlaces

variable {τ : Type}

/-! ## How far the holder is from the end of its section -/

/-- The calls up to the one that frees the lock. -/
def toUnlock : Place → Nat
  | .waitLocked | .cancelLocked => 4
  | .waitAccept | .cancelMark | .notifyLocked => 3
  | .waitClear | .cancelEmpty | .notifyStore => 2
  | .waitUnlock | .cancelUnlock | .refuse | .notifyUnlock => 1
  | .out | .waitSleep | .waitRead | .cancelWake | .done _ => 0

private theorem toUnlock_pos {p : Place} (h : p.locked = true) : 0 < toUnlock p := by
  cases p <;> first | exact Nat.succ_pos _ | cases h

private theorem toUnlock_le (p : Place) : toUnlock p ≤ 4 := by
  cases p <;> simp [toUnlock]

theorem toUnlock_lt {a : Agent τ} {p q : Place} {lock lock' : Option (Agent τ)}
    {flags flags' : WaitFlags} {event : Option (IrqWait.Event τ)} {ret : Option (τ × Int)}
    (h : Moves a p lock flags event ret q lock' flags') (hp : p.locked = true) :
    toUnlock q < toUnlock p := by
  cases h <;> first | decide | cases hp

/-! ## Since the lock was taken -/

def acting : Event τ → Option (Agent τ)
  | .slot t _ _ _ => some (.thread t)
  | .context _ _ => some .isr
  | _ => none

def takesLock : Event τ → Bool
  | .slot _ _ .spinLockIrqsave _ | .context .spinLock _ => true
  | _ => false

variable [DecidableEq τ]

def sinceLock (a : Agent τ) : List (Event τ) → Nat
  | [] => 0
  | e :: log =>
      if acting e = some a then if takesLock e then 0 else sinceLock a log + 1
      else sinceLock a log

private theorem sinceLock_cons_le (a : Agent τ) (e : Event τ) (log : List (Event τ)) :
    sinceLock a (e :: log) ≤ sinceLock a log + 1 := by
  rw [sinceLock]
  split_ifs
  · exact Nat.zero_le _
  · exact le_rfl
  · exact Nat.le_succ _

variable {pci : PciDev → PciResources} {starts : PciDev → Fin PCI_STD_NUM_BARS → BitVec 64}
variable {context : Context} {s s' : State τ} {e : Event τ} {log : List (Event τ)}
variable {place : Agent τ → Place}

omit [DecidableEq τ] in
private theorem slotCall_lock {t : τ} {c : SlotCall} {r : c.Reply}
    (h : slotCall s t c = some (r, s')) :
    s'.lock = s.lock ∨ s'.lock = none ∨
      c = .spinLockIrqsave ∧ s'.lock = some (.thread t) := by
  cases c with
  | spinLockIrqsave | waitEventInterruptible =>
      obtain ⟨-, h⟩ := Option.ite_none_right_eq_some.mp h
      cases h
      first | exact .inr (.inr ⟨rfl, rfl⟩) | exact .inl rfl
  | spinUnlockIrqrestore =>
      cases h
      exact .inr (.inl rfl)
  | _ =>
      cases h
      exact .inl rfl

omit [DecidableEq τ] in
private theorem contextCall_lock {c : InterruptStyles.ContextCall} {r : c.Reply}
    (h : contextCall s c = some (r, s')) :
    s'.lock = s.lock ∨ s'.lock = none ∨ c = .spinLock ∧ s'.lock = some .isr := by
  cases c with
  | spinLock =>
      obtain ⟨-, h⟩ := Option.ite_none_right_eq_some.mp h
      cases h
      exact .inr (.inr ⟨rfl, rfl⟩)
  | spinUnlock =>
      cases h
      exact .inr (.inl rfl)
  | _ =>
      cases h
      exact .inl rfl

/-- What is seen of a step of `a`: no one else acts, and who took the lock is seen to. -/
structure SeenAs (a : Agent τ) (s : State τ) (e : Event τ) (s' : State τ) : Prop where
  actor_eq : ∀ b, acting e = some b → b = a
  takes : s.lock = none → ∀ b, s'.lock = some b → acting e = some b ∧ takesLock e = true

omit [DecidableEq τ] in
theorem SeenAs.ofQuiet {a : Agent τ} (hacting : acting e = none)
    (hlock : s'.lock = s.lock ∨ s'.lock = none) : SeenAs a s e s' where
  actor_eq b hb := by
    rw [hacting] at hb
    cases hb
  takes hfree b hb := by
    have hnone : s'.lock = none := hlock.elim (fun h => h.trans hfree) id
    rw [hnone] at hb
    cases hb

omit [DecidableEq τ] in
theorem SeenAs.ofCall {a : Agent τ} (hacting : acting e = some a)
    (hlock : s'.lock = s.lock ∨ s'.lock = none ∨ takesLock e = true ∧ s'.lock = some a) :
    SeenAs a s e s' where
  actor_eq b hb := Option.some.inj (hb.symm.trans hacting)
  takes hfree b hb := by
    rcases hlock with h | h | ⟨htakes, h⟩
    · rw [h, hfree] at hb
      cases hb
    · rw [h] at hb
      cases hb
    · rw [← hb, h]
      exact ⟨hacting, htakes⟩

private theorem seenAs_of_step {a : Action τ} (hs : step pci starts context s a = some (e, s')) :
    SeenAs (actor a) s e s' := by
  cases a with
  | ioctl u cmd | finish u | interrupt =>
      simp only [step] at hs
      split at hs <;> cases hs
      exact .ofQuiet rfl (.inl rfl)
  | signal u =>
      simp only [step] at hs
      repeat' split at hs
      all_goals cases hs
      exact .ofCall rfl (.inl rfl)
  | step u answers =>
      simp only [step] at hs
      split at hs
      · next cmd c k hx =>
          obtain ⟨⟨r, d, s₁⟩, hcall, hres⟩ := Option.map_eq_some_iff.mp hs
          cases hres
          rcases c with c | c | c
          · obtain ⟨rfl, rfl⟩ := ioctlCall_of_not_slot rfl hcall
            exact .ofQuiet rfl (.inl rfl)
          · obtain ⟨rfl, rfl⟩ := ioctlCall_of_not_slot rfl hcall
            exact .ofQuiet rfl (.inl rfl)
          · obtain ⟨⟨r, s₂⟩, hslot, hres⟩ := Option.map_eq_some_iff.mp hcall
            cases hres
            refine .ofCall rfl ((slotCall_lock hslot).imp_right (Or.imp_right ?_))
            rintro ⟨rfl, h⟩
            exact ⟨rfl, h⟩
      · cases hs
  | isr reading =>
      simp only [step] at hs
      split at hs
      · next c k hx =>
          obtain ⟨⟨r, d, s₁⟩, hcall, hres⟩ := Option.map_eq_some_iff.mp hs
          cases hres
          rcases c with c | c
          · cases c <;> cases hcall <;> exact .ofQuiet rfl (.inl rfl)
          · obtain ⟨⟨r, s₂⟩, hslot, hres⟩ := Option.map_eq_some_iff.mp hcall
            cases hres
            refine .ofCall rfl ((contextCall_lock hslot).imp_right (Or.imp_right ?_))
            rintro ⟨rfl, h⟩
            exact ⟨rfl, h⟩
      · cases hs
        exact .ofQuiet rfl (.inl rfl)
      · cases hs

/-! ## The holder goes on, and is out soon -/

def own : Agent τ → Answers → Action τ
  | .thread t, answers => .step t answers
  | .isr, answers => .isr answers.reading

omit [DecidableEq τ] in
theorem actor_own (a : Agent τ) (answers : Answers) : actor (own a answers) = a := by
  cases a <;> rfl

theorem holder_steps (h : Located s place) {a : Agent τ} (hlock : s.lock = some a)
    (answers : Answers) : ∃ e s', step pci starts context s (own a answers) = some (e, s') := by
  have hlocked : (place a).locked = true := (h.holder a).mpr hlock
  cases a with
  | thread u =>
      have hat := h.thread u
      generalize hx : s.ioctls u = x at hat
      generalize place (.thread u) = p at hat hlocked
      cases hat
      all_goals first
        | exact ⟨_, _, by simp only [own, step, hx, ioctlCall, slotCall]; rfl⟩
        | cases hlocked
  | isr =>
      have hat := h.isr
      generalize hx : s.isr = x at hat
      generalize place .isr = p at hat hlocked
      cases hat
      all_goals first
        | exact ⟨_, _, by simp only [own, step, hx, isrCall, contextCall]; rfl⟩
        | cases hlocked

/-- The calls made since the lock was taken and those up to its release are four at most. -/
theorem held_of_run (hrun : Run (system pci starts context τ) log s) :
    ∃ place, Located s place ∧
      ∀ a, s.lock = some a → sinceLock a log + toUnlock (place a) ≤ 4 := by
  induction hrun with
  | init => exact ⟨fun _ => .out, located_init, fun _ h => by cases h⟩
  | @step log s s' act e hrun _ hs ih =>
      obtain ⟨place, hlocated, hheld⟩ := ih
      obtain ⟨q, hlocated', hmoves, -⟩ := hlocated.moved hs
      have hseen := seenAs_of_step hs
      refine ⟨Function.update place (actor act) q, hlocated', fun a ha => ?_⟩
      rcases hmoves.lock_cases with ⟨hsame, hlock⟩ | ⟨-, -, hfree, -⟩ | ⟨-, -, hnone⟩
      · rw [hlock] at ha
        have hbound := hheld a ha
        by_cases hact : a = actor act
        · have hlocked : (place (actor act)).locked = true := by
            rw [← hact]
            exact (hlocated.holder a).mpr ha
          have hless := toUnlock_lt hmoves hlocked
          have hcalls := sinceLock_cons_le a e log
          rw [hact] at hbound hcalls ⊢
          rw [Function.update_self]
          omega
        · have hother : acting e ≠ some a := fun h => hact (hseen.actor_eq a h)
          rwa [sinceLock, if_neg hother, Function.update_of_ne hact]
      · obtain ⟨hacting, htakes⟩ := hseen.takes hfree a ha
        rw [sinceLock, if_pos hacting, if_pos htakes, Nat.zero_add]
        exact toUnlock_le _
      · rw [hnone] at ha
        cases ha

/-! ## To the end of an ioctl -/

def Ended : Option Ioctl → Prop
  | none => True
  | some x => x.program = .ret .undefined

def noAnswers : Answers := ⟨0, none, false⟩

/-- The holder gets out of its section on its own, and leaves the ioctls of the others
as they are. -/
theorem free_lock (hlocated : Located s place) {a : Agent τ} (hlock : s.lock = some a) :
    CanReach (system pci starts context τ) (fun x => actor x = a)
      (fun s' => s'.lock = none ∧ (∃ place', Located s' place') ∧
        ∀ u, .thread u ≠ a → s'.ioctls u = s.ioctls u) s := by
  generalize hn : toUnlock (place a) = n
  induction n using Nat.strong_induction_on generalizing s place with
  | h n ih =>
      obtain ⟨e, s', hs⟩ := holder_steps hlocated hlock noAnswers
      obtain ⟨q, hlocated', hmoves, hothers⟩ := hlocated.moved hs
      rw [actor_own] at hlocated' hmoves hothers
      refine .step hs (actor_own a noAnswers) ?_
      have hlocked := (hlocated.holder a).mpr hlock
      rcases hmoves.lock_cases with ⟨-, hsame⟩ | ⟨hout, -⟩ | ⟨-, -, hnone⟩
      · have hless : toUnlock (Function.update place a q a) < n := by
          rw [Function.update_self, ← hn]
          exact toUnlock_lt hmoves hlocked
        refine (ih _ hless hlocated' (hsame.trans hlock) rfl).trans (fun _ h => h) ?_
        rintro s'' ⟨hfree, hplace, hframe⟩
        exact .here ⟨hfree, hplace, fun u hu => (hframe u hu).trans (hothers u hu)⟩
      · rw [hlocked] at hout
        cases hout
      · exact .here ⟨hnone, ⟨_, hlocated'⟩, hothers⟩

private theorem not_locked_of_spinLock {cmd : BitVec 32}
    {k : Unit → Prog ioctls (Ending Int)} {p : Place}
    (h : ThreadAt (some ⟨cmd, .call (I := ioctls) (.inr (.inr .spinLockIrqsave)) k⟩) p) :
    p.locked = false := by
  generalize hx : some (Ioctl.mk cmd _) = x at h
  cases h <;> first | rfl | cases hx

private theorem step_of_ioctlCall {u : τ} {cmd : BitVec 32} {c : ioctls.Call}
    {k : ioctls.Reply c → Prog ioctls (Ending Int)} {r : ioctls.Reply c} {s₁ : State τ}
    (hx : s.ioctls u = some ⟨cmd, .call c k⟩)
    (hcall : ioctlCall s u cmd noAnswers c = some (r, e, s₁)) :
    step pci starts context s (.step u noAnswers) =
      some (e, s₁.setIoctl u (some ⟨cmd, k r⟩)) := by
  simp only [step, hx, hcall, Option.map_some]

private theorem thread_steps (hlocated : Located s place) {u : τ} {cmd : BitVec 32}
    {c : ioctls.Call}
    {k : ioctls.Reply c → Prog ioctls (Ending Int)} (hx : s.ioctls u = some ⟨cmd, .call c k⟩)
    (hlock : s.lock = none ∨ s.lock = some (.thread u)) :
    ∃ a r e s', actor a = .thread u ∧ step pci starts context s a = some (e, s') ∧
      s'.ioctls u = some ⟨cmd, k r⟩ := by
  have hcalled {r e s₁} (hcall : ioctlCall s u cmd noAnswers c = some (r, e, s₁)) :
      ∃ a r e s', actor a = .thread u ∧ step pci starts context s a = some (e, s') ∧
        s'.ioctls u = some ⟨cmd, k r⟩ :=
    ⟨.step u noAnswers, r, e, _, rfl, step_of_ioctlCall hx hcall, setIoctl_self _ u _⟩
  match c with
  | .inl (.inl (.ioread _ _)) | .inl (.inl (.iowrite _ _ _)) | .inl (.inr .copyFromUser)
  | .inl (.inr (.copyToUser _)) | .inr (.inl (.copyToUser _)) => exact hcalled rfl
  | .inr (.inr .spinUnlockIrqrestore) | .inr (.inr .loadWaitingForIrq)
  | .inr (.inr (.storeWaitingForIrq _)) | .inr (.inr .loadIrqCancelled)
  | .inr (.inr (.storeIrqCancelled _)) | .inr (.inr .wakeUpInterruptible) => exact hcalled rfl
  | .inr (.inr .spinLockIrqsave) =>
      have hout := hlocated.thread u
      rw [hx] at hout
      have hfree : s.lock = none := hlock.resolve_right fun hown => by
        have hlocked := (hlocated.holder (.thread u)).mpr hown
        rw [not_locked_of_spinLock hout] at hlocked
        cases hlocked
      have hcall : ioctlCall s u cmd noAnswers (.inr (.inr .spinLockIrqsave)) = some ((),
          .slot u cmd .spinLockIrqsave 0, { s with lock := some (.thread u) }) := by
        simp only [ioctlCall, slotCall, if_pos hfree]
        rfl
      exact hcalled hcall
  | .inr (.inr .waitEventInterruptible) =>
      by_cases hwake : wakeCondition s.flags = true
      · have hcall : ioctlCall s u cmd noAnswers (.inr (.inr .waitEventInterruptible)) =
            some ((0 : Int), .slot u cmd .waitEventInterruptible 0, s) := by
          simp only [ioctlCall, slotCall, if_pos hwake]
          rfl
        exact hcalled hcall
      · have hs : step pci starts context s (.signal u) =
            some (.slot u cmd .waitEventInterruptible (-IrqWait.ERESTARTSYS),
              s.setIoctl u (some ⟨cmd, k (-IrqWait.ERESTARTSYS : Int)⟩)) := by
          simp only [step, hx, if_pos (Bool.eq_false_iff.mpr hwake)]
        exact ⟨.signal u, _, _, _, rfl, hs, setIoctl_self s u _⟩

theorem thread_reaches_end {u : τ} {cmd : BitVec 32} (program : Prog ioctls (Ending Int)) :
    ∀ {s : State τ} {place : Agent τ → Place}, Located s place →
      s.ioctls u = some ⟨cmd, program⟩ → (s.lock = none ∨ s.lock = some (.thread u)) →
      CanReach (system pci starts context τ) (fun a => actor a = .thread u)
        (fun s' => Ended (s'.ioctls u)) s := by
  induction program with
  | ret ending =>
      intro s place hlocated hx hlock
      cases ending with
      | returned status =>
          have hs : (system pci starts context τ).step s (.finish u) =
              some (.returned u cmd status, s.setIoctl u none) := by
            simp only [system, step, hx]
          refine .step hs rfl (.here ?_)
          rw [setIoctl_self]
          trivial
      | undefined =>
          refine .here ?_
          rw [hx]
          rfl
  | call c k ih =>
      intro s place hlocated hx hlock
      obtain ⟨a, r, e, s', ha, hs, hx'⟩ := thread_steps hlocated hx hlock
      obtain ⟨q, hlocated', hmoves, -⟩ := hlocated.moved hs
      refine .step hs ha (ih r hlocated' hx' ?_)
      rcases hmoves.lock_cases with ⟨-, hsame⟩ | ⟨-, -, -, htaken⟩ | ⟨-, -, hnone⟩
      · rwa [hsame]
      · exact .inr (ha ▸ htaken)
      · exact .inl hnone

/-- The lock is held for three calls of its holder at most, none of which can keep it
waiting; and an ioctl comes to its end by steps of its thread and of the holder. -/
theorem lock_is_soon_free (pci : PciDev → PciResources)
    (starts : PciDev → Fin PCI_STD_NUM_BARS → BitVec 64) (context : Context)
    (log : List (Event τ)) (s : State τ) (hrun : Run (system pci starts context τ) log s) :
    (∀ a, s.lock = some a → sinceLock a log ≤ 3 ∧
      ∀ answers, ∃ e s', step pci starts context s (own a answers) = some (e, s')) ∧
      ∀ u, CanReach (system pci starts context τ)
        (fun a => actor a = .thread u ∨ s.lock = some (actor a))
        (fun s' => Ended (s'.ioctls u)) s := by
  obtain ⟨place, hlocated, hheld⟩ := held_of_run hrun
  refine ⟨fun a ha => ⟨?_, holder_steps hlocated ha⟩, fun u => ?_⟩
  · have hpos := toUnlock_pos ((hlocated.holder a).mpr ha)
    have hbound := hheld a ha
    omega
  · cases hx : s.ioctls u with
    | none =>
        refine .here ?_
        rw [hx]
        trivial
    | some x =>
        obtain ⟨cmd, program⟩ := x
        cases hlock : s.lock with
        | none =>
            exact (thread_reaches_end program hlocated hx (.inl hlock)).mono fun _ => .inl
        | some a =>
            by_cases ha : a = .thread u
            · rw [ha] at hlock
              exact (thread_reaches_end program hlocated hx (.inr hlock)).mono fun _ => .inl
            · refine (free_lock hlocated hlock).trans
                (fun x hx => .inr (congrArg some hx.symm)) ?_
              rintro s' ⟨hfree, ⟨place', hlocated'⟩, hframe⟩
              have hx' := (hframe u (Ne.symm ha)).trans hx
              exact (thread_reaches_end program hlocated' hx' (.inl hfree)).mono fun _ => .inl

/-- The isr has the lock, and one thread is asleep while another wants to cancel. -/
def cancelAtIsr : List (Action Bool) :=
  .ioctl false ACCESIO_PCI_IRQ_WAIT :: List.replicate 5 (.step false allBits) ++
  .ioctl true ACCESIO_PCI_IRQ_WAIT_CANCEL ::
  .interrupt :: List.replicate 3 (.isr allBits.reading)

theorem lock_is_soon_free_cancel : ∃ log s,
    Run (system noResources (fun _ _ => 0) waitingCard Bool) log s ∧ s.lock = some .isr ∧
      sinceLock .isr log ≤ 3 ∧
      CanReach (system noResources (fun _ _ => 0) waitingCard Bool)
        (fun a => actor a = .thread true ∨ s.lock = some (actor a))
        (fun s' => Ended (s'.ioctls true)) s := by
  obtain ⟨log, s, hrun, hlock⟩ := (system noResources (fun _ _ => 0) waitingCard
      Bool).exists_runWhere_map_of_exec (G := fun _ _ _ => True) (fun c => c.2.lock) cancelAtIsr
    (b := some .isr) (fun _ _ _ _ => trivial) rfl
  obtain ⟨hheld, hends⟩ := lock_is_soon_free noResources (fun _ _ => 0) waitingCard log s hrun
  exact ⟨log, s, hrun, hlock, (hheld .isr hlock).1, hends true⟩

end Aiowdm.Proofs.LockProgress
