import Aiowdm.Proofs.TestMoments

/-!
# How the interrupt test ends

Whatever the order of the two threads, and whenever interrupts arrive, the threads take
a bounded number of steps.  Where they end up tells what became of the wait; in one place
the main thread is left asleep until the next interrupt.
-/

namespace Aiowdm.Proofs.TestOutcomes

open Aiowdm.Lib Aiowdm.Driver
open Aiowdm.Driver.IrqWait (EALREADY ECANCELED WaitFlags)
open Aiowdm.Driver.Probe (Ending)
open Aiowdm.Driver.RegisterIo (RegisterIoContext)
open Aiowdm.Library.Cards Aiowdm.Library.Registers
open Aiowdm.Programs.IrqTest
open Aiowdm.Proofs.TestMoments

/-! ## Where the threads end up -/

/-- No thread can go on, and no isr is still to wake one, before the next interrupt. -/
def Stuck (cards : Nat → Int) (s : State) : Prop :=
  (∀ t answer, step cards s (.step t answer) = none) ∧ step cards s .isrWake = none

def noAnswer : Int × RegisterIoContext := ⟨0, ⟨0, 0, 0, 0⟩⟩

theorem callStep_eq_none_iff {card : WaitQueue.State Thread} {t : Thread} {ended : Bool}
    {c : test.Call} (answer : Int × RegisterIoContext) :
    callStep card t answer ended c = none ↔ callStep card t noAnswer ended c = none := by
  rcases c with (c | c) | c
  · exact iff_of_false (Option.some_ne_none _) (Option.some_ne_none _)
  · cases c <;> exact Iff.rfl
  · cases c <;> exact Iff.rfl

private theorem step_eq_none_iff {cards : Nat → Int} {s : State} {t : Thread}
    (answer : Int × RegisterIoContext) :
    step cards s (.step t answer) = none ↔ step cards s (.step t noAnswer) = none := by
  cases t with
  | main =>
      simp only [step]
      split
      · exact Iff.rfl
      · rw [Option.map_eq_none_iff, Option.map_eq_none_iff, callStep_eq_none_iff]
  | genIrq =>
      simp only [step]
      split
      · rw [Option.map_eq_none_iff, Option.map_eq_none_iff, callStep_eq_none_iff]
      all_goals exact Iff.rfl

instance (cards : Nat → Int) (s : State) : Decidable (Stuck cards s) :=
  decidable_of_iff ((step cards s (.step .main noAnswer)).isNone ∧
      (step cards s (.step .genIrq noAnswer)).isNone ∧ (step cards s .isrWake).isNone) <| by
    simp only [Option.isNone_iff_eq_none]
    constructor
    · rintro ⟨hmain, hgenIrq, hisr⟩
      refine ⟨fun t answer => ?_, hisr⟩
      rw [step_eq_none_iff]
      cases t with
      | main => exact hmain
      | genIrq => exact hgenIrq
    · exact fun h => ⟨h.1 .main noAnswer, h.1 .genIrq noAnswer, h.2⟩

/-- `AbortRequest` came before `WaitForIRQ`, and no interrupt since. -/
structure Stranded (log : List Event) (s : State) : Prop where
  pc : s.card.slot.pc .main = .waitEvent
  genIrq : s.genIrq = some (.ret ())
  history : log.filterMap seen = [.accepted, .aborted (-EALREADY)]

/-- The ways the program ends, and the one in which it does not. -/
inductive Outcome (log : List Event) (s : State) : Prop
  | notStarted {e : Ending Int} :
      s.main = .ret e → e ≠ .returned 0 → s.genIrq = none → log.filterMap seen = [] →
      Outcome log s
  | interrupted :
      s.main = .ret (.returned 0) → s.genIrq = some (.ret ()) →
      .printed (statusText 0) ∈ log → .notified ∈ log.filterMap seen →
      .aborted 0 ∉ log.filterMap seen → Outcome log s
  | aborted :
      s.main = .ret (.returned 0) → s.genIrq = some (.ret ()) →
      .printed (statusText (-1)) ∈ log →
      log.filterMap seen = [.returned (-ECANCELED), .aborted 0, .accepted] → Outcome log s
  | stranded : s.card.asleep .main = true → Stranded log s → Outcome log s

section Ends

variable {cards : Nat → Int} {log : List Event} {s : State} {stage : Stage} {aborted : Bool}

theorem genIrq_ended (h : At log s stage aborted) (hstuck : Stuck cards s)
    (hne : stage ≠ .setUp) :
    s.genIrq = some (.ret ()) ∧ aborted = true ∧ s.card.waking .genIrq = false := by
  cases hg : s.genIrq with
  | none => exact absurd (h.spawned.mp hg) hne
  | some p =>
    cases p with
    | ret a =>
        have hphase : (aborted && !s.card.waking .genIrq) = true := h.genIrq _ hg
        exact ⟨rfl, by simpa using hphase⟩
    | call c k =>
        have hstep := hstuck.1 .genIrq noAnswer
        simp only [step, hg, Option.map_eq_none_iff] at hstep
        have hpermit := (h.genIrq _ hg).1
        generalize (aborted && !s.card.waking .genIrq) = phase at hpermit
        cases hpermit with
        | turn hturn => cases hturn <;> cases hstep
        | abort fd =>
            cases hwaking : s.card.waking .genIrq <;>
              simp [callStep, queueStep, cancelAction, WaitQueue.step, WaitQueue.mayStep,
                IrqWait.step, h.idle, hwaking] at hstep

private theorem asleep_of_stuck (h : At log s stage aborted)
    (hstep : queueStep s.card (waitAction s.card .main) = none) :
    s.card.slot.pc .main = .waitEvent ∧ s.card.asleep .main = true := by
  unfold queueStep waitAction at hstep
  rw [Option.map_eq_none_iff] at hstep
  cases hpc : s.card.slot.pc .main with
  | idle =>
      simp [hpc, WaitQueue.step, WaitQueue.mayStep, h.wakers.main, IrqWait.step] at hstep
      split at hstep <;> cases hstep
  | waitEvent =>
      refine ⟨rfl, ?_⟩
      by_contra hasleep
      rw [Bool.not_eq_true] at hasleep
      simp [hpc, WaitQueue.step, WaitQueue.mayStep, hasleep, IrqWait.step] at hstep
      split at hstep <;> cases hstep
  | readCancelled ret => simp [hpc, WaitQueue.step, WaitQueue.mayStep, IrqWait.step] at hstep

private theorem waiting_of_stuck (h : At log s stage aborted) (hstuck : Stuck cards s)
    (hne : stage ≠ .setUp) {t : Thread} (hasleep : s.card.asleep t = true) :
    s.card.slot.flags.waitingForIrq ≠ 0 := by
  intro hzero
  obtain ⟨-, -, hwaking⟩ := genIrq_ended h hstuck hne
  rcases (h.forgotten t hasleep).2 (decide_eq_true hzero) with ⟨u, hu⟩ | hisrs
  · cases u with
    | main => exact nomatch h.wakers.main.symm.trans hu
    | genIrq => exact nomatch hwaking.symm.trans hu
  · have hisr := hstuck.2
    simp [step, cardStep, WaitQueue.step, hisrs] at hisr

private theorem outcome_of_ended (h : At log s stage aborted) (hstuck : Stuck cards s)
    {e : Ending Int}
    (hm : s.main = .ret e) : Outcome log s := by
  have hmain := h.main
  rw [hm] at hmain
  cases stage with
  | setUp =>
      obtain ⟨-, hnothing, -⟩ := h.moment.spawn
      exact .notStarted hm hmain (h.spawned.mpr rfl) hnothing
  | spawned | waited | reported => cases hmain
  | joined status =>
      cases hmain
      obtain ⟨hg, rfl, -⟩ := genIrq_ended h hstuck (nomatch ·)
      have hprinted := h.printed status (.inr rfl)
      rcases h.moment.ended rfl with ⟨rfl, hmem, hnot⟩ | ⟨rfl, hhistory⟩
      · exact .interrupted hm hg hprinted hmem hnot
      · exact .aborted hm hg hprinted hhistory

private theorem outcome_of_stuck (h : At log s stage aborted) (hstuck : Stuck cards s) :
    Outcome log s := by
  cases hm : s.main with
  | ret e => exact outcome_of_ended h hstuck hm
  | call c k =>
      have hstep := hstuck.1 .main noAnswer
      simp only [step, hm, Option.map_eq_none_iff] at hstep
      cases (hm ▸ h.main : FollowsMain stage (.call c k)).1 with
      | register | printf | spawn | report => cases hstep
      | wait fd =>
          obtain ⟨hg, rfl, -⟩ := genIrq_ended h hstuck (by simp)
          obtain ⟨hpc, hasleep⟩ := asleep_of_stuck h hstep
          have hwaiting := waiting_of_stuck h hstuck (by simp) hasleep
          exact .stranded hasleep ⟨hpc, hg, (hpc ▸ h.moment).history_of_waiting hwaiting⟩
      | join status =>
          obtain ⟨hg, -, -⟩ := genIrq_ended h hstuck (by simp)
          simp [callStep, hg, hasEnded] at hstep

end Ends

/-! ## Left asleep -/

section Left

variable {lib : Statics} {deviceId : BitVec 64} {irqCancelled : Int} {cards : Nat → Int}
variable {log new : List Event} {s s' : State} {stage : Stage} {aborted : Bool}
variable {a : Action} {e : Event}

theorem Stranded.flags (h : Stranded log s) (hat : At log s stage aborted) :
    stage = .spawned ∧ s.card.slot.flags = ⟨1, 0⟩ := by
  have hmoment := hat.moment
  rw [h.pc, h.history] at hmoment
  exact hmoment.of_stranded

theorem main_of_spawned {p : Prog test (Ending Int)} (h : FollowsMain .spawned p) :
    ∃ fd k, p = .call (.inl (.inr (.irqWait fd))) k ∧
      ∀ status, FollowsMain (.waited status) (k status) := by
  cases p with
  | ret e => exact h.elim
  | call c k =>
      obtain ⟨hpermit, hnext⟩ := h
      cases hpermit with
      | wait fd => exact ⟨fd, k, rfl, hnext⟩

/-- Only an isr that empties the slot leads on. -/
theorem Stranded.stays (h : Stranded log s) (hat : At log s stage aborted)
    (hs : step cards s a = some (e, s')) (he : seen e ≠ some .notified) :
    Stranded (e :: log) s' ∧ s'.main = s.main := by
  obtain ⟨rfl, hflags⟩ := h.flags hat
  cases a with
  | interrupt =>
      simp only [step, cardStep] at hs
      obtain ⟨⟨e, card'⟩, hstep, hs⟩ := Option.map_eq_some_iff.mp hs
      cases hs
      cases WakeUps.step_of_step hstep with
      | slot _ hslot =>
          cases hslot with
          | notifyIdle hzero => simp [hflags] at hzero
          | notified => exact absurd rfl he
  | isrWake | rouse t =>
      simp only [step, cardStep] at hs
      obtain ⟨⟨e, card'⟩, hstep, hs⟩ := Option.map_eq_some_iff.mp hs
      cases hs
      cases WakeUps.step_of_step hstep
      exact ⟨⟨h.pc, h.genIrq, h.history⟩, rfl⟩
  | step t answer =>
      cases t with
      | genIrq => simp [step, h.genIrq] at hs
      | main =>
          obtain ⟨fd, k, hm, -⟩ := main_of_spawned hat.main
          simp only [step, hm, callStep, queueStep, waitAction, h.pc] at hs
          obtain ⟨⟨e, card', r⟩, hcall, hs⟩ := Option.map_eq_some_iff.mp hs
          obtain ⟨⟨event, card'⟩, hstep, hr⟩ := Option.map_eq_some_iff.mp hcall
          cases hr
          cases hs
          cases WakeUps.step_of_step hstep with
          | slot _ hslot =>
              cases hslot with
              | awake _ hzero => simp [hflags] at hzero
              | asleep => exact ⟨⟨h.pc, h.genIrq, h.history⟩, hm.symm⟩

theorem Stranded.until_interrupt (h : Stranded log s)
    (hrun : Run (system lib deviceId irqCancelled) log s)
    (hs : Steps (system lib deviceId irqCancelled) s new s')
    (hnew : .notified ∉ new.filterMap seen) :
    Stranded (new ++ log) s' ∧ s'.main = s.main := by
  induction hs with
  | refl => exact ⟨h, rfl⟩
  | @step new s' s'' a e hsteps hs ih =>
      rw [filterMap_cons_eq, List.mem_append, not_or] at hnew
      obtain ⟨he, hnew⟩ := hnew
      obtain ⟨hstranded, hmain⟩ := ih hnew
      obtain ⟨stage, aborted, hat⟩ := at_of_run (hrun.steps hsteps)
      have hs : step (fun i => (lib.cards i).fd) s' a = some (e, s'') := hs
      have hseen : seen e ≠ some .notified := fun hseen => he (by simp [hseen])
      obtain ⟨hstranded', hmain'⟩ := hstranded.stays hat hs hseen
      exact ⟨hstranded', hmain'.trans hmain⟩

private theorem main_of_waited {p : Prog test (Ending Int)} {status : Int}
    (h : FollowsMain (.waited status) p) :
    ∃ k l, p = .call (.inr (.printf (statusText status))) k ∧ k () = .call (.inr .join) l ∧
      l () = .ret (.returned 0) := by
  cases p with
  | ret e => exact h.elim
  | call c k =>
      obtain ⟨hpermit, hnext⟩ := h
      cases hpermit with
      | report =>
          have hreported : FollowsMain (.reported status) (k ()) := hnext ()
          cases hk : k () with
          | ret e => exact (hk ▸ hreported : FollowsMain (.reported status) (.ret e)).elim
          | call c l =>
              rw [hk] at hreported
              obtain ⟨hpermit, hnext⟩ := hreported
              cases hpermit with
              | join =>
                  have hjoined : FollowsMain (.joined status) (l ()) := hnext ()
                  cases hl : l () with
                  | ret e =>
                      rw [hl] at hjoined
                      exact ⟨k, l, rfl, hk, hl.trans (congrArg _ hjoined)⟩
                  | call c m =>
                      rw [hl] at hjoined
                      cases hjoined.1

theorem step_main {c : test.Call} {k : test.Reply c → Prog test (Ending Int)}
    {card' : WaitQueue.State Thread} {r : Option (test.Reply c)} (hm : s.main = .call c k)
    (hcall : callStep s.card .main noAnswer (hasEnded s.genIrq) c = some (e, card', r))
    (hne : e ≠ .spawned) :
    step cards s (.step .main noAnswer) =
      some (e, { s with main := after c k r, card := card' }) := by
  simp only [step, hm, hcall, Option.map_some, if_neg hne]

theorem cardStep_of_step {card' : WaitQueue.State Thread} {a : WaitQueue.Action Thread}
    {event : WaitQueue.Event Thread} (hs : WakeUps.Step s.card a event card') :
    cardStep s a = some (.queue event, { s with card := card' }) := by
  have hstep : WaitQueue.step s.card a = some (event, card') := WakeUps.step_iff.mpr hs
  simp [cardStep, hstep]

theorem step_wait {card' : WaitQueue.State Thread} {a : WaitQueue.Action Thread}
    {event : WaitQueue.Event Thread} {fd : Int} {k : Int → Prog test (Ending Int)}
    (hm : s.main = .call (.inl (.inr (.irqWait fd))) k) (ha : waitAction s.card .main = a)
    (hs : WakeUps.Step s.card a event card') :
    step cards s (.step .main noAnswer) = some (.queue event,
      { s with
        main := after (.inl (.inr (.irqWait fd))) k ((result event).map ioctlStatus)
        card := card' }) := by
  have hstep : WaitQueue.step s.card a = some (event, card') := WakeUps.step_iff.mpr hs
  refine step_main hm ?_ (nomatch ·)
  rw [callStep, queueStep, ha, hstep]
  rfl

theorem Stranded.wakes (h : Stranded log s) (hat : At log s stage aborted) :
    ∃ new s', Steps (system lib deviceId irqCancelled) s new s' ∧
      s'.main = s.main ∧ s'.genIrq = some (.ret ()) ∧ s'.card.slot.pc .main = .waitEvent ∧
      s'.card.slot.flags = ⟨0, 0⟩ ∧ s'.card.asleep .main = false := by
  obtain ⟨-, hflags⟩ := h.flags hat
  have hwaiting : s.card.slot.flags.waitingForIrq ≠ 0 := by simp [hflags]
  let s₁ : State := { s with
    card := s.card.after { s.card.slot with flags := ⟨0, s.card.slot.flags.irqCancelled⟩ }
      (.notify true) }
  have hnotify : (system lib deviceId irqCancelled).step s .interrupt = some (_, s₁) :=
    cardStep_of_step (.slot rfl (.notified hwaiting))
  have hwake : (system lib deviceId irqCancelled).step s₁ .isrWake = some (_, _) :=
    cardStep_of_step (s := s₁) (.isrWoke (Nat.succ_pos s.card.isrs))
  refine ⟨_, _, .two hnotify hwake, rfl, h.genIrq, h.pc, ?_, rfl⟩
  exact congrArg (WaitFlags.mk 0 ·.irqCancelled) hflags

private theorem steps_woken {fd : Int} {k : Int → Prog test (Ending Int)}
    (hm : s.main = .call (.inl (.inr (.irqWait fd))) k)
    (hpc : s.card.slot.pc .main = .waitEvent) (hflags : s.card.slot.flags = ⟨0, 0⟩)
    (hasleep : s.card.asleep .main = false) :
    ∃ new s', Steps (system lib deviceId irqCancelled) s new s' ∧
      s'.main = k (ioctlStatus 0) ∧ s'.genIrq = s.genIrq := by
  have hmay : WaitQueue.mayStep s.card (.recheck .main) = true := by
    simp [WaitQueue.mayStep, hasleep]
  have hzero : s.card.slot.flags.waitingForIrq = 0 := by simp [hflags]
  let s₁ : State := { s with
    card := s.card.after (s.card.slot.setPc .main (.readCancelled 0)) (.awake .main 0) }
  have hlook : (system lib deviceId irqCancelled).step s (.step .main noAnswer) =
      some (_, { s₁ with main := .call (.inl (.inr (.irqWait fd))) k }) :=
    step_wait hm (by rw [waitAction, hpc]) (.slot hmay (.awake hpc hzero))
  have hpc₁ : s₁.card.slot.pc .main = .readCancelled 0 := by simp [s₁]
  have hflags₁ : s₁.card.slot.flags = ⟨0, 0⟩ := by simp [s₁, hflags]
  have hreturned := IrqSlot.Step.returned hpc₁
  rw [hflags₁] at hreturned
  have hreturn : (system lib deviceId irqCancelled).step s₁ (.step .main noAnswer) = some (_, _) :=
    step_wait hm (by rw [waitAction, hpc₁]) (.slot rfl hreturned)
  rw [← hm] at hlook
  exact ⟨_, _, .two hlook hreturn, rfl, rfl⟩

private theorem steps_waited {status : Int} (h : FollowsMain (.waited status) s.main)
    (hg : s.genIrq = some (.ret ())) :
    ∃ new s', Steps (system lib deviceId irqCancelled) s new s' ∧
      s'.main = .ret (.returned 0) ∧ .printed (statusText status) ∈ new := by
  obtain ⟨k, l, hm, hk, hl⟩ := main_of_waited h
  have hreport : (system lib deviceId irqCancelled).step s (.step .main noAnswer) =
      some (.printed (statusText status), { s with main := k () }) :=
    step_main hm rfl (nomatch ·)
  have hended : callStep s.card .main noAnswer (hasEnded s.genIrq) (.inr .join) =
      some (.joined, s.card, some ()) := by
    rw [hg]
    rfl
  have hjoin : (system lib deviceId irqCancelled).step { s with main := k () }
      (.step .main noAnswer) = some (.joined, { s with main := l () }) :=
    step_main (s := { s with main := k () }) hk hended (nomatch ·)
  exact ⟨_, _, .two hreport hjoin, hl, by simp⟩

theorem Stranded.after_interrupt (h : Stranded log s)
    (hrun : Run (system lib deviceId irqCancelled) log s) :
    ∃ new s', Steps (system lib deviceId irqCancelled) s new s' ∧
      s'.main = .ret (.returned 0) ∧ .printed (statusText 0) ∈ new := by
  obtain ⟨stage, aborted, hat⟩ := at_of_run hrun
  obtain ⟨rfl, -⟩ := h.flags hat
  obtain ⟨fd, k, hm, hk⟩ := main_of_spawned hat.main
  obtain ⟨new₁, s₁, hsteps₁, hm₁, hg₁, hpc, hflags, hasleep⟩ := h.wakes hat
  obtain ⟨new₂, s₂, hsteps₂, hm₂, hg₂⟩ := steps_woken (hm₁.trans hm) hpc hflags hasleep
  obtain ⟨new₃, s₃, hsteps₃, hm₃, hprinted⟩ :=
    steps_waited (hm₂ ▸ hk (ioctlStatus 0)) (hg₂.trans hg₁)
  refine ⟨_, s₃, (hsteps₁.trans hsteps₂).trans hsteps₃, hm₃, ?_⟩
  exact List.mem_append_left _ hprinted

end Left

/-! ## How many steps the threads take -/

def isRouse : Event → Bool
  | .queue (.roused _) => true
  | _ => false

def ofThread : Event → Bool
  | .queue (.slot (.notify _)) | .queue .isrWoke | .queue (.roused _) => false
  | _ => true

def rouses (log : List Event) : Nat := log.countP isRouse

def threadSteps (log : List Event) : Nat := log.countP ofThread

/-- The steps that `main` has made in `WaitForIRQ`, where it has not been roused, and those
that it no longer has to make. -/
def waitSteps (card : WaitQueue.State Thread) : Nat :=
  match card.slot.pc .main with
  | .idle => 0
  | .waitEvent =>
      if card.asleep .main = true ∨ card.slot.flags.waitingForIrq = 0 then 2 else 1
  | .readCancelled _ => 3

def mainCalls : Nat := 8
def genIrqCalls : Nat := 28

abbrev CallsAtMost {α : Type} (p : Prog test α) (n : Nat) : Prop := p.AtMost (fun _ => true) n

private theorem callsAtMost_genIrqTurn (cards : Nat → Int) (set : Bool) :
    CallsAtMost (genIrqTurn cards set) 9 :=
  .call fun _ => .call fun _ => .call fun _ => .call fun _ => .call fun _ => .call fun _ =>
    .call fun _ => .call fun _ => .call fun _ => trivial

private theorem callsAtMost_genIrqTurns (cards : Nat → Int) (n : Nat) (set : Bool) :
    CallsAtMost (genIrqTurns cards n set) (9 * n) := by
  induction n generalizing set with
  | zero => trivial
  | succ n ih =>
      have hbind := (callsAtMost_genIrqTurn cards set).bind fun _ => ih !set
      exact hbind.mono (by omega)

private theorem callsAtMost_genIrq (cards : Nat → Int) :
    CallsAtMost (genIrq cards) genIrqCalls := by
  have habort : CallsAtMost (abort cards) 1 := .call fun _ => trivial
  exact (callsAtMost_genIrqTurns cards 3 true).bind fun _ => habort

theorem callsAtMost_failed (text : String) (n : Nat) :
    CallsAtMost (printf text >>= fun _ => pure (Ending.returned (-1 : Int))) (n + 1) :=
  .call fun _ => trivial

private theorem callsAtMost_started (cards : Nat → Int) : CallsAtMost (started cards) 4 :=
  .call fun _ => .call fun _ => .call fun _ => .call fun _ => trivial

private theorem callsAtMost_setUp (cards : Nat → Int) : CallsAtMost (setUp cards) 7 := by
  refine Prog.AtMost.bind (n := 1) (m := 6) (.call fun _ => trivial) fun status => ?_
  split
  · exact callsAtMost_failed _ _
  refine Prog.AtMost.bind (n := 1) (m := 5) (.call fun _ => trivial) fun status => ?_
  split
  · exact callsAtMost_failed _ _
  refine Prog.AtMost.bind (n := 1) (m := 4) (.call fun _ => trivial) fun status => ?_
  split
  · exact callsAtMost_failed _ _
  exact callsAtMost_started cards

private theorem callsAtMost_checkDevice (lib : Statics) (deviceId : BitVec 64) :
    CallsAtMost (checkDevice lib deviceId) 7 := by
  unfold checkDevice
  split
  · trivial
  split
  · exact callsAtMost_failed _ _
  · exact callsAtMost_setUp _

private theorem callsAtMost_main (lib : Statics) (deviceId : BitVec 64) :
    CallsAtMost (main lib deviceId) mainCalls := by
  have hcheck := callsAtMost_checkDevice lib deviceId
  unfold main
  dsimp only
  split
  · exact .call fun _ => hcheck
  · exact hcheck.mono (by decide)

def abortSteps (history : List Seen) : Nat := if .aborted 0 ∈ history then 1 else 0

/-- The calls that are left cover the steps that are left. -/
def Budget (steps rouses : Nat) (main : Prog test (Ending Int)) (genIrq : Option (Prog test Unit))
    (wait abort : Nat) : Prop :=
  ∃ n m, CallsAtMost main n ∧ (∀ p ∈ genIrq, CallsAtMost p m) ∧
    (genIrq = none → genIrqCalls ≤ m) ∧
    steps + 4 * n + m ≤ 4 * mainCalls + genIrqCalls + wait + abort + rouses

section Budgets

variable {steps rouses : Nat} {p : Prog test (Ending Int)} {g : Option (Prog test Unit)}
variable {wait abort : Nat} {c : test.Call}

theorem Budget.call {k : test.Reply c → Prog test (Ending Int)}
    (h : Budget steps rouses (.call c k) g wait abort) (hwait : wait ≤ 3) (r : test.Reply c)
    (wait' : Nat) : Budget (steps + 1) rouses (k r) g wait' abort := by
  obtain ⟨n, m, ⟨hn, hk⟩, hg, hnone, hle⟩ := h
  exact ⟨n - 1, m, hk r, hg, hnone, by omega⟩

theorem Budget.spawn (h : Budget steps rouses p none wait abort) (cards : Nat → Int) :
    Budget steps rouses p (some (genIrq cards)) wait abort := by
  obtain ⟨n, m, hp, -, hnone, hle⟩ := h
  refine ⟨n, m, hp, fun q hq => ?_, fun hne => (nomatch hne), hle⟩
  cases hq
  exact (callsAtMost_genIrq cards).mono (hnone rfl)

theorem Budget.genIrq {k : test.Reply c → Prog test Unit}
    (h : Budget steps rouses p (some (.call c k)) wait abort) (r : test.Reply c) :
    Budget (steps + 1) rouses p (some (k r)) wait abort := by
  obtain ⟨n, m, hp, hg, -, hle⟩ := h
  obtain ⟨hm, hk⟩ := hg _ rfl
  refine ⟨n, m - 1, hp, fun q hq => ?_, fun hne => (nomatch hne), by omega⟩
  cases hq
  exact hk r

theorem Budget.mono {steps' rouses' wait' abort' : Nat} (h : Budget steps rouses p g wait abort)
    (hle : steps' + wait + abort + rouses ≤ steps + wait' + abort' + rouses') :
    Budget steps' rouses' p g wait' abort' := by
  obtain ⟨n, m, hp, hg, hnone, hbound⟩ := h
  exact ⟨n, m, hp, hg, hnone, by omega⟩

theorem Budget.weaken {wait' abort' : Nat} (h : Budget steps rouses p g wait abort)
    (hwait : wait ≤ wait') (habort : abort ≤ abort') : Budget steps rouses p g wait' abort' :=
  h.mono (by omega)

theorem Budget.le (h : Budget steps rouses p g wait abort) (hwait : wait ≤ 3) (habort : abort ≤ 1)
    (hcall : wait = 0 ∨ ∃ c k, p = .call c k) :
    steps ≤ 4 * mainCalls + genIrqCalls + 1 + rouses := by
  obtain ⟨n, m, hp, -, -, hle⟩ := h
  rcases hcall with rfl | ⟨c, k, rfl⟩
  · omega
  · have hcall : 0 < n := hp.1
    omega

end Budgets

section Steps

variable {lib : Statics} {deviceId : BitVec 64} {irqCancelled : Int} {cards : Nat → Int}
variable {log : List Event} {s s' : State} {stage : Stage} {aborted : Bool}
variable {card card' : WaitQueue.State Thread} {history : List Seen}
variable {answer : Int × RegisterIoContext} {e : Event}

theorem waitSteps_le (card : WaitQueue.State Thread) : waitSteps card ≤ 3 := by
  unfold waitSteps
  split
  · decide
  · split <;> decide
  · exact le_rfl

theorem waitSteps_mono (hpc : card'.slot.pc = card.slot.pc)
    (h : card.asleep .main = true ∨ card.slot.flags.waitingForIrq = 0 →
      card'.asleep .main = true ∨ card'.slot.flags.waitingForIrq = 0) :
    waitSteps card ≤ waitSteps card' := by
  unfold waitSteps
  rw [hpc]
  split
  · exact le_rfl
  · by_cases hover : card.asleep .main = true ∨ card.slot.flags.waitingForIrq = 0
    · rw [if_pos hover, if_pos (h hover)]
    · rw [if_neg hover]
      split <;> decide
  · exact le_rfl

private theorem waitSteps_le_succ (hpc : card'.slot.pc = card.slot.pc) :
    waitSteps card ≤ waitSteps card' + 1 := by
  unfold waitSteps
  rw [hpc]
  split
  · exact Nat.zero_le _
  · split_ifs <;> decide
  · exact Nat.le_succ _

private theorem abortSteps_le (history : List Seen) : abortSteps history ≤ 1 := by
  unfold abortSteps
  split <;> decide

theorem abortSteps_mono (new history : List Seen) :
    abortSteps history ≤ abortSteps (new ++ history) := by
  unfold abortSteps
  split
  · next hmem => rw [if_pos (List.mem_append_right _ hmem)]
  · exact Nat.zero_le _

abbrev BudgetAt (log : List Event) (s : State) : Prop :=
  Budget (threadSteps log) (rouses log) s.main s.genIrq (waitSteps s.card)
    (abortSteps (log.filterMap seen))

theorem threadSteps_cons (e : Event) (log : List Event) :
    threadSteps (e :: log) = threadSteps log + (ofThread e).toNat := by
  unfold threadSteps
  cases h : ofThread e <;> simp [h]

theorem rouses_cons (e : Event) (log : List Event) :
    rouses (e :: log) = rouses log + (isRouse e).toNat := by
  unfold rouses
  cases h : isRouse e <;> simp [h]

theorem BudgetAt.keep (h : BudgetAt log s) (he : ofThread e = false)
    (hwait : waitSteps s.card ≤ waitSteps card' + (isRouse e).toNat) :
    BudgetAt (e :: log) { s with card := card' } := by
  have habort := abortSteps_mono (seen e).toList (log.filterMap seen)
  refine Budget.mono h ?_
  rw [threadSteps_cons, rouses_cons, filterMap_cons_eq, he, Bool.toNat_false]
  dsimp only
  omega

private theorem budget_interrupt (h : BudgetAt log s)
    (hs : step cards s .interrupt = some (e, s')) :
    BudgetAt (e :: log) s' := by
  simp only [step, cardStep] at hs
  obtain ⟨⟨e, card'⟩, hstep, hs⟩ := Option.map_eq_some_iff.mp hs
  cases hs
  cases WakeUps.step_of_step hstep with
  | slot _ hslot =>
      cases hslot with
      | notifyIdle => exact h.keep rfl (waitSteps_mono rfl id)
      | notified => exact h.keep rfl (waitSteps_mono rfl fun _ => .inr rfl)

private theorem budget_isrWake (hat : At log s stage aborted) (h : BudgetAt log s)
    (hs : step cards s .isrWake = some (e, s')) : BudgetAt (e :: log) s' := by
  simp only [step, cardStep] at hs
  obtain ⟨⟨e, card'⟩, hstep, hs⟩ := Option.map_eq_some_iff.mp hs
  cases hs
  cases WakeUps.step_of_step hstep with
  | isrWoke hpos =>
      have hzero := hat.moment.released (.inl (hat.wakers.isrs hpos))
      exact h.keep rfl (waitSteps_mono rfl fun _ => .inr hzero)

private theorem budget_rouse {t : Thread} (h : BudgetAt log s)
    (hs : step cards s (.rouse t) = some (e, s')) : BudgetAt (e :: log) s' := by
  simp only [step, cardStep] at hs
  obtain ⟨⟨e, card'⟩, hstep, hs⟩ := Option.map_eq_some_iff.mp hs
  cases hs
  cases WakeUps.step_of_step hstep with
  | roused => exact h.keep rfl (waitSteps_le_succ rfl)

theorem BudgetAt.ofBudget (hevent : isRouse e = false)
    (h : Budget (threadSteps log + 1) (rouses log) s'.main s'.genIrq (waitSteps s'.card)
      (abortSteps ((seen e).toList ++ log.filterMap seen))) : BudgetAt (e :: log) s' := by
  refine Budget.mono h ?_
  have hle := (ofThread e).toNat_le
  rw [threadSteps_cons, rouses_cons, filterMap_cons_eq, hevent, Bool.toNat_false]
  omega

private theorem budget_abort {fd : Int} {k : Int → Prog test Unit} {event : WaitQueue.Event Thread}
    (hat : At log s stage aborted) (h : BudgetAt log s)
    (hg : s.genIrq = some (.call (.inl (.inr (.irqWaitCancel fd))) k))
    (hs : WakeUps.Step s.card (cancelAction s.card .genIrq) event card') :
    BudgetAt (.queue event :: log)
      { s with
        genIrq := some (after (.inl (.inr (.irqWaitCancel fd))) k ((result event).map ioctlStatus))
        card := card' } := by
  unfold BudgetAt at h
  rw [hg] at h
  unfold cancelAction at hs
  cases hwaking : s.card.waking .genIrq with
  | true =>
      have hzero := hat.moment.released (.inr (hat.wakers.genIrq hwaking).2)
      rw [if_pos hwaking] at hs
      cases hs with
      | woke =>
          exact .ofBudget rfl ((h.genIrq (ioctlStatus 0)).weaken
            (waitSteps_mono rfl fun _ => .inr hzero) le_rfl)
  | false =>
      rw [if_neg (by simp [hwaking])] at hs
      cases hs with
      | slot _ hslot =>
          cases hslot with
          | cancelRefused =>
              exact .ofBudget rfl ((h.genIrq _).weaken (waitSteps_mono rfl id)
                (abortSteps_mono _ _))
          | cancelled _ hwaiting =>
              have hfirst : .aborted 0 ∉ log.filterMap seen := fun hmem =>
                hwaiting (hat.moment.released (.inr hmem))
              have hbefore : abortSteps (log.filterMap seen) = 0 := if_neg hfirst
              have hafter : abortSteps (.aborted 0 :: log.filterMap seen) = 1 :=
                if_pos List.mem_cons_self
              have hnext : Budget (threadSteps log + 1) (rouses log) s.main
                  (some (.call (.inl (.inr (.irqWaitCancel fd))) k)) (waitSteps s.card) 1 :=
                h.mono (by omega)
              exact .ofBudget rfl (hnext.weaken (waitSteps_mono rfl fun _ => .inr rfl) hafter.ge)

private theorem budget_genIrq (hat : At log s stage aborted) (h : BudgetAt log s)
    (hs : step cards s (.step .genIrq answer) = some (e, s')) : BudgetAt (e :: log) s' := by
  simp only [step] at hs
  cases hg : s.genIrq with
  | none => simp [hg] at hs
  | some p =>
    cases p with
    | ret => simp [hg] at hs
    | call c k =>
        rw [hg] at hs
        obtain ⟨⟨e, card', r⟩, hcall, hs⟩ := Option.map_eq_some_iff.mp hs
        cases hs
        have hpermit := (hat.genIrq _ hg).1
        generalize (aborted && !s.card.waking .genIrq) = phase at hpermit
        cases hpermit with
        | turn hturn =>
            obtain ⟨rfl, hseen, v, rfl⟩ := callStep_turn hturn hcall
            unfold BudgetAt at h
            rw [hg] at h
            refine .ofBudget ?_ ((h.genIrq v).weaken le_rfl (abortSteps_mono _ _))
            cases hturn <;>
            · cases hcall
              rfl
        | abort fd =>
            obtain ⟨⟨event, card'⟩, hevent, hr⟩ := Option.map_eq_some_iff.mp hcall
            cases hr
            exact budget_abort hat h hg (WakeUps.step_of_step hevent)

/-- A step of `WaitForIRQ` that does not return is one of three. -/
theorem waitSteps_succ {event : WaitQueue.Event Thread} (hat : At log s stage aborted)
    (hs : WakeUps.Step s.card (waitAction s.card .main) event card') (hr : result event = none) :
    waitSteps card' = waitSteps s.card + 1 := by
  unfold waitAction at hs
  cases hpc : s.card.slot.pc .main with
  | idle =>
      rw [hpc] at hs
      have hawake : s.card.asleep .main = false := by
        by_contra hasleep
        have hin := (hat.forgotten .main (by simpa using hasleep)).1
        cases hpc.symm.trans hin
      cases hs with
      | slot _ hslot =>
          cases hslot with
          | refused => cases hr
          | accepted => simp [waitSteps, hpc, WaitQueue.State.after, hawake]
  | waitEvent =>
      rw [hpc] at hs
      cases hs with
      | slot hmay hslot =>
          have hawake : s.card.asleep .main = false := by simpa [WaitQueue.mayStep] using hmay
          cases hslot with
          | awake _ hzero => simp [waitSteps, hpc, hzero]
          | asleep _ hwaiting => simp [waitSteps, hpc, WaitQueue.State.after, hawake, hwaiting]
  | readCancelled ret =>
      rw [hpc] at hs
      cases hs with
      | slot _ hslot =>
          cases hslot with
          | returned => cases hr

private theorem isRouse_of_wait {event : WaitQueue.Event Thread}
    (hs : WakeUps.Step s.card (waitAction s.card .main) event card') :
    isRouse (.queue event) = false := by
  unfold waitAction at hs
  split at hs <;> cases hs <;> rfl

private theorem budget_main (hat : At log s stage aborted) (h : BudgetAt log s)
    (hs : step cards s (.step .main answer) = some (e, s')) : BudgetAt (e :: log) s' := by
  simp only [step] at hs
  cases hm : s.main with
  | ret => simp [hm] at hs
  | call c k =>
      rw [hm] at hs
      unfold BudgetAt at h
      rw [hm] at h
      obtain ⟨⟨e, card', r⟩, hcall, hs⟩ := Option.map_eq_some_iff.mp hs
      cases hs
      have hdone : ∀ v, Budget (threadSteps log + 1) (rouses log) (k v) s.genIrq (waitSteps card')
          (abortSteps ((seen e).toList ++ log.filterMap seen)) := fun v =>
        (h.call (waitSteps_le _) v _).weaken le_rfl (abortSteps_mono _ _)
      cases (hm ▸ hat.main : FollowsMain stage (.call c k)).1 with
      | register | printf | report =>
          cases hcall
          exact .ofBudget rfl (hdone _)
      | spawn =>
          cases hcall
          have hnone : s.genIrq = none := hat.spawned.mpr rfl
          rw [hnone] at hdone
          exact .ofBudget rfl ((hdone ()).spawn cards)
      | join =>
          simp only [callStep] at hcall
          split at hcall
          · cases hcall
            exact .ofBudget rfl (hdone ())
          · cases hcall
      | wait fd =>
          obtain ⟨⟨event, card'⟩, hevent, hr⟩ := Option.map_eq_some_iff.mp hcall
          cases hr
          have hstep := WakeUps.step_of_step hevent
          refine .ofBudget (isRouse_of_wait hstep) ?_
          cases hresult : result event with
          | some ret => exact hdone (ioctlStatus ret)
          | none =>
              have hwait := waitSteps_succ hat hstep hresult
              have hnext : Budget (threadSteps log + 1) (rouses log) s.main s.genIrq
                  (waitSteps card') (abortSteps (log.filterMap seen)) := by
                rw [hm]
                exact h.mono (by omega)
              exact (hm ▸ hnext).weaken le_rfl (abortSteps_mono _ _)

theorem budget_of_run (h : Run (system lib deviceId irqCancelled) log s) : BudgetAt log s := by
  induction h with
  | init =>
      exact ⟨mainCalls, genIrqCalls, callsAtMost_main lib deviceId, fun _ hp => (nomatch hp),
        fun _ => le_rfl, le_rfl⟩
  | @step log s s' a e hrun _ hs ih =>
      obtain ⟨stage, aborted, hat⟩ := at_of_run hrun
      have hs : step (fun i => (lib.cards i).fd) s a = some (e, s') := hs
      cases a with
      | interrupt => exact budget_interrupt ih hs
      | isrWake => exact budget_isrWake hat ih hs
      | rouse t => exact budget_rouse ih hs
      | step t answer =>
          cases t with
          | main => exact budget_main hat ih hs
          | genIrq => exact budget_genIrq hat ih hs

private theorem waitSteps_eq_zero_or_call (h : At log s stage aborted) :
    waitSteps s.card = 0 ∨ ∃ c k, s.main = .call c k := by
  rcases h.moment.idle_or_spawned with hidle | rfl
  · exact .inl (by rw [waitSteps, hidle])
  · obtain ⟨fd, k, hm, -⟩ := main_of_spawned h.main
    exact .inr ⟨_, k, hm⟩

end Steps

/-! ## The outcomes -/

/-- In every run, whenever interrupts arrive and whatever the register ioctls answer: the
threads take a bounded number of steps, and where neither can go on the program has ended
in one of three ways, or `AbortRequest` came before `WaitForIRQ` and `main` sleeps.  From
there nothing but an interrupt leads on, and an interrupt can end the program. -/
theorem irq_test_outcomes (lib : Statics) (deviceId : BitVec 64) (irqCancelled : Int)
    (log : List Event) (s : State) (h : Run (system lib deviceId irqCancelled) log s) :
    threadSteps log ≤ 4 * mainCalls + genIrqCalls + 1 + rouses log ∧
      (Stuck (fun i => (lib.cards i).fd) s → Outcome log s) ∧
      (Stranded log s →
        (∀ new s', Steps (system lib deviceId irqCancelled) s new s' →
          .notified ∉ new.filterMap seen →
            s'.main = s.main ∧ s'.card.slot.pc .main = .waitEvent) ∧
        ∃ new s', Steps (system lib deviceId irqCancelled) s new s' ∧
          s'.main = .ret (.returned 0) ∧ .printed (statusText 0) ∈ new) := by
  obtain ⟨stage, aborted, hat⟩ := at_of_run h
  refine ⟨?_, outcome_of_stuck hat, fun hstranded => ⟨fun new s' hsteps hnew => ?_, ?_⟩⟩
  · exact (budget_of_run h).le (waitSteps_le _) (abortSteps_le _) (waitSteps_eq_zero_or_call hat)
  · obtain ⟨hleft, hmain⟩ := hstranded.until_interrupt h hsteps hnew
    exact ⟨hmain, hleft.pc⟩
  · exact hstranded.after_interrupt h

def oneCard : Statics where
  cards := fun _ => ⟨3, some ⟨0xc2ef, 0xe000, 0x100, 24, "pcie_adio16_16fds", fun _ => 0⟩⟩
  numCards := 1
  initComplete := true

/-- `GenIrq` runs to its end before `main` calls `WaitForIRQ`. -/
theorem irq_test_outcomes_stranded :
    ∃ (log : List Event) (s : State), Run (system oneCard 0 1) log s ∧
      log.filterMap seen = [.accepted, .aborted (-EALREADY)] ∧ threadSteps log = 34 ∧
      Stuck (fun i => (oneCard.cards i).fd) s ∧ Outcome log s ∧
      ∃ new s', Steps (system oneCard 0 1) s new s' ∧ s'.main = .ret (.returned 0) ∧
        .printed (statusText 0) ∈ new := by
  have hexec : ((system oneCard 0 1).exec
      (List.replicate 4 (.step .main noAnswer) ++ List.replicate 28 (.step .genIrq noAnswer) ++
        List.replicate 2 (.step .main noAnswer)) ([], (system oneCard 0 1).init)).map
        (fun c => (c.1.filterMap seen, threadSteps c.1, c.2.card.slot.pc .main,
          hasEnded c.2.genIrq, decide (Stuck (fun i => (oneCard.cards i).fd) c.2))) =
      some ([.accepted, .aborted (-EALREADY)], 34, .waitEvent, true, true) := by decide +kernel
  obtain ⟨log, s, hrun, heq⟩ :=
    (system oneCard 0 1).exists_runWhere_map_of_exec _ _ (fun _ _ _ _ => trivial) hexec
  simp only [Prod.mk.injEq, decide_eq_true_eq] at heq
  obtain ⟨hseen, hsteps, hpc, hended, hstuck⟩ := heq
  have hg : s.genIrq = some (.ret ()) := by
    cases hg : s.genIrq with
    | none => simp [hg, hasEnded] at hended
    | some p =>
      cases p with
      | ret => rfl
      | call => simp [hg, hasEnded] at hended
  obtain ⟨-, houtcome, hleft⟩ := irq_test_outcomes oneCard 0 1 log s hrun
  exact ⟨log, s, hrun, hseen, hsteps, hstuck, houtcome hstuck, (hleft ⟨hpc, hg, hseen⟩).2⟩

end Aiowdm.Proofs.TestOutcomes
