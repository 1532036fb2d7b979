import Aiowdm.Lib.Atomic
import Aiowdm.Programs.IrqTest
import Aiowdm.Proofs.WakeUps

/-!
# Where the interrupt test is

Each of the two threads follows a protocol.  How far they have got, the flags of the card
and what was seen so far belong together at every moment of a run.
-/

namespace Aiowdm.Proofs.TestMoments

open Aiowdm.Lib Aiowdm.Driver
open Aiowdm.Driver.IrqWait (EALREADY ECANCELED Pc WaitFlags)
open Aiowdm.Driver.Probe (Ending)
open Aiowdm.Driver.RegisterIo (RegisterIoContext)
open Aiowdm.Library.Cards Aiowdm.Library.Registers
open Aiowdm.Programs.IrqTest
open Aiowdm.Proofs.WakeUps (NoneForgotten)

/-! ## What becomes of the wait -/

inductive Seen where
  | accepted
  | refused
  | notified
  | aborted (ret : Int)
  | returned (ret : Int)
deriving DecidableEq, Repr

/-- The steps that change what becomes of the wait, and the refusals. -/
def seen : Event → Option Seen
  | .queue (.slot (.accepted _)) => some .accepted
  | .queue (.slot (.refused _ _)) => some .refused
  | .queue (.slot (.notify true)) => some .notified
  | .queue (.slot (.cancel _ ret _)) => some (.aborted ret)
  | .queue (.slot (.returned _ ret)) => some (.returned ret)
  | _ => none

/-! ## The calls of the two threads -/

inductive Stage where
  | setUp
  | spawned
  | waited (status : Int)
  | reported (status : Int)
  | joined (status : Int)

def Stage.status : Stage → Option Int
  | .setUp | .spawned => none
  | .waited status | .reported status | .joined status => some status

/-- The calls of `main`.  In `setUp` it also reports what failed. -/
inductive MainCall : Stage → test.Call → Prop
  | register (c : ioctls.Call) : MainCall .setUp (.inl (.inl c))
  | printf (text : String) : MainCall .setUp (.inr (.printf text))
  | spawn : MainCall .setUp (.inr .spawn)
  | wait (fd : Int) : MainCall .spawned (.inl (.inr (.irqWait fd)))
  | report (status : Int) : MainCall (.waited status) (.inr (.printf (statusText status)))
  | join (status : Int) : MainCall (.reported status) (.inr .join)

def mainProtocol : Protocol test Stage where
  Permits := MainCall
  next
    | .setUp, .inr .spawn, _ => .spawned
    | .spawned, .inl (.inr (.irqWait _)), status => .waited status
    | .waited status, _, _ => .reported status
    | .reported status, _, _ => .joined status
    | stage, _, _ => stage

def MainEnds (e : Ending Int) : Stage → Prop
  | .setUp => e ≠ .returned 0
  | .joined _ => e = .returned 0
  | .spawned | .waited _ | .reported _ => False

inductive TurnCall : test.Call → Prop
  | register (c : ioctls.Call) : TurnCall (.inl (.inl c))
  | printf (text : String) : TurnCall (.inr (.printf text))
  | sleep : TurnCall (.inr .sleep)

/-- The thread's calls; whether `AbortRequest` is behind it. -/
inductive GenIrqCall : Bool → test.Call → Prop
  | turn {c : test.Call} : TurnCall c → GenIrqCall false c
  | abort (fd : Int) : GenIrqCall false (.inl (.inr (.irqWaitCancel fd)))

def genIrqProtocol : Protocol test Bool where
  Permits := GenIrqCall
  next
    | _, .inl (.inr _), _ => true
    | aborted, _, _ => aborted

abbrev FollowsMain (stage : Stage) (p : Prog test (Ending Int)) : Prop :=
  p.Follows mainProtocol MainEnds stage

abbrev FollowsGenIrq (aborted : Bool) (p : Prog test Unit) : Prop :=
  p.Follows genIrqProtocol (fun _ aborted => aborted = true) aborted

theorem follows_registers {α : Type} (p : Prog ioctls α) {f : α → Prog test (Ending Int)}
    (hf : ∀ a, FollowsMain .setUp (f a)) : FollowsMain .setUp (p.inl.inl >>= f) := by
  refine Prog.Follows.bind (Prog.Follows.of_every ?_ hf)
  refine Prog.every_inl_iff.mpr (Prog.every_inl_iff.mpr ?_)
  exact Prog.Every.of_forall (fun c => ⟨.register c, fun _ => rfl⟩) p

private theorem follows_started (cards : Nat → Int) : FollowsMain .setUp (started cards) :=
  ⟨.spawn, fun _ => ⟨.wait _, fun status => ⟨.report status, fun _ =>
    ⟨.join status, fun _ => rfl⟩⟩⟩⟩

theorem follows_failed (text : String) :
    FollowsMain .setUp (printf text >>= fun _ => pure (.returned (-1))) :=
  ⟨.printf text, fun _ => (by decide : Ending.returned (-1) ≠ Ending.returned (0 : Int))⟩

private theorem follows_setUp (cards : Nat → Int) : FollowsMain .setUp (setUp cards) := by
  refine follows_registers _ fun status => ?_
  split
  · exact follows_failed _
  refine follows_registers _ fun status => ?_
  split
  · exact follows_failed _
  refine follows_registers _ fun status => ?_
  split
  · exact follows_failed _
  exact follows_started cards

theorem follows_checkDevice (lib : Statics) (deviceId : BitVec 64) :
    FollowsMain .setUp (checkDevice lib deviceId) := by
  unfold checkDevice
  split
  · exact (by decide : Ending.undefined ≠ Ending.returned (0 : Int))
  split
  · exact follows_failed _
  exact follows_setUp _

private theorem follows_main (lib : Statics) (deviceId : BitVec 64) :
    FollowsMain .setUp (main lib deviceId) := by
  unfold main
  dsimp only
  split
  · exact ⟨.printf _, fun _ => follows_checkDevice lib deviceId⟩
  · exact follows_checkDevice lib deviceId

def Turns {α : Type} (p : Prog test α) : Prop := p.Every TurnCall

theorem turns_registers {α : Type} (p : Prog ioctls α) : Turns p.inl.inl :=
  Prog.every_inl_iff.mpr (Prog.every_inl_iff.mpr (Prog.Every.of_forall .register p))

theorem turns_printf (text : String) : Turns (printf text) := Prog.Every.perform (.printf text)

theorem turns_readAndPrint (cards : Nat → Int) (text : String) (register : BitVec 32) :
    Turns (readAndPrint cards text register) :=
  (turns_registers _).bind fun _ => turns_printf _

private theorem turns_genIrqTurn (cards : Nat → Int) (set : Bool) :
    Turns (genIrqTurn cards set) := by
  refine (turns_printf _).bind fun _ => (turns_registers _).bind fun _ => ?_
  refine (turns_readAndPrint cards _ _).bind fun _ => ?_
  refine (turns_readAndPrint cards _ _).bind fun _ => ?_
  refine (turns_readAndPrint cards _ _).bind fun _ => ?_
  exact Prog.Every.perform .sleep

private theorem turns_genIrqTurns (cards : Nat → Int) (n : Nat) (set : Bool) :
    Turns (genIrqTurns cards n set) := by
  induction n generalizing set with
  | zero => trivial
  | succ n ih => exact (turns_genIrqTurn cards set).bind fun _ => ih !set

theorem next_turn {c : test.Call} (hc : TurnCall c) (r : test.Reply c) :
    genIrqProtocol.next false c r = false := by
  cases hc <;> rfl

private theorem follows_genIrq (cards : Nat → Int) : FollowsGenIrq false (genIrq cards) := by
  refine Prog.Follows.bind (Prog.Follows.of_every ?_ fun _ => ⟨.abort _, fun _ => rfl⟩)
  exact (turns_genIrqTurns cards 3 true).mono fun c hc => ⟨.turn hc, next_turn hc⟩

/-! ## The slot and the history -/

def InWait (pc : Pc) : Prop := pc = .waitEvent ∨ pc = .readCancelled 0

/-- The place of `main` in WAIT, whether the section of `AbortRequest` is behind the thread,
the flags, and what was seen so far. -/
inductive Moment : Stage → Pc → Bool → WaitFlags → List Seen → Prop
  | setUp {irqCancelled : Int} : Moment .setUp .idle false ⟨0, irqCancelled⟩ []
  | spawned {irqCancelled : Int} : Moment .spawned .idle false ⟨0, irqCancelled⟩ []
  | tooEarly {irqCancelled : Int} :
      Moment .spawned .idle true ⟨0, irqCancelled⟩ [.aborted (-EALREADY)]
  | asleep : Moment .spawned .waitEvent false ⟨1, 0⟩ [.accepted]
  | stranded : Moment .spawned .waitEvent true ⟨1, 0⟩ [.accepted, .aborted (-EALREADY)]
  | notified {pc : Pc} {aborted : Bool} {history : List Seen} :
      InWait pc → .notified ∈ history → .aborted 0 ∉ history →
      Moment .spawned pc aborted ⟨0, 0⟩ history
  | cancelled {pc : Pc} :
      InWait pc → Moment .spawned pc true ⟨0, 1⟩ [.aborted 0, .accepted]
  | interrupted {stage : Stage} {aborted : Bool} {history : List Seen} :
      stage.status = some 0 → .notified ∈ history → .aborted 0 ∉ history →
      Moment stage .idle aborted ⟨0, 0⟩ history
  | aborted {stage : Stage} :
      stage.status = some (-1) →
      Moment stage .idle true ⟨0, 1⟩ [.returned (-ECANCELED), .aborted 0, .accepted]

def Released (history : List Seen) : Prop := .notified ∈ history ∨ .aborted 0 ∈ history

section Slot

variable {stage : Stage} {pc : Pc} {aborted : Bool} {flags : WaitFlags} {history : List Seen}
variable {slot slot' : IrqWait.State Thread} {e : IrqWait.Event Thread}

theorem Moment.released (h : Moment stage pc aborted flags history) (hr : Released history) :
    flags.waitingForIrq = 0 := by
  cases h with
  | asleep | stranded => simp [Released, EALREADY] at hr
  | _ => rfl

theorem Moment.notify (h : Moment stage pc aborted slot.flags history)
    (hs : IrqSlot.Step slot .notify e slot') :
    slot'.pc = slot.pc ∧
      Moment stage pc aborted slot'.flags ((seen (.queue (.slot e))).toList ++ history) := by
  cases hs with
  | notifyIdle => exact ⟨rfl, h⟩
  | notified hwaiting =>
      refine ⟨rfl, ?_⟩
      generalize slot.flags = flags at h hwaiting
      cases h with
      | asleep | stranded => exact .notified (.inl rfl) (by simp [seen]) (by simp [seen, EALREADY])
      | _ => exact absurd rfl hwaiting

theorem Moment.abort (h : Moment stage pc false slot.flags history) (hstage : stage ≠ .setUp)
    (hs : IrqSlot.Step slot (.cancel .genIrq) e slot') :
    slot'.pc = slot.pc ∧
      Moment stage pc true slot'.flags ((seen (.queue (.slot e))).toList ++ history) := by
  cases hs with
  | cancelRefused hidle hwaiting =>
      refine ⟨rfl, ?_⟩
      generalize slot.flags = flags at h hwaiting ⊢
      cases h with
      | setUp => exact absurd rfl hstage
      | spawned => exact .tooEarly
      | asleep => cases hwaiting
      | notified hpc hmem hnot =>
          exact .notified hpc (List.mem_cons_of_mem _ hmem) (by simpa [seen, EALREADY] using hnot)
      | interrupted hstatus hmem hnot =>
          exact .interrupted hstatus (List.mem_cons_of_mem _ hmem)
            (by simpa [seen, EALREADY] using hnot)
  | cancelled hidle hwaiting =>
      refine ⟨rfl, ?_⟩
      generalize slot.flags = flags at h hwaiting
      cases h with
      | asleep => exact .cancelled (.inl rfl)
      | _ => exact absurd rfl hwaiting

theorem Moment.enter (h : Moment .spawned .idle aborted flags history) :
    flags.waitingForIrq = 0 ∧ Moment .spawned .waitEvent aborted ⟨1, 0⟩ (.accepted :: history) := by
  cases h with
  | spawned => exact ⟨rfl, .asleep⟩
  | tooEarly => exact ⟨rfl, .stranded⟩
  | notified hin | cancelled hin => rcases hin with hin | hin <;> cases hin
  | interrupted hstatus | aborted hstatus => cases hstatus

theorem Moment.wake (h : Moment .spawned .waitEvent aborted flags history)
    (hwaiting : flags.waitingForIrq = 0) :
    Moment .spawned (.readCancelled 0) aborted flags history := by
  cases h with
  | asleep | stranded => cases hwaiting
  | notified _ hmem hnot => exact .notified (.inr rfl) hmem hnot
  | cancelled => exact .cancelled (.inr rfl)

theorem Moment.finish {ret : Int} (h : Moment .spawned (.readCancelled ret) aborted flags history) :
    Moment (.waited (ioctlStatus (IrqWait.ioctlAccesioPciIrqWaitFinish flags))) .idle aborted flags
      (.returned (IrqWait.ioctlAccesioPciIrqWaitFinish flags) :: history) := by
  cases h with
  | notified _ hmem hnot =>
      exact .interrupted rfl (List.mem_cons_of_mem _ hmem) (by simpa using hnot)
  | cancelled => exact .aborted rfl

theorem Moment.wait {card card' : WaitQueue.State Thread} {e : Event} {r : Option Int}
    (h : Moment .spawned (card.slot.pc .main) aborted card.slot.flags history)
    (hs : queueStep card (waitAction card .main) = some (e, card', r)) :
    Moment (r.elim .spawned .waited) (card'.slot.pc .main) aborted card'.slot.flags
      ((seen e).toList ++ history) := by
  obtain ⟨⟨e, card'⟩, hstep, hr⟩ := Option.map_eq_some_iff.mp hs
  cases hr
  unfold waitAction at hstep
  cases hpc : card.slot.pc .main with
  | idle =>
      rw [hpc] at h hstep
      cases WakeUps.step_of_step hstep with
      | slot _ hslot =>
          rw [WaitQueue.slot_after]
          cases hslot with
          | refused _ hwaiting => simp [h.enter.1] at hwaiting
          | accepted => simpa [seen, result] using h.enter.2
  | waitEvent =>
      rw [hpc] at h hstep
      cases WakeUps.step_of_step hstep with
      | slot _ hslot =>
          rw [WaitQueue.slot_after]
          cases hslot with
          | awake _ hwaiting => simpa [seen, result] using h.wake hwaiting
          | asleep => simpa [seen, result, hpc] using h
  | readCancelled ret =>
      rw [hpc] at h hstep
      cases WakeUps.step_of_step hstep with
      | slot _ hslot =>
          rw [WaitQueue.slot_after]
          cases hslot with
          | returned => simpa [seen, result] using h.finish

theorem Moment.spawn (h : Moment .setUp pc aborted flags history) :
    aborted = false ∧ history = [] ∧ Moment .spawned pc aborted flags history := by
  cases h with
  | setUp => exact ⟨rfl, rfl, .spawned⟩
  | interrupted hstatus => cases hstatus
  | aborted hstatus => cases hstatus

theorem Moment.congr {stage' : Stage} {status : Int} (h : Moment stage pc aborted flags history)
    (hstatus : stage.status = some status) (hstatus' : stage'.status = some status) :
    Moment stage' pc aborted flags history := by
  cases h with
  | interrupted hzero hmem hnot =>
      exact .interrupted (by rw [hstatus', ← hstatus, hzero]) hmem hnot
  | aborted hcancelled => exact .aborted (by rw [hstatus', ← hstatus, hcancelled])
  | _ => cases hstatus

theorem Moment.history_of_waiting {flags : WaitFlags} {history : List Seen}
    (h : Moment .spawned .waitEvent true flags history) (hwaiting : flags.waitingForIrq ≠ 0) :
    history = [.accepted, .aborted (-EALREADY)] := by
  cases h with
  | stranded => rfl
  | _ => exact absurd rfl hwaiting

theorem Moment.ended {pc : Pc} {flags : WaitFlags} {history : List Seen} {status : Int}
    (h : Moment stage pc aborted flags history) (hstatus : stage.status = some status) :
    (status = 0 ∧ .notified ∈ history ∧ .aborted 0 ∉ history) ∨
      (status = -1 ∧ history = [.returned (-ECANCELED), .aborted 0, .accepted]) := by
  cases h with
  | interrupted hzero hmem hnot => exact .inl ⟨by simpa [hzero] using hstatus.symm, hmem, hnot⟩
  | aborted hcancelled => exact .inr ⟨by simpa [hcancelled] using hstatus.symm, rfl⟩
  | _ => cases hstatus

theorem Moment.of_stranded {flags : WaitFlags}
    (h : Moment stage .waitEvent aborted flags [.accepted, .aborted (-EALREADY)]) :
    stage = .spawned ∧ flags = ⟨1, 0⟩ := by
  cases h with
  | stranded => exact ⟨rfl, rfl⟩
  | notified _ hmem => simp at hmem

theorem Moment.idle_or_spawned {pc : Pc} {flags : WaitFlags}
    (h : Moment stage pc aborted flags history) : pc = .idle ∨ stage = .spawned := by
  cases h <;> simp

end Slot

/-! ## Where the program is -/

/-- Who is still to wake the queue: an isr or the thread in `AbortRequest`, and only once
it has emptied the slot. -/
structure Wakers (card : WaitQueue.State Thread) (aborted : Bool) (history : List Seen) :
    Prop where
  main : card.waking .main = false
  genIrq : card.waking .genIrq = true → aborted = true ∧ .aborted 0 ∈ history
  isrs : 0 < card.isrs → .notified ∈ history

/-- `main` has got to `stage`, and the thread past the section of `AbortRequest` where
`aborted` says so. -/
structure At (log : List Event) (s : State) (stage : Stage) (aborted : Bool) : Prop where
  main : FollowsMain stage s.main
  spawned : s.genIrq = none ↔ stage = .setUp
  genIrq : ∀ p, s.genIrq = some p → FollowsGenIrq (aborted && !s.card.waking .genIrq) p
  idle : s.card.slot.pc .genIrq = .idle
  moment : Moment stage (s.card.slot.pc .main) aborted s.card.slot.flags (log.filterMap seen)
  printed : ∀ status, stage = .reported status ∨ stage = .joined status →
    .printed (statusText status) ∈ log
  forgotten : NoneForgotten s.card
  wakers : Wakers s.card aborted (log.filterMap seen)

section Cards

variable {card card' : WaitQueue.State Thread} {stage : Stage} {aborted : Bool}
variable {history : List Seen} {e : Event}

theorem Wakers.mono {new : List Seen} (h : Wakers card aborted history)
    (hwaking : card'.waking = card.waking) (hisrs : card'.isrs = card.isrs) :
    Wakers card' aborted (new ++ history) where
  main := by rw [hwaking, h.main]
  genIrq hg := by
    obtain ⟨haborted, hmem⟩ := h.genIrq (hwaking ▸ hg)
    exact ⟨haborted, List.mem_append_right _ hmem⟩
  isrs hpos := List.mem_append_right _ (h.isrs (hisrs ▸ hpos))

private theorem wait_frame {r : Option Int}
    (hs : queueStep card (waitAction card .main) = some (e, card', r)) :
    card'.slot.pc .genIrq = card.slot.pc .genIrq ∧ card'.waking = card.waking ∧
      card'.isrs = card.isrs := by
  obtain ⟨⟨e, card'⟩, hstep, hr⟩ := Option.map_eq_some_iff.mp hs
  cases hr
  unfold waitAction at hstep
  split at hstep
  all_goals
    cases WakeUps.step_of_step hstep with
    | slot _ hslot => cases hslot <;> simp [WaitQueue.State.after]

private theorem forgotten_of_queueStep {a : WaitQueue.Action Thread} {r : Option Int}
    (h : NoneForgotten card) (hs : queueStep card a = some (e, card', r)) :
    NoneForgotten card' := by
  obtain ⟨⟨e, card'⟩, hstep, hr⟩ := Option.map_eq_some_iff.mp hs
  cases hr
  exact h.step (WakeUps.step_of_step hstep)

end Cards

section Steps

variable {lib : Statics} {deviceId : BitVec 64} {irqCancelled : Int} {cards : Nat → Int}
variable {log : List Event} {s s' : State} {stage : Stage} {aborted : Bool}
variable {answer : Int × RegisterIoContext} {e : Event}

private theorem at_init (lib : Statics) (deviceId : BitVec 64) (irqCancelled : Int) :
    At [] (system lib deviceId irqCancelled).init .setUp false where
  main := follows_main lib deviceId
  spawned := ⟨fun _ => rfl, fun _ => rfl⟩
  genIrq := fun _ h => by cases h
  idle := rfl
  moment := .setUp
  printed := fun _ h => by rcases h with h | h <;> cases h
  forgotten := fun _ h => nomatch h
  wakers := ⟨rfl, (nomatch ·), (nomatch ·)⟩

theorem At.keep {card' : WaitQueue.State Thread} (h : At log s stage aborted)
    (hpc : card'.slot.pc = s.card.slot.pc) (hwaking : card'.waking = s.card.waking)
    (hmoment : Moment stage (s.card.slot.pc .main) aborted card'.slot.flags
      ((seen e).toList ++ log.filterMap seen))
    (hforgotten : NoneForgotten card')
    (hisrs : 0 < card'.isrs → .notified ∈ (seen e).toList ++ log.filterMap seen) :
    At (e :: log) { s with card := card' } stage aborted where
  main := h.main
  spawned := h.spawned
  genIrq p hp := by
    rw [hwaking]
    exact h.genIrq p hp
  idle := (congrFun hpc _).trans h.idle
  moment := by
    rw [filterMap_cons_eq]
    exact congrFun hpc .main ▸ hmoment
  printed status hst := List.mem_cons_of_mem _ (h.printed status hst)
  forgotten := hforgotten
  wakers := by
    rw [filterMap_cons_eq]
    refine ⟨by rw [hwaking, h.wakers.main], fun hg => ?_, hisrs⟩
    obtain ⟨haborted, hmem⟩ := h.wakers.genIrq (hwaking ▸ hg)
    exact ⟨haborted, List.mem_append_right _ hmem⟩

private theorem at_interrupt (h : At log s stage aborted)
    (hs : step cards s .interrupt = some (e, s')) : At (e :: log) s' stage aborted := by
  simp only [step, cardStep] at hs
  obtain ⟨⟨e, card'⟩, hstep, hs⟩ := Option.map_eq_some_iff.mp hs
  cases hs
  have hforgotten := h.forgotten.step (WakeUps.step_of_step hstep)
  cases WakeUps.step_of_step hstep with
  | slot _ hslot =>
      obtain ⟨hpc, hmoment⟩ := h.moment.notify hslot
      refine h.keep ?_ ?_ ?_ hforgotten fun hpos => ?_
      · rw [WaitQueue.slot_after, hpc]
      · cases hslot <;> rfl
      · rwa [WaitQueue.slot_after]
      · cases hslot with
        | notifyIdle => exact List.mem_append_right _ (h.wakers.isrs hpos)
        | notified => exact List.mem_append_left _ (List.mem_singleton_self _)

private theorem at_isrWake (h : At log s stage aborted)
    (hs : step cards s .isrWake = some (e, s')) : At (e :: log) s' stage aborted := by
  simp only [step, cardStep] at hs
  obtain ⟨⟨e, card'⟩, hstep, hs⟩ := Option.map_eq_some_iff.mp hs
  cases hs
  have hforgotten := h.forgotten.step (WakeUps.step_of_step hstep)
  cases WakeUps.step_of_step hstep with
  | isrWoke hpos => exact h.keep rfl rfl h.moment hforgotten fun _ => h.wakers.isrs hpos

private theorem at_rouse {t : Thread} (h : At log s stage aborted)
    (hs : step cards s (.rouse t) = some (e, s')) : At (e :: log) s' stage aborted := by
  simp only [step, cardStep] at hs
  obtain ⟨⟨e, card'⟩, hstep, hs⟩ := Option.map_eq_some_iff.mp hs
  cases hs
  have hforgotten := h.forgotten.step (WakeUps.step_of_step hstep)
  cases WakeUps.step_of_step hstep with
  | roused => exact h.keep rfl rfl h.moment hforgotten h.wakers.isrs

theorem callStep_turn {card card' : WaitQueue.State Thread} {t : Thread} {ended : Bool}
    {c : test.Call} {r : Option (test.Reply c)} (hc : TurnCall c)
    (hs : callStep card t answer ended c = some (e, card', r)) :
    card' = card ∧ seen e = none ∧ ∃ v, r = some v := by
  cases hc <;>
  · cases hs
    exact ⟨rfl, rfl, _, rfl⟩

theorem At.genIrqStep {card' : WaitQueue.State Thread} {aborted' : Bool} {p : Prog test Unit}
    (h : At log s stage aborted) (hne : stage ≠ .setUp)
    (hp : FollowsGenIrq (aborted' && !card'.waking .genIrq) p)
    (hpc : card'.slot.pc = s.card.slot.pc)
    (hmoment : Moment stage (s.card.slot.pc .main) aborted' card'.slot.flags
      ((seen e).toList ++ log.filterMap seen))
    (hforgotten : NoneForgotten card')
    (hwakers : Wakers card' aborted' ((seen e).toList ++ log.filterMap seen)) :
    At (e :: log) { s with genIrq := some p, card := card' } stage aborted' where
  main := h.main
  spawned := iff_of_false (Option.some_ne_none _) hne
  genIrq q hq := by
    cases hq
    exact hp
  idle := (congrFun hpc _).trans h.idle
  moment := by
    rw [filterMap_cons_eq]
    exact congrFun hpc .main ▸ hmoment
  printed status hst := List.mem_cons_of_mem _ (h.printed status hst)
  forgotten := hforgotten
  wakers := by
    rw [filterMap_cons_eq]
    exact hwakers

private theorem at_abort {fd : Int} {k : Int → Prog test Unit} {card' : WaitQueue.State Thread}
    {event : WaitQueue.Event Thread} (h : At log s stage false) (hne : stage ≠ .setUp)
    (hk : ∀ status, FollowsGenIrq true (k status)) (hwaking : s.card.waking .genIrq = false)
    (hs : WakeUps.Step s.card (.slot (.cancel .genIrq)) event card') :
    At (.queue event :: log)
      { s with
        genIrq := some (after (.inl (.inr (.irqWaitCancel fd))) k ((result event).map ioctlStatus))
        card := card' } stage true := by
  have hforgotten := h.forgotten.step hs
  cases hs with
  | slot _ hslot =>
      obtain ⟨hpc, hmoment⟩ := h.moment.abort hne hslot
      cases hslot with
      | cancelRefused =>
          refine h.genIrqStep hne ?_ hpc hmoment hforgotten ⟨h.wakers.main, fun hg => ?_, ?_⟩
          · change FollowsGenIrq (true && !s.card.waking .genIrq) (k _)
            rw [hwaking]
            exact hk _
          · exact nomatch hwaking.symm.trans hg
          · exact fun hpos => List.mem_append_right _ (h.wakers.isrs hpos)
      | cancelled =>
          refine h.genIrqStep hne ?_ hpc hmoment hforgotten ⟨?_, fun _ => ⟨rfl, ?_⟩, ?_⟩
          · exact ⟨.abort fd, hk⟩
          · exact h.wakers.main
          · exact List.mem_append_left _ (List.mem_singleton_self _)
          · exact fun hpos => List.mem_append_right _ (h.wakers.isrs hpos)

private theorem at_wake {p : Prog test Unit} {card' : WaitQueue.State Thread}
    {event : WaitQueue.Event Thread} (h : At log s stage aborted) (hne : stage ≠ .setUp)
    (hp : FollowsGenIrq true p) (hwaking : s.card.waking .genIrq = true)
    (hs : WakeUps.Step s.card (.wake .genIrq) event card') :
    At (.queue event :: log) { s with genIrq := some p, card := card' } stage aborted := by
  have hforgotten := h.forgotten.step hs
  obtain ⟨rfl, -⟩ := h.wakers.genIrq hwaking
  cases hs with
  | woke =>
      refine h.genIrqStep hne ?_ rfl h.moment hforgotten ⟨?_, fun hg => ?_, h.wakers.isrs⟩
      · simpa using hp
      · exact h.wakers.main
      · simp at hg

private theorem at_genIrq (h : At log s stage aborted)
    (hs : step cards s (.step .genIrq answer) = some (e, s')) :
    ∃ aborted', At (e :: log) s' stage aborted' := by
  simp only [step] at hs
  cases hg : s.genIrq with
  | none => simp [hg] at hs
  | some p =>
    cases p with
    | ret => simp [hg] at hs
    | call c k =>
        rw [hg] at hs
        obtain ⟨⟨e, card', r⟩, hstep, hs⟩ := Option.map_eq_some_iff.mp hs
        cases hs
        have hne : stage ≠ .setUp := fun hst => nomatch hg.symm.trans (h.spawned.mpr hst)
        obtain ⟨hpermit, hnext⟩ := h.genIrq _ hg
        generalize hphase : (aborted && !s.card.waking .genIrq) = phase at hpermit hnext
        cases hpermit with
        | turn hturn =>
            obtain ⟨rfl, hseen, v, rfl⟩ := callStep_turn hturn hstep
            have hp := next_turn hturn v ▸ hnext v
            refine ⟨aborted, h.genIrqStep hne ?_ rfl ?_ h.forgotten ?_⟩
            · rw [hphase]
              exact hp
            · rw [hseen]
              exact h.moment
            · exact h.wakers.mono rfl rfl
        | abort fd =>
            simp only [callStep, queueStep, cancelAction] at hstep
            obtain ⟨⟨event, card'⟩, hevent, hr⟩ := Option.map_eq_some_iff.mp hstep
            cases hr
            cases hwaking : s.card.waking .genIrq with
            | false =>
                obtain rfl : aborted = false := by simpa [hwaking] using hphase
                rw [hwaking] at hevent
                exact ⟨true, at_abort h hne hnext hwaking (WakeUps.step_of_step hevent)⟩
            | true =>
                rw [hwaking] at hevent
                refine ⟨aborted, ?_⟩
                cases WakeUps.step_of_step hevent with
                | woke => exact at_wake h hne (hnext (ioctlStatus 0)) hwaking (.woke hwaking)

private theorem at_main (h : At log s stage aborted)
    (hs : step cards s (.step .main answer) = some (e, s')) :
    ∃ stage', At (e :: log) s' stage' aborted := by
  simp only [step] at hs
  cases hm : s.main with
  | ret => simp [hm] at hs
  | call c k =>
      rw [hm] at hs
      obtain ⟨⟨e, card', r⟩, hstep, hs⟩ := Option.map_eq_some_iff.mp hs
      cases hs
      obtain ⟨hpermit, hnext⟩ := hm ▸ h.main
      cases hpermit with
      | register | printf =>
          cases hstep
          refine ⟨.setUp, hnext _, h.spawned, h.genIrq, h.idle, h.moment, fun _ hst => ?_,
            h.forgotten, h.wakers⟩
          rcases hst with hst | hst <;> cases hst
      | spawn =>
          cases hstep
          obtain ⟨rfl, -, hmoment⟩ := h.moment.spawn
          refine ⟨.spawned, hnext (), ?_, fun p hp => ?_, h.idle, hmoment, fun _ hst => ?_,
            h.forgotten, h.wakers⟩
          · exact iff_of_false (Option.some_ne_none _) (nomatch ·)
          · cases hp
            exact follows_genIrq cards
          · rcases hst with hst | hst <;> cases hst
      | wait fd =>
          have hcall : queueStep s.card (waitAction s.card .main) = some (e, card', r) := hstep
          have hne : e ≠ .spawned := by
            obtain ⟨_, _, hr⟩ := Option.map_eq_some_iff.mp hcall
            cases hr
            exact (nomatch ·)
          obtain ⟨hidle, hwaking, hisrs⟩ := wait_frame hcall
          refine ⟨r.elim .spawned .waited, ?_, ?_, ?_, ?_, ?_, ?_, ?_, ?_⟩
          · cases r with
            | none => exact ⟨.wait fd, hnext⟩
            | some status => exact hnext status
          · rw [if_neg hne]
            have hstage : r.elim Stage.spawned .waited ≠ .setUp := by
              cases r <;> exact (nomatch ·)
            exact iff_of_false (fun hnone => nomatch h.spawned.mp hnone) hstage
          · rw [if_neg hne, hwaking]
            exact h.genIrq
          · exact hidle.trans h.idle
          · rw [filterMap_cons_eq]
            exact h.moment.wait hcall
          · intro status hst
            rcases hst with hst | hst <;> cases r <;> cases hst
          · exact forgotten_of_queueStep h.forgotten hcall
          · rw [filterMap_cons_eq]
            exact h.wakers.mono hwaking hisrs
      | report status =>
          cases hstep
          refine ⟨.reported status, hnext (), ?_, h.genIrq, h.idle, h.moment.congr rfl rfl, ?_,
            h.forgotten, h.wakers⟩
          · exact iff_of_false (fun hnone => nomatch h.spawned.mp hnone) (nomatch ·)
          · intro status' hst
            simp only [Stage.reported.injEq, reduceCtorEq, or_false] at hst
            exact hst ▸ List.mem_cons_self
      | join status =>
          simp only [callStep] at hstep
          split at hstep
          · cases hstep
            refine ⟨.joined status, hnext (), ?_, h.genIrq, h.idle, h.moment.congr rfl rfl, ?_,
              h.forgotten, h.wakers⟩
            · exact iff_of_false (fun hnone => nomatch h.spawned.mp hnone) (nomatch ·)
            · intro status' hst
              simp only [Stage.joined.injEq, reduceCtorEq, false_or] at hst
              exact List.mem_cons_of_mem _ (h.printed status' (.inl (hst ▸ rfl)))
          · cases hstep

theorem at_of_run (h : Run (system lib deviceId irqCancelled) log s) :
    ∃ stage aborted, At log s stage aborted := by
  induction h with
  | init => exact ⟨_, _, at_init lib deviceId irqCancelled⟩
  | @step _ s s' a e _ _ hs ih =>
      obtain ⟨stage, aborted, hat⟩ := ih
      have hs : step (fun i => (lib.cards i).fd) s a = some (e, s') := hs
      cases a with
      | interrupt => exact ⟨_, _, at_interrupt hat hs⟩
      | isrWake => exact ⟨_, _, at_isrWake hat hs⟩
      | rouse t => exact ⟨_, _, at_rouse hat hs⟩
      | step t answer =>
          cases t with
          | main =>
              obtain ⟨stage', hat'⟩ := at_main hat hs
              exact ⟨_, _, hat'⟩
          | genIrq =>
              obtain ⟨aborted', hat'⟩ := at_genIrq hat hs
              exact ⟨_, _, hat'⟩

end Steps

end Aiowdm.Proofs.TestMoments
