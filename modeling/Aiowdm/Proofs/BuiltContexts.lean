import Aiowdm.Driver.ProbeInterrupts
import Aiowdm.Proofs.HandleLifetime

/-!
# Whether the isr finds its context built

Probe registers the isr before it initialises the lock and the queue the isr uses.  As
long as no isr that runs in between reads its status register with an event in it, every
lock that is taken and every queue that is woken has been initialised, and no lock is
initialised while it is held.
-/

namespace Aiowdm.Proofs.BuiltContexts

open Aiowdm.Lib Aiowdm.Driver Aiowdm.Driver.Bus Aiowdm.Driver.DeviceContext
open Aiowdm.Driver.DeviceTable Aiowdm.Driver.InterruptStyles Aiowdm.Driver.Kernel
open Aiowdm.Driver.Probe Aiowdm.Driver.ProbeInterrupts Aiowdm.Proofs.SetupCalls
open Aiowdm.Driver.ModuleRuns (Machine)
open Aiowdm.Proofs.HandleLifetime (nextPtr_handler)
open Aiowdm.Proofs.Ownership (forall_update)
open Aiowdm.Proofs.ProbeStatus (allSucceed)

def Initialised (log : List Event) (p : Ptr) : Prop :=
  .spinLockInit p ∈ log ∧ .initWaitqueueHead p ∈ log

/-- An isr has taken the lock of the context and not released it since. -/
def HeldByIsr (p : Ptr) : List Event → Prop
  | [] => False
  | .spinLock q :: log => q = p ∨ HeldByIsr p log
  | .spinUnlock q :: log => q ≠ p ∧ HeldByIsr p log
  | _ :: log => HeldByIsr p log

/-- An isr takes a lock or wakes a queue only once both are initialised, and no lock is
initialised while an isr holds it. -/
def UsesBuilt (e : Event) (older : List Event) : Prop :=
  match e with
  | .spinLock p | .wakeUpInterruptible p => Initialised older p
  | .spinLockInit p => ¬HeldByIsr p older
  | _ => True

/-! ## The condition -/

def isStatusRead : isr.Call → Bool
  | .inl (.ioread .dword addr) => addr = bar 2 0x40
  | _ => false

def readsStatus (s : State) (p : Ptr) : Bool :=
  match s.isrs p with
  | some (.call c _) => isStatusRead c
  | _ => false

/-- If an isr reads its status register with an event in it, its context is built. -/
def NoEarlyEvent (log : List Event) (s : State) : Action → Prop
  | .isr p reading =>
      readsStatus s p = true → Initialised log p ∨ reading &&& ADIO16F_INTERRUPT_MASK = 0
  | _ => True

instance (log : List Event) (p : Ptr) : Decidable (Initialised log p) :=
  inferInstanceAs (Decidable (_ ∧ _))

instance (log : List Event) (s : State) : DecidablePred (NoEarlyEvent log s)
  | .isr p reading => inferInstanceAs (Decidable (readsStatus s p = true →
      Initialised log p ∨ reading &&& ADIO16F_INTERRUPT_MASK = 0))
  | .probe _ _ | .run _ _ | .interrupt _ | .wait _ | .cancel _ => isTrue trivial

/-! ## How far probe is with a context -/

inductive Stage where
  | start
  | building (context : Ptr)
  | lockReady (context : Ptr)
  | ready (context : Ptr)

def Stage.context : Stage → Option Ptr
  | .start => none
  | .building p | .lockReady p | .ready p => some p

/-- Probe allocates one context, and initialises its lock and then its queue, once. -/
def Permits (stage : Stage) : KernelCall → Prop
  | .kzalloc => stage = .start
  | .store p .irqLock => stage = .building p
  | .store p .waitQueue => stage = .lockReady p
  | _ => True

def next (stage : Stage) : (c : KernelCall) → KernelCall.Reply c → Stage
  | .kzalloc, some p => .building p
  | .store p .irqLock, _ => .lockReady p
  | .store p .waitQueue, _ => .ready p
  | _, _ => stage

def setup : Protocol kernel Stage where
  Permits := Permits
  next := next

theorem permits_of_plain {dev : PciDev} {context : Ptr} {c : KernelCall}
    (h : PlainProbeCall dev context c) (stage : Stage) :
    Permits stage c ∧ ∀ r, next stage c r = stage := by
  cases c with
  | store p field =>
      cases field with
      | irqLock | waitQueue => exact h.elim
      | _ => exact ⟨trivial, fun _ => rfl⟩
  | _ => first | exact h.elim | exact ⟨trivial, fun _ => rfl⟩

section Probe

variable (dev : PciDev) (context : Ptr)

theorem follows_probeIrq (d : DeviceDescriptor) :
    (probeIrq dev context d).Follows setup (fun _ _ => True) (.building context) := by
  refine .perform_bind trivial fun irq => .perform_bind trivial fun status => ?_
  refine .perform_bind rfl fun _ => .perform_bind rfl fun _ => ?_
  split
  · trivial
  · refine .of_every ?_ fun _ => trivial
    exact (every_plain_probeDma dev context d _).mono fun _ h => permits_of_plain h _

theorem follows_probeContext (table : List DeviceDescriptor) (device : Nat) :
    (probeContext table dev device context).Follows setup (fun _ _ => True)
      (.building context) := by
  refine .perform_bind trivial fun _ => .perform_bind trivial fun _ => ?_
  split
  · trivial
  · refine .perform_bind trivial fun _ => .bind ?_
    refine .of_every ((every_plain_probeBars dev context _).mono
      fun _ h => permits_of_plain h _) fun _ => .bind ?_
    refine .of_every (.guarded (.perform ⟨trivial, fun _ => rfl⟩)) fun _ => ?_
    exact follows_probeIrq dev context _

theorem follows_accesioPciDriverProbe (table : List DeviceDescriptor) (device : Nat) :
    (accesioPciDriverProbe table dev device).Follows setup (fun _ _ => True) .start := by
  refine .perform_bind trivial fun status => ?_
  split
  · trivial
  · refine .perform_bind trivial fun status => ?_
    split
    · trivial
    · refine .perform_bind rfl fun context => ?_
      cases context with
      | none => trivial
      | some context => exact follows_probeContext dev context table device

end Probe

/-! ## What is left of a run of an isr -/

/-- The calls of an isr that concern neither the context nor the status register. -/
def Harmless (c : isr.Call) : Prop :=
  isStatusRead c = false ∧ ∃ access, c = .inl access

theorem harmless_access {access : BusCall} (h : isStatusRead (.inl access) = false) :
    Harmless (.inl access) := ⟨h, access, rfl⟩

/-- Only the isr of an ADIO16F card touches its context. -/
theorem every_harmless_interrupt {style : Style} (h : style ≠ .adio16f) :
    style.interrupt.Every Harmless := by
  cases style
  case adio16f => exact absurd rfl h
  all_goals
    refine every_leaveIfNotLatched (harmless_access rfl) ?_
    first
      | trivial
      | exact ⟨harmless_access rfl, fun _ => trivial⟩
      | exact ⟨harmless_access rfl, fun _ => ⟨harmless_access rfl, fun _ => trivial⟩⟩

/-- What is left touches nothing, or is all of the isr of an ADIO16F card, or it comes
where the context is built. -/
def IsrOk (log : List Event) (p : Ptr) (prog : Prog isr IrqReturn) : Prop :=
  prog.Every Harmless ∨ prog = interruptAdio16fStyle ∨ Initialised log p

private theorem isrOk_interrupt (log : List Event) (p : Ptr) (style : Style) :
    IsrOk log p style.interrupt := by
  by_cases h : style = .adio16f
  · exact .inr (.inl (congrArg Style.interrupt h))
  · exact .inl (every_harmless_interrupt h)

/-! ## The invariant -/

def ProbeFollows : Option (Prog kernel (Ending Int)) → Stage → Prop
  | none, _ => True
  | some p, stage => p.Follows setup (fun _ _ => True) stage

/-- No two probes work on one context, and none initialises a lock twice. -/
structure Inv (log : List Event) (s : State) (stage : PciDev → Stage) : Prop where
  probes : ∀ dev, ProbeFollows (s.probes dev) (stage dev)
  below : ∀ dev p, (stage dev).context = some p → p < s.world.nextPtr
  distinct : ∀ dev dev' p, (stage dev).context = some p → (stage dev').context = some p →
    dev = dev'
  building : ∀ dev p, stage dev = .building p → .spinLockInit p ∉ log
  allocated : ∀ p, .spinLockInit p ∈ log → p < s.world.nextPtr
  isrs : ∀ p prog, s.isrs p = some prog → IsrOk log p prog
  locked : ∀ p, s.locked p = true → Initialised log p
  held : ∀ p, HeldByIsr p log → Initialised log p

variable {m : Machine} {o : Outcomes} {log : List Event} {s s' : State}
variable {stage : PciDev → Stage} {e : Event} {p : Ptr}

theorem Initialised.cons (h : Initialised log p) (e : Event) : Initialised (e :: log) p :=
  ⟨List.mem_cons_of_mem e h.1, List.mem_cons_of_mem e h.2⟩

theorem IsrOk.cons {prog : Prog isr IrqReturn} (h : IsrOk log p prog) (e : Event) :
    IsrOk (e :: log) p prog :=
  h.imp_right (Or.imp_right fun hp => hp.cons e)

theorem HeldByIsr.of_cons (h : HeldByIsr p (e :: log)) (he : e ≠ .spinLock p) :
    HeldByIsr p log := by
  cases e with
  | spinLock q => exact h.resolve_left fun heq => he (congrArg Event.spinLock heq)
  | spinUnlock q => exact h.2
  | _ => exact h

theorem Inv.cons (h : Inv log s stage) (hinit : ∀ p, e ≠ .spinLockInit p)
    (htake : ∀ p, e = .spinLock p → Initialised log p) : Inv (e :: log) s stage :=
  { h with
    building := fun dev p hp hmem =>
      (List.mem_cons.mp hmem).elim (fun heq => hinit p heq.symm) (h.building dev p hp)
    allocated := fun p hmem =>
      h.allocated p ((List.mem_cons.mp hmem).resolve_left (hinit p).symm)
    isrs := fun p prog hp => (h.isrs p prog hp).cons e
    locked := fun p hp => (h.locked p hp).cons e
    held := fun p hp => by
      by_cases he : e = .spinLock p
      · exact (htake p he).cons e
      · exact (h.held p (hp.of_cons he)).cons e }

theorem Inv.quiet (h : Inv log s stage) : Inv (.quiet :: log) s stage :=
  h.cons (fun _ => Event.noConfusion) fun _ => Event.noConfusion

theorem Inv.setIsr (h : Inv log s stage) {prog : Option (Prog isr IrqReturn)}
    (hprog : ∀ q ∈ prog, IsrOk log p q) : Inv log (s.setIsr p prog) stage :=
  { h with
    isrs := fun q r hr => by
      by_cases hq : q = p
      · subst q
        exact hprog r (by simpa [State.setIsr] using hr)
      · exact h.isrs q r (by simpa [State.setIsr, hq] using hr) }

theorem Inv.setLocked (h : Inv log s stage) {held : Bool} (hp : held = true → Initialised log p) :
    Inv log (s.setLocked p held) stage :=
  { h with
    locked := fun q hq => by
      by_cases hqp : q = p
      · subst q
        exact hp (by simpa [State.setLocked] using hq)
      · exact h.locked q (by simpa [State.setLocked, hqp] using hq) }

theorem Inv.store (h : Inv log s stage) (field : Store) :
    Inv log { s with world := s.world.store p field } stage :=
  { h with }

theorem Inv.contexts_update (h : Inv log s stage) (dev : PciDev) {x : Stage} {n : Ptr}
    (hn : s.world.nextPtr ≤ n)
    (hx : ∀ p, x.context = some p →
      (stage dev).context = some p ∨ p = s.world.nextPtr ∧ p < n) :
    (∀ d p, (Function.update stage dev x d).context = some p → p < n) ∧
      ∀ d d' p, (Function.update stage dev x d).context = some p →
        (Function.update stage dev x d').context = some p → d = d' := by
  have hof (d : PciDev) (p : Ptr) (hp : (Function.update stage dev x d).context = some p) :
      (stage d).context = some p ∨ d = dev ∧ p = s.world.nextPtr ∧ p < n := by
    by_cases hd : d = dev
    · subst d
      rw [Function.update_self] at hp
      exact (hx p hp).imp_right fun hnew => ⟨rfl, hnew⟩
    · rw [Function.update_of_ne hd] at hp
      exact .inl hp
  refine ⟨fun d p hp => ?_, fun d d' p hp hp' => ?_⟩
  · rcases hof d p hp with hold | ⟨_, _, hlt⟩
    · exact (h.below d p hold).trans_le hn
    · exact hlt
  · rcases hof d p hp with hold | ⟨hd, heq, _⟩ <;> rcases hof d' p hp' with hold' | ⟨hd', heq', _⟩
    · exact h.distinct d d' p hold hold'
    · exact absurd (h.below d p hold) (heq' ▸ Nat.lt_irrefl _)
    · exact absurd (h.below d' p hold') (heq ▸ Nat.lt_irrefl _)
    · exact hd.trans hd'.symm

theorem Inv.setProbe (h : Inv log s stage) {dev : PciDev} {prog : Option (Prog kernel (Ending Int))}
    (hprog : ProbeFollows prog .start) :
    Inv log (s.setProbe dev prog) (Function.update stage dev .start) := by
  obtain ⟨hbelow, hdistinct⟩ := h.contexts_update dev (x := .start) le_rfl
    fun p hp => by cases hp
  refine { h with
    probes := forall_update h.probes hprog
    below := hbelow
    distinct := hdistinct
    building := fun d p hp => ?_ }
  by_cases hd : d = dev
  · subst d
    rw [Function.update_self] at hp
    cases hp
  · rw [Function.update_of_ne hd] at hp
    exact h.building d p hp

/-! ### Calls of a probe -/

/-- What a permitted call does to the stage of its probe. -/
inductive Advance (w w' : World) (x : Stage) : KernelCall → Stage → Prop
  | stay {c : KernelCall} : (∀ p, c ≠ .store p .irqLock) → Advance w w' x c x
  | allocate : w.nextPtr < w'.nextPtr → Advance w w' x .kzalloc (.building w.nextPtr)
  | lockInit {p : Ptr} : x = .building p → Advance w w' x (.store p .irqLock) (.lockReady p)
  | queueInit {p : Ptr} : x = .lockReady p → Advance w w' x (.store p .waitQueue) (.ready p)

private theorem advance (pci : PciDev → PciResources) (o : Outcomes) (w : World) {x : Stage}
    {c : KernelCall} (hc : Permits x c) :
    Advance w (handler pci o c w).2 x c (next x c (handler pci o c w).1) := by
  cases c with
  | kzalloc =>
      have hcall : handler pci o .kzalloc w =
          if o.kzalloc then (some w.nextPtr, w.kzalloc) else (none, w) := rfl
      rw [hcall]
      cases o.kzalloc with
      | false => exact .stay fun _ => KernelCall.noConfusion
      | true => exact .allocate (Nat.lt_succ_self _)
  | store q field =>
      cases field with
      | irqLock => exact .lockInit hc
      | waitQueue => exact .queueInit hc
      | _ => exact .stay fun _ heq => by cases heq
  | _ => exact .stay fun _ => KernelCall.noConfusion

theorem Advance.context {w w' : World} {x y : Stage} {c : KernelCall} (h : Advance w w' x c y)
    (hp : y.context = some p) : x.context = some p ∨ p = w.nextPtr ∧ p < w'.nextPtr := by
  cases h with
  | stay => exact .inl hp
  | allocate hlt =>
      cases hp
      exact .inr ⟨rfl, hlt⟩
  | lockInit hx | queueInit hx =>
      rw [hx]
      exact .inl hp

theorem Advance.building {w w' : World} {x : Stage} {c : KernelCall}
    (h : Advance w w' x c (.building p)) :
    (x = .building p ∨ p = w.nextPtr) ∧ c ≠ .store p .irqLock := by
  cases h with
  | stay hc => exact ⟨.inl rfl, hc p⟩
  | allocate => exact ⟨.inr rfl, KernelCall.noConfusion⟩

theorem spinLockInit_eq_ofCall {c : KernelCall} :
    Event.ofCall c = .spinLockInit p ↔ c = .store p .irqLock := by
  cases c with
  | store q field => cases field <;> simp [Event.ofCall]
  | _ => simp [Event.ofCall]

private theorem ofCall_ne_spinLock (c : KernelCall) : Event.ofCall c ≠ .spinLock p := by
  cases c with
  | store q field => cases field <;> simp [Event.ofCall]
  | _ => simp [Event.ofCall]

private theorem usesBuilt_ofCall {c : KernelCall}
    (h : ∀ p, c = .store p .irqLock → ¬HeldByIsr p log) :
    UsesBuilt (Event.ofCall c) log := by
  cases c with
  | store q field =>
      cases field with
      | irqLock => exact h q rfl
      | _ => trivial
  | _ => trivial

theorem building_of_permits {x : Stage} {c : KernelCall} (hc : Permits x c)
    (he : Event.ofCall c = .spinLockInit p) : x = .building p := by
  rw [spinLockInit_eq_ofCall.mp he] at hc
  exact hc

theorem Inv.spinLockInit_notMem (h : Inv log s stage) {dev d : PciDev} {c : KernelCall}
    {w : World} {y : Stage} (hpermits : Permits (stage dev) c)
    (hadvance : Advance s.world w (stage dev) c y)
    (hp : Function.update stage dev y d = .building p) :
    .spinLockInit p ∉ Event.ofCall c :: log := by
  intro hmem
  by_cases hd : d = dev
  · subst d
    rw [Function.update_self] at hp
    rw [hp] at hadvance
    obtain ⟨hstage, hc⟩ := hadvance.building
    rcases List.mem_cons.mp hmem with heq | hmem
    · exact hc (spinLockInit_eq_ofCall.mp heq.symm)
    · rcases hstage with hstage | rfl
      · exact h.building dev p hstage hmem
      · exact Nat.lt_irrefl _ (h.allocated _ hmem)
  · rw [Function.update_of_ne hd] at hp
    rcases List.mem_cons.mp hmem with heq | hmem
    · have hctx : (stage dev).context = some p := by
        rw [building_of_permits hpermits heq.symm]
        rfl
      have hctx' : (stage d).context = some p := by
        rw [hp]
        rfl
      exact hd (h.distinct d dev p hctx' hctx)
    · exact h.building d p hp hmem

theorem Inv.call (h : Inv log s stage) {dev : PciDev} {c : KernelCall}
    {k : KernelCall.Reply c → Prog kernel (Ending Int)}
    (hprobe : s.probes dev = some (.call (I := kernel) c k)) :
    Inv (Event.ofCall c :: log)
        { s.setProbe dev (some (k (handler m.pci o c s.world).1)) with
          world := (handler m.pci o c s.world).2
          irqactions := registered c (handler m.pci o c s.world).1 ++ s.irqactions
          locked := fun p => s.locked p && !unlocks c p }
        (Function.update stage dev (next (stage dev) c (handler m.pci o c s.world).1)) ∧
      UsesBuilt (Event.ofCall c) log := by
  have hfollows := h.probes dev
  rw [hprobe] at hfollows
  obtain ⟨hpermits, hk⟩ := hfollows
  have hnext := nextPtr_handler m.pci o s.world c
  have hadvance := advance m.pci o s.world hpermits
  obtain ⟨hbelow, hdistinct⟩ := h.contexts_update dev hnext fun p hp => hadvance.context hp
  refine ⟨⟨forall_update h.probes (hk _), hbelow, hdistinct,
    fun d p hp => h.spinLockInit_notMem hpermits hadvance hp, fun p hmem => ?_,
    fun p prog hp => (h.isrs p prog hp).cons _,
    fun p hp => (h.locked p (Bool.and_eq_true_iff.mp hp).1).cons _,
    fun p hp => (h.held p (hp.of_cons (ofCall_ne_spinLock c))).cons _⟩,
    usesBuilt_ofCall fun p hc hheld => ?_⟩
  · rcases List.mem_cons.mp hmem with heq | hmem
    · have hctx : (stage dev).context = some p := by
        rw [building_of_permits hpermits heq.symm]
        rfl
      exact (h.below dev p hctx).trans_le hnext
    · exact (h.allocated p hmem).trans_le hnext
  · have hstage := building_of_permits hpermits (spinLockInit_eq_ofCall.mpr hc)
    exact h.building dev p hstage (h.held p hheld).1

/-! ### Calls of an isr -/

theorem inv_contextCall (h : Inv log s stage) (hp : Initialised log p) {c : ContextCall}
    {reply : c.Reply} (hs : contextCall s p c = some (reply, e, s')) :
    Inv (e :: log) s' stage ∧ UsesBuilt e log := by
  cases c with
  | spinLock =>
      obtain ⟨_, hs⟩ := Option.ite_none_left_eq_some.mp hs
      cases hs
      refine ⟨(h.setLocked fun _ => hp).cons (fun _ => Event.noConfusion) fun q hq => ?_, hp⟩
      cases hq
      exact hp
  | spinUnlock =>
      cases hs
      exact ⟨(h.setLocked fun hf => by cases hf).cons (fun _ => Event.noConfusion)
        fun _ => Event.noConfusion, trivial⟩
  | loadWaitingForIrq =>
      cases hs
      exact ⟨h.quiet, trivial⟩
  | storeWaitingForIrq value =>
      cases hs
      exact ⟨(h.store _).quiet, trivial⟩
  | wakeUpInterruptible =>
      cases hs
      exact ⟨h.cons (fun _ => Event.noConfusion) fun _ => Event.noConfusion, hp⟩

theorem isrCall_inl {reading : BitVec 32} {access : BusCall} {reply : access.Reply}
    (hs : isrCall s p reading (.inl access) = some (reply, e, s')) : e = .quiet ∧ s' = s := by
  cases access <;> cases hs <;> exact ⟨rfl, rfl⟩

def afterStatusRead (irqStatus : BitVec 32) : Prog isr IrqReturn := do
  if irqStatus &&& ADIO16F_INTERRUPT_MASK = 0 then
    return .none
  (iowrite32 (irqStatus &&& ADIO16F_INTERRUPT_MASK) (bar 2 0x40)).inl
  InterruptStyles.accesioNotifyUser.inr
  return .handled

def afterAcknowledge : Prog isr IrqReturn := do
  InterruptStyles.accesioNotifyUser.inr
  return .handled

private theorem interruptAdio16fStyle_eq_call : interruptAdio16fStyle =
    .call (I := isr) (.inl (.ioread .dword (bar 2 0x40))) afterStatusRead := rfl

private theorem isrOk_afterStatusRead {reading : BitVec 32}
    (h : Initialised log p ∨ reading &&& ADIO16F_INTERRUPT_MASK = 0) :
    IsrOk log p (afterStatusRead reading) := by
  rcases h with hp | hreading
  · exact .inr (.inr hp)
  · left
    rw [afterStatusRead, if_pos hreading]
    trivial

private theorem inv_runIsr (h : Inv log s stage) {reading : BitVec 32}
    (hG : NoEarlyEvent log s (.isr p reading)) (hs : runIsr s p reading = some (e, s')) :
    Inv (e :: log) s' stage ∧ UsesBuilt e log := by
  unfold runIsr at hs
  split at hs
  · cases hs
  · cases hs
    exact ⟨(h.setIsr fun q hq => by cases hq).quiet, trivial⟩
  · next c k hprog =>
      obtain ⟨⟨reply, d, t⟩, hcall, heq⟩ := Option.map_eq_some_iff.mp hs
      cases heq
      have hrest (hok : IsrOk log p (k reply)) : Inv log (s.setIsr p (some (k reply))) stage :=
        h.setIsr fun q hq => by
          cases hq
          exact hok
      rcases h.isrs p _ hprog with ⟨⟨_, access, rfl⟩, hk⟩ | hstart | hp
      · obtain ⟨rfl, rfl⟩ := isrCall_inl hcall
        exact ⟨(hrest (.inl (hk reply))).quiet, trivial⟩
      · rw [interruptAdio16fStyle_eq_call] at hstart
        cases hstart
        cases hcall
        have hreads : readsStatus s p = true := by
          rw [readsStatus, hprog]
          rfl
        have hok : IsrOk log p (afterStatusRead (reading.setWidth 32)) := by
          rw [BitVec.setWidth_eq]
          exact isrOk_afterStatusRead (hG hreads)
        exact ⟨(hrest hok).quiet, trivial⟩
      · cases c with
        | inl access =>
            obtain ⟨rfl, rfl⟩ := isrCall_inl hcall
            exact ⟨(hrest (.inr (.inr hp))).quiet, trivial⟩
        | inr call =>
            obtain ⟨hinv, huses⟩ := inv_contextCall h hp hcall
            refine ⟨hinv.setIsr fun q hq => ?_, huses⟩
            exact .inr (.inr (hp.cons _))

/-! ## Steps and runs -/

theorem inv_runProbe (h : Inv log s stage) {dev : PciDev} (hs : runProbe m s dev o = some (e, s')) :
    (∃ stage', Inv (e :: log) s' stage') ∧ UsesBuilt e log := by
  unfold runProbe at hs
  split at hs
  · cases hs
  · cases hs
  · cases hs
    have hend : ProbeFollows none .start := trivial
    exact ⟨⟨_, (h.setProbe hend).quiet⟩, trivial⟩
  · next c k hprobe =>
      cases hs
      obtain ⟨hinv, huses⟩ := h.call (m := m) (o := o) hprobe
      exact ⟨⟨_, hinv⟩, huses⟩

theorem inv_runSection (h : Inv log s stage) {f : IrqWait.WaitFlags → IrqWait.WaitFlags}
    (hs : runSection s p f = some (e, s')) :
    (∃ stage', Inv (e :: log) s' stage') ∧ UsesBuilt e log := by
  obtain ⟨_, hs⟩ := Option.ite_none_right_eq_some.mp hs
  cases hs
  exact ⟨⟨_, (h.store _).quiet⟩, trivial⟩

theorem inv_step (h : Inv log s stage) {a : Action} (hG : NoEarlyEvent log s a)
    (hs : step m s a = some (e, s')) :
    (∃ stage', Inv (e :: log) s' stage') ∧ UsesBuilt e log := by
  cases a with
  | probe dev device =>
      obtain ⟨_, hs⟩ := Option.ite_none_right_eq_some.mp hs
      cases hs
      have hfollows : ProbeFollows (some (accesioPciDriverProbe m.table dev device)) .start :=
        follows_accesioPciDriverProbe dev m.table device
      exact ⟨⟨_, (h.setProbe hfollows).quiet⟩, trivial⟩
  | run dev o => exact inv_runProbe h hs
  | interrupt a =>
      obtain ⟨_, hs⟩ := Option.ite_none_right_eq_some.mp hs
      cases hs
      have hinv : Inv log (s.setIsr a.devId (some a.handler.interrupt)) stage :=
        h.setIsr fun q hq => by
          cases hq
          exact isrOk_interrupt log a.devId a.handler
      exact ⟨⟨_, hinv.quiet⟩, trivial⟩
  | isr p reading =>
      obtain ⟨hinv, huses⟩ := inv_runIsr h hG hs
      exact ⟨⟨_, hinv⟩, huses⟩
  | wait p => exact inv_runSection h hs
  | cancel p =>
      exact inv_runSection (f := fun flags => (IrqWait.ioctlAccesioPciIrqWaitCancel flags).2) h hs

theorem inv_init (m : Machine) (o : Outcomes) : Inv [] (system m o).init fun _ => .start where
  probes _ := trivial
  below _ _ hp := by cases hp
  distinct _ _ _ hp := by cases hp
  building _ _ hp := by cases hp
  allocated _ hp := by cases hp
  isrs _ _ hp := by cases hp
  locked _ hp := by cases hp
  held _ hp := hp.elim

theorem inv_run (h : RunWhere (system m o) NoEarlyEvent log s) :
    (∃ stage, Inv log s stage) ∧ AtEvery UsesBuilt log := by
  induction h with
  | init => exact ⟨⟨_, inv_init m o⟩, atEvery_nil _⟩
  | step _ hG hs ih =>
      obtain ⟨⟨stage, hinv⟩, hlog⟩ := ih
      obtain ⟨hinv', he⟩ := inv_step hinv hG hs
      exact ⟨hinv', atEvery_cons.mpr ⟨he, hlog⟩⟩

/-! ## Where the condition breaks -/

theorem runIsr_call {reading : BitVec 32} {c : isr.Call} {k : isr.Reply c → Prog isr IrqReturn}
    {reply : isr.Reply c} (hprog : s.isrs p = some (.call c k))
    (hcall : isrCall s p reading c = some (reply, e, s')) :
    runIsr s p reading = some (e, s'.setIsr p (some (k reply))) := by
  simp only [runIsr, hprog, hcall, Option.map_some]

theorem Inv.isr_of_readsStatus (h : Inv log s stage) (hreads : readsStatus s p = true)
    (hbuilt : ¬Initialised log p) : s.isrs p = some interruptAdio16fStyle := by
  unfold readsStatus at hreads
  split at hreads
  · next c k hprog =>
      rcases h.isrs p _ hprog with ⟨⟨hread, _⟩, _⟩ | hstart | hp
      · rw [hread] at hreads
        cases hreads
      · rw [hprog, hstart]
      · exact absurd hp hbuilt
  · cases hreads

private theorem spinLock_of_afterStatusRead {reading : BitVec 32}
    (hreading : reading &&& ADIO16F_INTERRUPT_MASK ≠ 0)
    (hprog : s.isrs p = some (afterStatusRead reading)) (hfree : s.locked p = false) :
    ∃ t t', runIsr s p 0 = some (.quiet, t) ∧ runIsr t p 0 = some (.spinLock p, t') := by
  rw [afterStatusRead, if_neg hreading] at hprog
  have hwrite : runIsr s p 0 = some (.quiet, s.setIsr p (some afterAcknowledge)) :=
    runIsr_call hprog rfl
  have hnotify : (s.setIsr p (some afterAcknowledge)).isrs p = some afterAcknowledge :=
    Function.update_self ..
  have hlock : isrCall (s.setIsr p (some afterAcknowledge)) p 0 (.inr .spinLock) =
      some ((), .spinLock p, (s.setIsr p (some afterAcknowledge)).setLocked p true) :=
    if_neg (by simpa [State.setIsr] using hfree)
  exact ⟨_, _, hwrite, runIsr_call hnotify hlock⟩

/-- An isr that reads an event before its context is built takes a lock that is not. -/
theorem early_lock (h : RunWhere (system m o) NoEarlyEvent log s) {reading : BitVec 32}
    (hG : ¬NoEarlyEvent log s (.isr p reading)) :
    ∃ log' s', RunWhere (system m o) (ButOnce log NoEarlyEvent) log' s' ∧
      .quiet :: log <:+ log' ∧ ¬AtEvery UsesBuilt log' := by
  obtain ⟨⟨stage, hinv⟩, _⟩ := inv_run h
  obtain ⟨hreads, hearly⟩ := Classical.not_imp.mp hG
  obtain ⟨hbuilt, hreading⟩ := not_or.mp hearly
  have hfree : s.locked p = false := by
    by_contra hlocked
    exact hbuilt (hinv.locked p (by simpa using hlocked))
  have hprog : s.isrs p = some (.call (I := isr) (.inl (.ioread .dword (bar 2 0x40)))
      afterStatusRead) := hinv.isr_of_readsStatus hreads hbuilt
  have hread : runIsr s p reading = some (.quiet, s.setIsr p (some (afterStatusRead reading))) := by
    refine (runIsr_call hprog rfl).trans ?_
    exact congrArg (fun r => some (Event.quiet, s.setIsr p (some (afterStatusRead r))))
      (BitVec.setWidth_eq reading)
  have hafter : (s.setIsr p (some (afterStatusRead reading))).isrs p =
      some (afterStatusRead reading) := Function.update_self ..
  obtain ⟨t, t', hwrite, hlock⟩ := spinLock_of_afterStatusRead hreading hafter hfree
  -- a reading of 0 is no event
  have hzero : ∀ older s, ButOnce log NoEarlyEvent older s (.isr p 0) :=
    fun _ _ _ _ => .inr (BitVec.zero_and)
  have hrun := ((h.offend (a := .isr p reading) hread).step (hzero _ _) hwrite).step
    (hzero _ _) hlock
  refine ⟨_, t', hrun, ⟨[_, _], rfl⟩, fun hall => hbuilt ?_⟩
  obtain ⟨hinit, hhead⟩ := (atEvery_cons.mp hall).1
  exact ⟨by simpa using hinit, by simpa using hhead⟩

/-- As long as no isr that reads an event runs before probe has initialised its lock and
its queue, the isrs use only what is built; where one does, steps that meet the condition
again lead to a lock taken that is not. -/
theorem usesBuilt_of_noEarlyEvent (m : Machine) (o : Outcomes) :
    (∀ log s, RunWhere (system m o) NoEarlyEvent log s → AtEvery UsesBuilt log) ∧
      ∀ log s p reading, RunWhere (system m o) NoEarlyEvent log s →
        ¬NoEarlyEvent log s (.isr p reading) →
          ∃ log' s', RunWhere (system m o) (ButOnce log NoEarlyEvent) log' s' ∧
            .quiet :: log <:+ log' ∧ ¬AtEvery UsesBuilt log' :=
  ⟨fun _ _ h => (inv_run h).2, fun _ _ _ _ h => early_lock h⟩

/-! ## One card -/

def bar2Cards : Machine where
  pci := fun _ => ⟨16, fun bar => if bar = 2 then .mem 0x100 else .unimplemented⟩
  table := accesioPciDeviceDescriptors
  ids := accesPciIdTable

def probeInterrupted : List Action :=
  .probe 1 0xc2ef :: List.replicate 23 (.run 1 allSucceed) ++ [.interrupt ⟨16, .adio16f, 1⟩]

/-- Another card interrupts in between, and this one once its context is built. -/
theorem usesBuilt_of_noEarlyEvent_shared_line :
    ∃ log s, RunWhere (system bar2Cards allSucceed) NoEarlyEvent log s ∧
      .spinLock 1 ∈ log ∧ AtEvery UsesBuilt log := by
  obtain ⟨log, s, hrun, hlock⟩ :=
    (system bar2Cards allSucceed).exists_runWhere_map_of_execWhere (G := NoEarlyEvent)
      (fun c => decide (.spinLock 1 ∈ c.1))
      (probeInterrupted ++ [.isr 1 0, .isr 1 0, .run 1 allSucceed, .run 1 allSucceed,
        .interrupt ⟨16, .adio16f, 1⟩, .isr 1 0x00010000, .isr 1 0, .isr 1 0]) (b := true) rfl
  exact ⟨log, s, hrun, of_decide_eq_true hlock,
    (usesBuilt_of_noEarlyEvent bar2Cards allSucceed).1 log s hrun⟩

/-- An event is pending when the isr is registered: it takes the lock, and probe
initialises the lock while it is held. -/
theorem lock_initialised_while_held :
    ¬∀ (m : Machine) (o : Outcomes) (log : List Event) (s : State),
      Run (system m o) log s → AtEvery UsesBuilt log := by
  intro hall
  obtain ⟨log, s, hrun, hlog⟩ :=
    (system bar2Cards allSucceed).exists_runWhere_map_of_exec (G := fun _ _ _ => True)
      (fun c => c.1.take 2)
      (probeInterrupted ++ [.isr 1 0x00010000, .isr 1 0, .isr 1 0, .run 1 allSucceed])
      (b := [.spinLockInit 1, .spinLock 1]) (fun _ _ _ _ => trivial) rfl
  obtain ⟨older, rfl⟩ : ∃ older, log = .spinLockInit 1 :: .spinLock 1 :: older :=
    ⟨log.drop 2, by simpa [hlog] using (List.take_append_drop 2 log).symm⟩
  exact (atEvery_cons.mp (hall _ _ _ s hrun)).1 (.inl rfl)

end Aiowdm.Proofs.BuiltContexts
