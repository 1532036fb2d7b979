import Aiowdm.Driver.DeviceContext
import Aiowdm.Proofs.IrqDelivery
import Mathlib.Algebra.Order.Ring.Nat

/-!
# What the operations of a card leave alone

Cards share an interrupt line, and a delivery calls the isr of each.  What an
operation of one card may touch is its own flag of the context and its own BARs.
-/

namespace Aiowdm.Proofs.CardFrame

open Aiowdm.Lib Aiowdm.Driver Aiowdm.Driver.Bus Aiowdm.Driver.InterruptStyles
open Aiowdm.Driver.DeviceTable Aiowdm.Driver.DeviceContext Aiowdm.Driver.IrqWait
open Aiowdm.Proofs.IrqDelivery

/-! ## Cards on one line -/

/-- The contexts, the registers of all the cards, and the cards whose isrs the
delivery in progress has still to call. -/
structure LineState (σ : Type) where
  contexts : PciDev → Context
  regs : σ
  pending : List PciDev

def setByte (p : Option Ptr) (k : Nat) (v : BitVec 8) : Option Ptr :=
  let old := p.getD 0
  let new := old - old / 256 ^ k % 256 * 256 ^ k + v.toNat * 256 ^ k
  if new = 0 then none else some new

/-- A byte stored at an offset into the array `bar_bases` of a context. -/
def storeByte (c : Context) (offset : Int) (v : BitVec 8) : Context :=
  if h : 0 ≤ offset ∧ offset < 8 * PCI_STD_NUM_BARS then
    let bar : Fin PCI_STD_NUM_BARS := ⟨offset.toNat / 8, by omega⟩
    c.set (.barBase bar (setByte (c.barBases bar) (offset.toNat % 8) v))
  else c

def storeBytes (c : Context) (offset : Int) (w : Width) (v : BitVec w.bits) : Context :=
  (List.range w.bytes).foldl (fun c (k : Nat) =>
    storeByte c (offset + k) (v.extractLsb' (8 * k) 8)) c

variable {σ : Type}

def LineState.setContext (s : LineState σ) (dev : PciDev) (c : Context) : LineState σ :=
  { s with contexts := Function.update s.contexts dev c }

/-- The calls of an operation on `dev`.  A write to an address in the context is a
store like any other. -/
def cardCalls (hw : PciDev → Handler bus σ) (dev : PciDev) : Handler isr (LineState σ)
  | .inl (.iowrite w v ⟨.barBases, offset⟩), s =>
      ((), s.setContext dev (storeBytes (s.contexts dev) offset w v))
  | .inl c, s => ((hw dev c s.regs).1, { s with regs := (hw dev c s.regs).2 })
  | .inr c, s =>
      let r := contextHandler c (s.contexts dev).flags
      (r.1, s.setContext dev ((s.contexts dev).set (.flags r.2)))

/-- A card with no descriptor has no functions to call. -/
def program (c : Context) (op : Op) : Prog isr (Option IrqReturn) :=
  c.descriptor.elim (pure none) fun d => d.call op

/-- One operation on one card, and what it was seen to do. -/
structure Act (σ : Type) where
  dev : PciDev
  op : Op
  before : LineState σ
  after : LineState σ
  accesses : List BusCall
  result : Option IrqReturn

def act (hw : PciDev → Handler bus σ) (s : LineState σ) (dev : PciDev) (op : Op) : Act σ :=
  let p := program (s.contexts dev) op
  { dev, op
    before := s
    after := (p.exec (cardCalls hw dev) s).2
    accesses := (p.calls (cardCalls hw dev) s).filterMap Sum.getLeft?
    result := (p.exec (cardCalls hw dev) s).1 }

inductive Action where
  | interrupt
  | isr
  | enable (dev : PciDev)
  | disable (dev : PciDev)
deriving DecidableEq, Repr

def Action.target (s : LineState σ) : Action → Option (PciDev × Op)
  | .interrupt => none
  | .isr => s.pending.head?.map fun dev => (dev, .interrupt)
  | .enable dev => some (dev, .enable)
  | .disable dev => some (dev, .disable)

inductive Event (σ : Type) where
  | raised
  | acted (a : Act σ)

def acted (a : Act σ) : Event σ × LineState σ := (.acted a, a.after)

/-- A delivery starts when the one before is done, and calls the isr of every card
on the line; operations on the cards come at any time. -/
def line (hw : PciDev → Handler bus σ) (cards : List PciDev) (contexts : PciDev → Context)
    (regs : σ) : System (LineState σ) Action (Event σ) where
  init := ⟨contexts, regs, []⟩
  step s
    | .interrupt =>
        if s.pending = [] then some (.raised, { s with pending := cards }) else none
    | .isr =>
        match s.pending with
        | [] => none
        | dev :: pending => some (acted (act hw { s with pending } dev .interrupt))
    | .enable dev => if dev ∈ cards then some (acted (act hw s dev .enable)) else none
    | .disable dev => if dev ∈ cards then some (acted (act hw s dev .disable)) else none

/-! ## Staying inside the card -/

def statusRead (style : Style) : BusCall :=
  match style.latch with
  | some latch => .ioread .byte latch.addr
  | none => .ioread .dword (bar 2 0x40)

def StatusClear (card : Handler bus σ) (style : Style) (regs : σ) : Prop :=
  match style.latch with
  | some latch => ¬Latched card latch regs
  | none =>
      let status : BitVec 32 := (card (.ioread .dword (bar 2 0x40)) regs).1
      status &&& ADIO16F_INTERRUPT_MASK = 0

def withWaiting (c : Context) (waiting : Int) : Context :=
  c.set (.flags { c.flags with waitingForIrq := waiting })

/-- An operation touches no context but for the one flag, accesses BARs of its own
card, and an isr that finds nothing to do only reads. -/
structure Contained (hw : PciDev → Handler bus σ)
    (len : PciDev → Fin PCI_STD_NUM_BARS → Nat) (a : Act σ) : Prop where
  frame : ∃ waiting, a.after.contexts =
    Function.update a.before.contexts a.dev (withWaiting (a.before.contexts a.dev) waiting)
  inside : ∀ c ∈ a.accesses, ∃ i, c.addr.base = .bar i ∧ 0 ≤ c.addr.offset ∧
    c.addr.offset + c.width.bytes ≤ len a.dev i
  quiet : a.op = .interrupt → ∀ d style, (a.before.contexts a.dev).descriptor = some d →
    d.isr = some style → StatusClear (hw a.dev) style a.before.regs →
      a.result = some .none ∧ a.accesses = [statusRead style]

/-- The functions that leave the card: two addresses have slips, and the isr of
style 2 calls the enable function. -/
def Strays (card : Handler bus σ) (regs : σ) : Style → Op → Prop
  | .pci2, .enable => True
  | .pci2, .interrupt => Latched card pciLatch regs
  | .pcie3, .disable => True
  | _, _ => False

def Harmless (hw : PciDev → Handler bus σ) (s : LineState σ) (dev : PciDev) (op : Op) : Prop :=
  ∀ d style, (s.contexts dev).descriptor = some d → d.function op = some style →
    ¬Strays (hw dev) s.regs style op

/-! ## Programs that stay inside -/

def InBar (c : BusCall) : Prop :=
  c.addr.base ≠ .barBases ∧ 0 ≤ c.addr.offset ∧ c.addr.offset + c.width.bytes ≤ 0x80

instance : DecidablePred InBar := fun _ => inferInstanceAs (Decidable (_ ∧ _ ∧ _))

/-- The calls that stay inside: any on the context, and accesses in a BAR. -/
def Confined : isr.Call → Prop := Sum.elim InBar fun _ => True

theorem confined_access {c : BusCall} (h : InBar c) : Confined (.inl c) := h

private theorem every_enable {style : Style} (h : style ≠ .pci2) :
    Prog.Every Confined style.enable.inl := by
  cases style <;> first
    | exact absurd rfl h
    | trivial
    | exact ⟨confined_access (by decide), fun _ => trivial⟩

private theorem every_disable {style : Style} (h : style ≠ .pcie3) :
    Prog.Every Confined style.disable.inl := by
  cases style <;> first
    | exact absurd rfl h
    | trivial
    | exact ⟨confined_access (by decide), fun _ => trivial⟩

private theorem every_interrupt {style : Style} (h : style ≠ .pci2) :
    Prog.Every Confined style.interrupt := by
  cases style
  case adio16f =>
    have hread : InBar (.ioread .dword (bar 2 0x40)) := by decide
    have hwrite : ∀ v, InBar (.iowrite .dword v (bar 2 0x40)) := fun _ => hread
    exact every_interruptAdio16fStyle (confined_access hread)
      (fun v => confined_access (hwrite v)) fun _ => trivial
  all_goals
    refine every_leaveIfNotLatched (confined_access (by decide)) ?_
    first
      | trivial
      | exact ⟨confined_access (by decide), fun _ => trivial⟩
      | exact ⟨confined_access (by decide), fun _ => ⟨confined_access (by decide),
          fun _ => trivial⟩⟩

private theorem every_operation {style : Style} {op : Op} (hpci2 : style = .pci2 → op = .disable)
    (hpcie3 : style = .pcie3 → op ≠ .disable) : Prog.Every Confined (operation style op) := by
  cases op with
  | enable =>
      have hstyle : style ≠ .pci2 := fun h => by cases hpci2 h
      exact (every_enable hstyle).bind fun _ => trivial
  | disable =>
      have hstyle : style ≠ .pcie3 := fun h => hpcie3 h rfl
      exact (every_disable hstyle).bind fun _ => trivial
  | interrupt =>
      have hstyle : style ≠ .pci2 := fun h => by cases hpci2 h
      exact (every_interrupt hstyle).bind fun _ => trivial

/-! ## What such a program leaves alone -/

section Frame

variable (hw : PciDev → Handler bus σ) (s : LineState σ) (dev : PciDev)

def OnlyWaiting (t : LineState σ) : Prop :=
  ∃ waiting, t.contexts =
    Function.update s.contexts dev (withWaiting (s.contexts dev) waiting)

theorem onlyWaiting_refl : OnlyWaiting s dev s := by
  refine ⟨(s.contexts dev).flags.waitingForIrq, ?_⟩
  exact (Function.update_eq_self dev s.contexts).symm

private theorem contextHandler_irqCancelled (c : context.Call) (flags : WaitFlags) :
    (contextHandler c flags).2.irqCancelled = flags.irqCancelled := by
  cases c <;> rfl

private theorem onlyWaiting_call {c : isr.Call} {t : LineState σ} (hc : Confined c)
    (ht : OnlyWaiting s dev t) : OnlyWaiting s dev (cardCalls hw dev c t).2 := by
  obtain ⟨waiting, ht⟩ := ht
  rcases c with (⟨w, addr⟩ | ⟨w, v, ⟨base, offset⟩⟩) | c
  · exact ⟨waiting, ht⟩
  · cases base with
    | bar i => exact ⟨waiting, ht⟩
    | barBases => exact absurd rfl hc.1
  · refine ⟨(contextHandler c (t.contexts dev).flags).2.waitingForIrq, ?_⟩
    have hcancelled := contextHandler_irqCancelled c (t.contexts dev).flags
    have hdev : t.contexts dev = withWaiting (s.contexts dev) waiting := by
      rw [ht, Function.update_self]
    have hset : (t.contexts dev).set (.flags (contextHandler c (t.contexts dev).flags).2) =
        withWaiting (s.contexts dev) (contextHandler c (t.contexts dev).flags).2.waitingForIrq := by
      rw [hdev] at hcancelled ⊢
      exact congrArg (fun cancelled => (s.contexts dev).set (.flags ⟨_, cancelled⟩)) hcancelled
    simp only [cardCalls, LineState.setContext, hset]
    rw [ht, Function.update_idem]

private theorem onlyWaiting_exec {α : Type} {p : Prog isr α} (hp : Prog.Every Confined p) :
    OnlyWaiting s dev (p.exec (cardCalls hw dev) s).2 :=
  hp.exec_invariant (fun _ _ hc ht => onlyWaiting_call hw s dev hc ht) (onlyWaiting_refl s dev)

private theorem inBar_of_mem {α : Type} {p : Prog isr α} (hp : Prog.Every Confined p) {c : BusCall}
    (hc : c ∈ (p.calls (cardCalls hw dev) s).filterMap Sum.getLeft?) : InBar c := by
  obtain ⟨d, hd, hdc⟩ := List.mem_filterMap.mp hc
  have hconf := hp.of_mem_calls _ hd
  cases d with
  | inl d =>
      cases hdc
      exact hconf
  | inr d => cases hdc

/-- The shape of every isr: a read, and nothing more where its value says so. -/
def readThen (w : Width) (addr : Addr) (done : BitVec w.bits → Prop) [DecidablePred done]
    (rest : BitVec w.bits → Prog isr IrqReturn) : Prog isr IrqReturn :=
  .call (I := isr) (.inl (.ioread w addr)) fun value : BitVec w.bits =>
    if done value then .ret .none else rest value

variable {w : Width} {addr : Addr} {done : BitVec w.bits → Prop} [DecidablePred done]
variable {rest : BitVec w.bits → Prog isr IrqReturn} {value : BitVec w.bits}

def afterRead (c : BusCall) : LineState σ := { s with regs := (hw dev c s.regs).2 }

private theorem exec_readThen (hvalue : (hw dev (.ioread w addr) s.regs).1 = value) :
    (readThen w addr done rest).exec (cardCalls hw dev) s =
      Prog.exec (cardCalls hw dev) (if done value then .ret .none else rest value)
        (afterRead hw s dev (.ioread w addr)) := by
  subst hvalue
  rfl

private theorem calls_readThen (hvalue : (hw dev (.ioread w addr) s.regs).1 = value) :
    (readThen w addr done rest).calls (cardCalls hw dev) s =
      .inl (.ioread w addr) :: Prog.calls (cardCalls hw dev)
        (if done value then .ret .none else rest value)
          (afterRead hw s dev (.ioread w addr)) := by
  subst hvalue
  rfl

theorem readThen_done (hvalue : (hw dev (.ioread w addr) s.regs).1 = value) (hdone : done value) :
    (readThen w addr done rest).exec (cardCalls hw dev) s =
        (.none, afterRead hw s dev (.ioread w addr)) ∧
      (readThen w addr done rest).calls (cardCalls hw dev) s = [.inl (.ioread w addr)] := by
  rw [exec_readThen hw s dev hvalue, calls_readThen hw s dev hvalue, if_pos hdone]
  exact ⟨rfl, rfl⟩

theorem interrupt_of_clear {style : Style} (hclear : StatusClear (hw dev) style s.regs) :
    style.interrupt.exec (cardCalls hw dev) s =
        (.none, afterRead hw s dev (statusRead style)) ∧
      style.interrupt.calls (cardCalls hw dev) s = [.inl (statusRead style)] := by
  by_cases hstyle : style = .adio16f
  · subst hstyle
    exact readThen_done hw s dev rfl hclear
  · obtain ⟨latch, acknowledge, hlatch, hint⟩ := exists_interrupt_eq hstyle
    have hread : statusRead style = .ioread .byte latch.addr := by
      unfold statusRead
      rw [hlatch]
    have hbits : ¬Latched (hw dev) latch s.regs := by
      unfold StatusClear at hclear
      rwa [hlatch] at hclear
    rw [hint, hread]
    exact readThen_done hw s dev rfl (not_not.mp hbits)

end Frame

/-! ## Acts -/

section Acts

variable {hw : PciDev → Handler bus σ} {s : LineState σ} {dev : PciDev} {op : Op}
variable {len : PciDev → Fin PCI_STD_NUM_BARS → Nat}

theorem program_eq {d : DeviceDescriptor} (hd : (s.contexts dev).descriptor = some d)
    {style : Style} (hstyle : d.function op = some style) :
    program (s.contexts dev) op = operation style op := by
  simp only [program, hd, Option.elim_some, DeviceDescriptor.call, hstyle]

private theorem program_eq_pure (h : ¬∃ d style, (s.contexts dev).descriptor = some d ∧
    d.function op = some style) : program (s.contexts dev) op = pure none := by
  unfold program
  cases hd : (s.contexts dev).descriptor with
  | none => rfl
  | some d =>
      have hnone : d.function op = none :=
        Option.eq_none_iff_forall_ne_some.mpr fun style hstyle => h ⟨d, style, hd, hstyle⟩
      simp only [Option.elim_some, DeviceDescriptor.call, hnone]

theorem inside_of_inBar (hlen : ∀ i, 0x80 ≤ len dev i) {c : BusCall} (h : InBar c) :
    ∃ i, c.addr.base = .bar i ∧ 0 ≤ c.addr.offset ∧ c.addr.offset + c.width.bytes ≤ len dev i := by
  obtain ⟨hbase, hle, hlt⟩ := h
  cases haddr : c.addr.base with
  | barBases => exact absurd haddr hbase
  | bar i =>
      have hi : (0x80 : Int) ≤ len dev i := Int.ofNat_le.mpr (hlen i)
      exact ⟨i, rfl, hle, Int.le_trans hlt hi⟩

theorem quiet_act : op = .interrupt → ∀ d style, (s.contexts dev).descriptor = some d →
    d.isr = some style → StatusClear (hw dev) style s.regs →
      (act hw s dev op).result = some .none ∧
        (act hw s dev op).accesses = [statusRead style] := by
  rintro rfl d style hd hstyle hclear
  obtain ⟨hexec, hcalls⟩ := interrupt_of_clear hw s dev hclear
  have hfunction : d.function .interrupt = some style := hstyle
  simp only [act, program_eq hd hfunction, operation, Prog.exec_bind, Prog.calls_bind, hexec,
    hcalls]
  exact ⟨rfl, rfl⟩

theorem contained_of_every (hlen : ∀ i, 0x80 ≤ len dev i)
    (hevery : Prog.Every Confined (program (s.contexts dev) op)) :
    Contained hw len (act hw s dev op) where
  frame := onlyWaiting_exec hw s dev hevery
  inside := fun _ hc => inside_of_inBar hlen (inBar_of_mem hw s dev hevery hc)
  quiet := quiet_act

private theorem contained_of_quiet (hlen : ∀ i, 0x80 ≤ len dev i) {style : Style}
    (hprogram : program (s.contexts dev) .interrupt = operation style .interrupt)
    (hread : InBar (statusRead style)) (hclear : StatusClear (hw dev) style s.regs) :
    Contained hw len (act hw s dev .interrupt) := by
  obtain ⟨hexec, hcalls⟩ := interrupt_of_clear hw s dev hclear
  have hafter : (act hw s dev .interrupt).after = afterRead hw s dev (statusRead style) := by
    simp only [act, hprogram, operation, Prog.exec_bind, hexec]
    rfl
  have haccesses : (act hw s dev .interrupt).accesses = [statusRead style] := by
    simp only [act, hprogram, operation, Prog.calls_bind, hcalls]
    rfl
  refine ⟨?_, ?_, quiet_act⟩
  · rw [hafter]
    exact onlyWaiting_refl s dev
  · rw [haccesses]
    intro c hc
    rw [List.mem_singleton.mp hc]
    exact inside_of_inBar hlen hread

def strayAccess (style : Style) : BusCall :=
  .iowrite .byte 0 (if style = .pcie3 then barBases 2 else bar 2 (-0x1f))

private theorem calls_interruptPciStyle2 (h : Latched (hw dev) pciLatch s.regs) :
    interruptPciStyle2.calls (cardCalls hw dev) s =
      [.inl (.ioread .byte pciLatch.addr), .inl (.iowrite .byte 0 (bar 2 0x1e)),
        .inl (.iowrite .byte 0 (bar 2 (-0x1f)))] := by
  have hcalls : interruptPciStyle2.calls (cardCalls hw dev) s =
      .inl (.ioread .byte pciLatch.addr) :: Prog.calls (cardCalls hw dev)
        (if readLatch (hw dev) pciLatch s.regs &&& pciLatch.mask = 0 then
            .ret IrqReturn.none
          else
            (disablePciStyle2 >>= fun _ => enablePciStyle2).inl >>= fun _ => .ret .handled)
        (afterRead hw s dev (.ioread .byte pciLatch.addr)) := rfl
  rw [hcalls, if_neg h]
  rfl

private theorem strayAccess_mem {style : Style} (h : Strays (hw dev) s.regs style op) :
    strayAccess style ∈
      ((operation style op).calls (cardCalls hw dev) s).filterMap Sum.getLeft? := by
  cases style <;> cases op <;> try exact h.elim
  · exact List.mem_singleton_self _
  · have hcalls : (operation .pci2 .interrupt).calls (cardCalls hw dev) s =
        interruptPciStyle2.calls (cardCalls hw dev) s := by
      simp only [operation, Prog.calls_bind]
      exact List.append_nil _
    rw [hcalls, calls_interruptPciStyle2 h]
    exact List.mem_of_getLast? rfl
  · exact List.mem_singleton_self _

theorem contained_iff (hlen : ∀ i, 0x80 ≤ len dev i) :
    Contained hw len (act hw s dev op) ↔ Harmless hw s dev op := by
  constructor
  · intro hcontained d style hd hstyle hstrays
    have hmem := strayAccess_mem hstrays
    rw [← program_eq hd hstyle] at hmem
    obtain ⟨i, hbase, hle, -⟩ := hcontained.inside _ hmem
    unfold strayAccess at hbase hle
    split_ifs at hbase hle with hpcie3
    · cases hbase
    · exact absurd hle (by decide)
  · intro hharmless
    by_cases hcalled : ∃ d style, (s.contexts dev).descriptor = some d ∧
        d.function op = some style
    rotate_left
    · refine contained_of_every hlen ?_
      rw [program_eq_pure hcalled]
      trivial
    · obtain ⟨d, style, hd, hstyle⟩ := hcalled
      have hnot := hharmless d style hd hstyle
      have hprogram := program_eq hd hstyle
      by_cases hisr : style = .pci2 ∧ op = .interrupt
      · obtain ⟨rfl, rfl⟩ := hisr
        exact contained_of_quiet hlen hprogram (by decide) hnot
      · refine contained_of_every hlen ?_
        rw [hprogram]
        refine every_operation ?_ ?_
        · rintro rfl
          cases op with
          | enable => exact absurd trivial hnot
          | disable => rfl
          | interrupt => exact absurd ⟨rfl, rfl⟩ hisr
        · rintro rfl rfl
          exact hnot trivial

end Acts

/-! ## Runs -/

section Runs

variable {hw : PciDev → Handler bus σ} {cards : List PciDev} {contexts : PciDev → Context}
variable {regs : σ} {len : PciDev → Fin PCI_STD_NUM_BARS → Nat} {s : LineState σ}

def HarmlessAction (hw : PciDev → Handler bus σ) (s : LineState σ) (a : Action) : Prop :=
  ∀ dev op, a.target s = some (dev, op) → Harmless hw s dev op

def ContainedEvent (hw : PciDev → Handler bus σ) (len : PciDev → Fin PCI_STD_NUM_BARS → Nat) :
    Event σ → Prop
  | .raised => True
  | .acted a => Contained hw len a

/-- The contexts are those of the start but for the flags, and only isrs of cards on
the line are still to be called. -/
structure LineInv (cards : List PciDev) (contexts : PciDev → Context) (s : LineState σ) :
    Prop where
  contexts : ∀ dev, ∃ waiting, s.contexts dev = withWaiting (contexts dev) waiting
  pending : s.pending ⊆ cards

private theorem pending_act (hw : PciDev → Handler bus σ) (s : LineState σ) (dev : PciDev)
    (op : Op) :
    (act hw s dev op).after.pending = s.pending := by
  refine Prog.Every.exec_invariant (Prog.Every.of_forall (P := fun _ => True) (fun _ => trivial) _)
    (Q := fun t : LineState σ => t.pending = s.pending) (fun c t _ ht => ?_) rfl
  rw [← ht]
  rcases c with (⟨w, addr⟩ | ⟨w, v, ⟨base, offset⟩⟩) | c
  · rfl
  · cases base <;> rfl
  · rfl

theorem LineInv.act (hinv : LineInv cards contexts s) {dev : PciDev} {op : Op}
    (hcontained : Contained hw len (act hw s dev op)) :
    LineInv cards contexts (act hw s dev op).after := by
  refine ⟨fun d => ?_, ?_⟩
  · obtain ⟨waiting, hframe⟩ : OnlyWaiting s dev (CardFrame.act hw s dev op).after :=
      hcontained.frame
    obtain ⟨before, hbefore⟩ := hinv.contexts d
    rw [hframe]
    by_cases hd : d = dev
    · subst hd
      refine ⟨waiting, ?_⟩
      rw [Function.update_self, hbefore]
      rfl
    · refine ⟨before, ?_⟩
      rw [Function.update_of_ne hd]
      exact hbefore
  · rw [pending_act]
    exact hinv.pending

/-- What a step comes down to: a delivery begins, or one operation on one card. -/
theorem step_cases {a : Action} {e : Event σ} {s' : LineState σ}
    (hstep : (line hw cards contexts regs).step s a = some (e, s')) :
    e = .raised ∧ s' = { s with pending := cards } ∨
      ∃ pending dev op, a.target s = some (dev, op) ∧ (dev ∈ cards ∨ dev ∈ s.pending) ∧
        pending ⊆ s.pending ∧ (e, s') = acted (act hw { s with pending } dev op) := by
  cases a with
  | interrupt =>
      simp only [line] at hstep
      split_ifs at hstep
      cases hstep
      exact .inl ⟨rfl, rfl⟩
  | isr =>
      simp only [line] at hstep
      cases hpending : s.pending with
      | nil => simp [hpending] at hstep
      | cons dev pending =>
          rw [hpending] at hstep
          refine .inr ⟨pending, dev, .interrupt, ?_, .inr List.mem_cons_self,
            List.subset_cons_self _ _, (Option.some.inj hstep).symm⟩
          simp [Action.target, hpending]
  | enable dev =>
      simp only [line] at hstep
      split_ifs at hstep with hdev
      exact .inr ⟨s.pending, dev, .enable, rfl, .inl hdev, List.Subset.refl _,
        (Option.some.inj hstep).symm⟩
  | disable dev =>
      simp only [line] at hstep
      split_ifs at hstep with hdev
      exact .inr ⟨s.pending, dev, .disable, rfl, .inl hdev, List.Subset.refl _,
        (Option.some.inj hstep).symm⟩

theorem contained_of_run (hlen : ∀ dev ∈ cards, ∀ i, 0x80 ≤ len dev i) {log : List (Event σ)}
    (hrun : RunWhere (line hw cards contexts regs) (fun _ => HarmlessAction hw) log s) :
    AtEvery (fun e _ => ContainedEvent hw len e) log ∧ LineInv cards contexts s := by
  induction hrun with
  | init =>
      refine ⟨atEvery_nil _, fun dev => ⟨(contexts dev).flags.waitingForIrq, rfl⟩, ?_⟩
      exact List.nil_subset _
  | @step _ s _ _ _ _ hharmless hstep ih =>
      obtain ⟨hlog, hinv⟩ := ih
      rw [atEvery_cons]
      obtain ⟨rfl, rfl⟩ | ⟨pending, dev, op, htarget, hdev, hsub, heq⟩ := step_cases hstep
      · exact ⟨⟨trivial, hlog⟩, hinv.contexts, List.Subset.refl _⟩
      · cases heq
        have hcard : dev ∈ cards := hdev.elim id fun h => hinv.pending h
        have hcontained : Contained hw len (act hw { s with pending } dev op) :=
          (contained_iff (hlen dev hcard)).mpr (hharmless dev op htarget)
        have hnext : LineInv cards contexts { s with pending } :=
          ⟨hinv.contexts, List.Subset.trans hsub hinv.pending⟩
        exact ⟨⟨hcontained, hlog⟩, hnext.act hcontained⟩

end Runs

/-- Operations whose functions do not stray stay inside their cards, in every order
of deliveries and operations; and an operation whose function strays does not. -/
theorem contained_iff_harmless {σ : Type} (hw : PciDev → Handler bus σ) (cards : List PciDev)
    (contexts : PciDev → Context) (regs : σ) (len : PciDev → Fin PCI_STD_NUM_BARS → Nat)
    (hlen : ∀ dev ∈ cards, ∀ i, 0x80 ≤ len dev i) :
    (∀ log s, RunWhere (line hw cards contexts regs) (fun _ => HarmlessAction hw) log s →
      AtEvery (fun e _ => ContainedEvent hw len e) log ∧
        ∀ dev, ∃ waiting, s.contexts dev = withWaiting (contexts dev) waiting) ∧
      ∀ s, ∀ dev ∈ cards, ∀ op,
        Contained hw len (act hw s dev op) ↔ Harmless hw s dev op := by
  refine ⟨fun log s hrun => ?_, fun s dev hdev op => contained_iff (hlen dev hdev)⟩
  obtain ⟨hlog, hinv⟩ := contained_of_run hlen hrun
  exact ⟨hlog, hinv.contexts⟩

def onesOn : PciDev → Handler bus Unit := fun _ => allOnes

def cardOf (d : DeviceDescriptor) : Context :=
  { Context.zeroed with descriptor := some d, barBases := fun _ => some 0x10080 }

theorem contained_iff_harmless_pcieDio24 :
    (∀ log s, RunWhere
        (line onesOn [1] (fun _ => cardOf (withStyle 0x0c52 "pcie-dio-24" .pcie7)) ())
        (fun _ => HarmlessAction onesOn) log s →
      AtEvery (fun e _ => ContainedEvent onesOn (fun _ _ => 0x80) e) log ∧
        ∀ dev, ∃ waiting, s.contexts dev =
          withWaiting (cardOf (withStyle 0x0c52 "pcie-dio-24" .pcie7)) waiting) ∧
      ∀ s, ∀ dev ∈ [1], ∀ op, Contained onesOn (fun _ _ => 0x80) (act onesOn s dev op) ↔
        Harmless onesOn s dev op :=
  contained_iff_harmless onesOn [1] (fun _ => cardOf (withStyle 0x0c52 "pcie-dio-24" .pcie7)) ()
    (fun _ _ => 0x80) fun _ _ _ => le_rfl

/-- Disabling a card of PCIe style 3 clears the low byte of a pointer of its context. -/
theorem disable_writes_context :
    ¬∀ (cards : List PciDev) (contexts : PciDev → Context)
      (len : PciDev → Fin PCI_STD_NUM_BARS → Nat) (log : List (Event Unit)) (s : LineState Unit),
      (∀ dev ∈ cards, ∃ d ∈ accesioPciDeviceDescriptors, (contexts dev).descriptor = some d) →
      (∀ dev ∈ cards, ∀ i, 0x80 ≤ len dev i) → Run (line onesOn cards contexts ()) log s →
        AtEvery (fun e _ => ContainedEvent onesOn len e) log ∧
          ∀ dev, (s.contexts dev).barBases = (contexts dev).barBases := by
  intro hall
  let d := withStyle 0x0703 "pcie-ro-4" .pcie3
  have hrun : Run (line onesOn [1] (fun _ => cardOf d) ()) _ _ :=
    Run.init.step (a := .disable 1) rfl
  have hd : d ∈ accesioPciDeviceDescriptors := by decide +kernel
  obtain ⟨-, hbases⟩ := hall [1] (fun _ => cardOf d) (fun _ _ => 0x80) _ _
    (fun _ _ => ⟨d, hd, rfl⟩) (fun _ _ _ => le_rfl) hrun
  have hpointer := congrFun (hbases 1) 2
  exact absurd hpointer (by decide)

end Aiowdm.Proofs.CardFrame
