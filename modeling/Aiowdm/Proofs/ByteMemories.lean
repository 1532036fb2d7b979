import Aiowdm.Lib.Bytes
import Aiowdm.Library.OnDriver
import Aiowdm.Proofs.CardNumbers

/-!
# Register calls as accesses to byte memories

Where the default BAR of each card is a byte memory, the register calls on the
cards read and write the bytes of an array with one row for each card.
-/

namespace Aiowdm.Proofs.ByteMemories

open Aiowdm.Lib Aiowdm.Driver.Bus Aiowdm.Driver.DeviceContext Aiowdm.Driver.DeviceTable
open Aiowdm.Driver Aiowdm.Driver.RegisterIo
open Aiowdm.Driver.DescriptorGet (CardDescriptor describe ioctlAccesioPciCardDescriptorGet)
open Aiowdm.Driver.Probe (Ending)
open Aiowdm.Library Aiowdm.Library.Registers Aiowdm.Library.Cards Aiowdm.Library.OnDriver
open Aiowdm.Proofs.CardNumbers

/-! ## Calls of the register functions -/

/-- `relIn` is `RelInPortB`, `RelInPort` or `RelInPortL` by its width, and `relOut`
the same of those that write. -/
inductive RegisterCall where
  | relIn (w : Width) (register : BitVec 32)
  | relOut (w : Width) (register : BitVec 32) (value : BitVec w.bits)
deriving DecidableEq, Repr

namespace RegisterCall

def width : RegisterCall → Width
  | relIn w _ => w
  | relOut w _ _ => w

def register : RegisterCall → BitVec 32
  | relIn _ register => register
  | relOut _ register _ => register

def run (lib : Statics) (cardNum : BitVec 32) : RegisterCall → Prog ioctls Result
  | relIn w register => do
      return .data w (← Registers.relIn (fun i => (lib.cards i).fd) cardNum register w)
  | relOut w register value => do
      return .status (← Registers.relOut (fun i => (lib.cards i).fd) cardNum register w value)

def access (address : Int) : RegisterCall → IoCall
  | relIn w _ => .ioread w address
  | relOut w _ value => .iowrite w value address

def onArray (array : Nat → Bytes) (cardNum : BitVec 32) : RegisterCall → Result × (Nat → Bytes)
  | relIn w register =>
      (.data w ((array cardNum.toNat).load register.toNat w.bytes), array)
  | relOut w register value =>
      (.status 0, Function.update array cardNum.toNat
        ((array cardNum.toNat).store register.toNat w.bytes value))

end RegisterCall

def runCalls (lib : Statics) : List (BitVec 32 × RegisterCall) → Prog ioctls (List Result)
  | [] => pure []
  | (cardNum, call) :: calls => do
      let result ← call.run lib cardNum
      let results ← runCalls lib calls
      return result :: results

def arrayCalls (array : Nat → Bytes) :
    List (BitVec 32 × RegisterCall) → List Result × (Nat → Bytes)
  | [] => ([], array)
  | (cardNum, call) :: calls =>
      let (result, array) := call.onArray array cardNum
      let (results, array) := arrayCalls array calls
      (result :: results, array)

/-! ## Cards whose default BAR is a memory -/

section

variable (host : Host) {σ τ : Type}

-- `bar` is the default BAR of each card.
variable (bar : PciDev → Fin PCI_STD_NUM_BARS)

def barStart (dev : PciDev) : Nat := (host.starts dev (bar dev)).toNat

def barLen (dev : PciDev) : Nat := ((host.pci dev).bars (bar dev)).len

/-- An access anywhere in the default BAR of a card reads or writes bytes of `mem`
there, and none of another card's. -/
structure ActsAsMemory (h : Handler io σ) (mem : σ → PciDev → Bytes) : Prop where
  ioread : ∀ address dev x (w : Width) s,
    host.ioremap address = some (dev, barStart host bar dev + x) →
    x + w.bytes ≤ barLen host bar dev →
      (h (.ioread w address) s).1 = (mem s dev).load x w.bytes ∧
        ∀ d, ∀ y < barLen host bar d, mem (h (.ioread w address) s).2 d y = mem s d y
  iowrite : ∀ address dev x (w : Width) (value : BitVec w.bits) s,
    host.ioremap address = some (dev, barStart host bar dev + x) →
    x + w.bytes ≤ barLen host bar dev →
      ∀ d, ∀ y < barLen host bar d, mem (h (.iowrite w value address) s).2 d y =
        Function.update (mem s) dev ((mem s dev).store x w.bytes value) d y

/-- The context of the card `dev`, whose default BAR is mapped and not too long. -/
structure ContextOf (context : Context) (dev : PciDev) : Prop where
  pciDev : context.pciDev = some dev
  defaultBar : context.defaultBar = bar dev
  mapped : ∃ p, context.barBases (bar dev) = some p ∧ ∀ x < barLen host bar dev,
    host.ioremap (p + x) = some (dev, barStart host bar dev + x)
  len_le : barLen host bar dev ≤ 2 ^ 31

/-- The access of a call: its own width, on its own card, from the base that
`QueryCardInfo` reports plus the register on. -/
def OneAccess (lib : Statics) (dev : Nat → PciDev) (c : BitVec 32 × RegisterCall) (a : IoCall) :
    Prop :=
  a = c.2.access a.address ∧
    ∃ base, queryCardInfo lib c.1 false true none false =
        .returned (0, { CardInfo.nothing with base := some base }) ∧
      ∀ k < c.2.width.bytes, host.ioremap (a.address + k) =
        some (dev c.1.toNat, base.toNat + c.2.register.toNat + k)

end

/-! ## The descriptors that AiowdmInit keeps -/

section Descriptors

variable {host : Host} {τ : Type} {k : Handler sys τ} {lib : Statics} {t : τ}

/-- A slot with the descriptor of the card that its file is open on. -/
def Described (host : Host) (card : Card) : Prop :=
  ∃ d dev, (host.contexts card.fd).pciDev = some dev ∧
    card.descriptor = some (describe host.pci host.starts (host.contexts card.fd) d dev)

theorem exec_ioctlCardDescriptorGet {context : Context} {d : DeviceDescriptor} {dev : PciDev}
    (hd : context.descriptor = some d) (hdev : context.pciDev = some dev)
    (hname : ¬64 ≤ d.name.utf8ByteSize) (allocated : Bool) (old : CardDescriptor) :
    (ioctlAccesioPciCardDescriptorGet host.pci host.starts context).exec
        (Host.descriptorBuffer allocated) old =
      if allocated then (.returned 0, describe host.pci host.starts context d dev)
      else (.returned (-eio), old) := by
  simp only [ioctlAccesioPciCardDescriptorGet, hd, hdev, hname, if_false]
  cases allocated <;> rfl

/-- A descriptor is only fetched where there is memory for it, and from a context
that has a card. -/
theorem described_of_fetched {fd : Int} {allocated : Bool} {contents : CardDescriptor}
    (hfetch : (host.descriptorFiles k (.cardDescriptorGet fd allocated) t).1 = (0, contents)) :
    Described host ⟨fd, if allocated then some contents else none⟩ := by
  have hfailed : ∀ d : CardDescriptor, ((-1 : Int), d) ≠ (0, contents) := by
    intro d heq
    have hstatus : (-1 : Int) = 0 := congrArg Prod.fst heq
    exact absurd hstatus (by decide)
  rw [Host.descriptorFiles] at hfetch
  cases hd : (host.contexts fd).descriptor with
  | none =>
      simp only [ioctlAccesioPciCardDescriptorGet, hd] at hfetch
      exact absurd hfetch (hfailed _)
  | some d =>
      cases hdev : (host.contexts fd).pciDev with
      | none =>
          simp only [ioctlAccesioPciCardDescriptorGet, hd, hdev] at hfetch
          exact absurd hfetch (hfailed _)
      | some dev =>
          by_cases hname : 64 ≤ d.name.utf8ByteSize
          · simp only [ioctlAccesioPciCardDescriptorGet, hd, hdev, if_pos hname] at hfetch
            exact absurd hfetch (hfailed _)
          · rw [exec_ioctlCardDescriptorGet hd hdev hname] at hfetch
            cases allocated with
            | false => exact absurd hfetch (hfailed _)
            | true =>
                have hcontents := congrArg Prod.snd hfetch
                exact ⟨d, dev, hdev, congrArg some hcontents.symm⟩

private theorem described_entry {lib' : Statics} {t' : τ} (hdesc : EachCounted (Described host) lib)
    {name : String} (hexec : (aiowdmInitEntry lib name).exec (host.descriptorFiles k) t =
      (.returned lib', t')) : EachCounted (Described host) lib' := by
  obtain ⟨fd, hfd⟩ : ∃ fd : Int, (host.descriptorFiles k (.openNode (devPath name)) t).1 = fd :=
    ⟨_, rfl⟩
  obtain ⟨t₁, ht₁⟩ : ∃ t₁, (host.descriptorFiles k (.openNode (devPath name)) t).2 = t₁ :=
    ⟨_, rfl⟩
  obtain ⟨allocated, hallocated⟩ : ∃ a : Bool, (host.descriptorFiles k .malloc t₁).1 = a :=
    ⟨_, rfl⟩
  obtain ⟨t₂, ht₂⟩ : ∃ t₂, (host.descriptorFiles k .malloc t₁).2 = t₂ := ⟨_, rfl⟩
  obtain ⟨status, contents, hanswer⟩ : ∃ (status : Int) (contents : CardDescriptor),
      (host.descriptorFiles k (.cardDescriptorGet fd allocated) t₂).1 = (status, contents) :=
    ⟨_, _, rfl⟩
  by_cases hpci : hasPci name = false
  · simp only [aiowdmInitEntry, hpci, if_true, Prog.pure_eq_ret, Prog.exec_ret] at hexec
    cases hexec
    exact hdesc
  simp only [aiowdmInitEntry, if_neg hpci, Prog.exec_bind, exec_openNode, hfd, ht₁] at hexec
  by_cases hroom : 32 ≤ lib.numCards.toNat
  · simp only [if_pos hroom, Prog.pure_eq_ret, Prog.exec_ret] at hexec
    cases hexec
  by_cases hneg : fd < 0
  · simp only [if_neg hroom, if_pos hneg, Prog.pure_eq_ret, Prog.exec_ret] at hexec
    cases hexec
    exact hdesc.setCard _
  simp only [if_neg hroom, if_neg hneg, Prog.exec_bind, exec_malloc, hallocated, ht₂,
    exec_cardDescriptorGet, hanswer] at hexec
  by_cases hstatus : status = 0
  · simp only [hstatus, ne_eq, not_true, if_false, Prog.pure_eq_ret, Prog.exec_ret] at hexec
    cases hexec
    refine (hdesc.setCard _).count (not_le.mp hroom) ?_
    rw [numCards_setCard, cards_setCard]
    rw [hstatus] at hanswer
    exact described_of_fetched hanswer
  · simp only [hstatus, ne_eq, not_false_eq_true, if_true, Prog.pure_eq_ret, Prog.exec_ret]
      at hexec
    cases hexec
    exact hdesc.setCard _

private theorem described_entries {lib' : Statics} {t' : τ} {names : List String}
    (hdesc : EachCounted (Described host) lib)
    (hexec : (aiowdmInitEntries lib names).exec (host.descriptorFiles k) t =
      (.returned lib', t')) : EachCounted (Described host) lib' := by
  induction names generalizing lib t with
  | nil =>
      cases hexec
      exact hdesc
  | cons name names ih =>
      rw [aiowdmInitEntries, Prog.exec_bind] at hexec
      cases hentry : (aiowdmInitEntry lib name).exec (host.descriptorFiles k) t with
      | mk ending t₁ =>
          rw [hentry] at hexec
          cases ending with
          | undefined => cases hexec
          | returned lib₁ => exact ih (described_entry hdesc hentry) hexec

theorem described_aiowdmInit {lib : Statics} {t' : τ} {dir : Option (List String)}
    {memory : Nat → Card}
    (hinit : (aiowdmInit dir (.zeroed memory)).exec (host.descriptorFiles k) t =
      (.returned lib, t')) : EachCounted (Described host) lib := by
  have hzeroed := eachCounted_zeroed (Described host) memory
  cases dir with
  | none =>
      cases hinit
      exact hzeroed
  | some names =>
      simp only [aiowdmInit] at hinit
      rw [Prog.exec_bind] at hinit
      cases hscan : (aiowdmInitEntries (.zeroed memory) names).exec (host.descriptorFiles k) t with
      | mk ending t₁ =>
          rw [hscan] at hinit
          cases ending with
          | undefined => cases hinit
          | returned lib₁ =>
              cases hinit
              intro i hi
              exact described_entries hzeroed hscan i hi

end Descriptors

/-! ## One call -/

section OneCall

variable {host : Host} {σ : Type} (h : Handler io σ) (s : σ) (cards : Nat → Int)
variable (cardNum register : BitVec 32) (w : Width)

def registerAt (host : Host) (fd : Int) (register : BitVec 32) : Int :=
  host.addressOf fd (bar (host.contexts fd).defaultBar register.toInt)

private theorem exec_ioctl_inRequest (b : Handler bus σ) (context : Context) :
    (ioctlAccesioPciRegisterIo context).exec (b.sum buffer) (s, inRequest register w) =
      let r := b (.ioread w (bar context.defaultBar register.toInt)) s
      (0, (r.2, { inRequest register w with data := setDataMember w r.1 0 })) := by
  cases w <;> rfl

private theorem exec_ioctl_outRequest (b : Handler bus σ) (context : Context)
    (value : BitVec w.bits) :
    (ioctlAccesioPciRegisterIo context).exec (b.sum buffer) (s, outRequest register w value) =
      (0, ((b (.iowrite w value (bar context.defaultBar register.toInt)) s).2,
        outRequest register w value)) := by
  have hvalue : dataMember w (outRequest register w value).data = value :=
    dataMember_setDataMember w value 0
  have hioctl : (ioctlAccesioPciRegisterIo context).exec (b.sum buffer)
      (s, outRequest register w value) =
        (0, ((b (.iowrite w (dataMember w (outRequest register w value).data)
          (bar context.defaultBar register.toInt)) s).2, outRequest register w value)) := by
    cases w <;> rfl
  rw [hioctl, hvalue]

theorem exec_relIn : (relIn cards cardNum register w).exec (host.registerFiles h) s =
    h (.ioread w (registerAt host (cards cardNum.toNat) register)) s := by
  let fd := cards cardNum.toNat
  have hioctl := exec_ioctl_inRequest s register w (host.busOf h fd) (host.contexts fd)
  have hread : (relIn cards cardNum register w).exec (host.registerFiles h) s =
    (let r := (ioctlAccesioPciRegisterIo (host.contexts fd)).exec ((host.busOf h fd).sum buffer)
      (s, inRequest register w)
    (dataMember w r.2.2.data, r.2.1)) := rfl
  rw [hread, hioctl]
  exact Prod.ext (dataMember_setDataMember w _ 0) rfl

theorem exec_relOut (value : BitVec w.bits) :
    (relOut cards cardNum register w value).exec (host.registerFiles h) s =
      (0, (h (.iowrite w value (registerAt host (cards cardNum.toNat) register)) s).2) := by
  let fd := cards cardNum.toNat
  have hioctl := exec_ioctl_outRequest s register w (host.busOf h fd) (host.contexts fd) value
  have hwrite : (relOut cards cardNum register w value).exec (host.registerFiles h) s =
    (let r := (ioctlAccesioPciRegisterIo (host.contexts fd)).exec ((host.busOf h fd).sum buffer)
      (s, outRequest register w value)
    (ioctlStatus r.1, r.2.1)) := rfl
  rw [hwrite, hioctl]
  rfl

end OneCall

/-! ## A list of calls -/

section Calls

variable {host : Host} {σ : Type} {h : Handler io σ} {mem : σ → PciDev → Bytes}
variable {bar : PciDev → Fin PCI_STD_NUM_BARS} {dev : Nat → PciDev} {lib : Statics}

/-- Every counted slot has the file and the descriptor of its own card. -/
structure OwnCards (host : Host) (bar : PciDev → Fin PCI_STD_NUM_BARS) (lib : Statics)
    (dev : Nat → PciDev) : Prop where
  contextOf : ∀ i < lib.numCards.toNat,
    ContextOf host bar (host.contexts (lib.cards i).fd) (dev i)
  distinct : ∀ i < lib.numCards.toNat, ∀ j < lib.numCards.toNat, dev i = dev j → i = j

/-- A call on a counted card, at a register in its default BAR. -/
def ValidCall (host : Host) (bar : PciDev → Fin PCI_STD_NUM_BARS) (lib : Statics)
    (dev : Nat → PciDev) (c : BitVec 32 × RegisterCall) : Prop :=
  c.1 < lib.numCards ∧
    c.2.register.toNat + c.2.width.bytes ≤ barLen host bar (dev c.1.toNat)

/-- The default BARs of the counted cards hold the rows of the array. -/
def Holds (host : Host) (bar : PciDev → Fin PCI_STD_NUM_BARS) (lib : Statics)
    (dev : Nat → PciDev) (memory : PciDev → Bytes) (array : Nat → Bytes) : Prop :=
  ∀ i < lib.numCards.toNat, ∀ x < barLen host bar (dev i), memory (dev i) x = array i x

theorem ioremap_registerAt {fd : Int} {d : PciDev} (hctx : ContextOf host bar (host.contexts fd) d)
    {register : BitVec 32} {n : Nat} (hlen : register.toNat + n ≤ barLen host bar d) {k : Nat}
    (hk : k < n) : host.ioremap (registerAt host fd register + k) =
      some (d, barStart host bar d + (register.toNat + k)) := by
  obtain ⟨p, hp, hmap⟩ := hctx.mapped
  have hle := hctx.len_le
  have hint : register.toInt = register.toNat := by
    rw [BitVec.toInt_eq_toNat_cond, if_pos (by omega)]
  have haddr :
      registerAt host fd register + k = (p : Int) + ((register.toNat + k : Nat) : Int) := by
    unfold registerAt Host.addressOf
    simp only [Bus.bar, hctx.defaultBar, hp, hint, Option.getD_some]
    omega
  rw [haddr]
  exact hmap _ (by omega)

private theorem queryCardInfo_base {cardNum : BitVec 32} (hlt : cardNum < lib.numCards)
    {descriptor : CardDescriptor} (hd : (lib.cards cardNum.toNat).descriptor = some descriptor) :
    queryCardInfo lib cardNum false true none false =
      .returned (0, { CardInfo.nothing with base := some descriptor.portBase }) := by
  rw [queryCardInfo, if_neg (BitVec.not_le.mpr hlt), hd]
  rfl

private theorem oneAccess (hdesc : EachCounted (Described host) lib)
    (hown : OwnCards host bar lib dev)
    {c : BitVec 32 × RegisterCall} (hvalid : ValidCall host bar lib dev c) :
    OneAccess host lib dev c (c.2.access
      (registerAt host (lib.cards c.1.toNat).fd c.2.register)) := by
  have haddress : ∀ (call : RegisterCall) (a : Int), (call.access a).address = a := by
    intro call a
    cases call <;> rfl
  have hctx := hown.contextOf c.1.toNat hvalid.1
  obtain ⟨d, dev', hdev', hdescriptor⟩ := hdesc c.1.toNat hvalid.1
  obtain rfl : dev c.1.toNat = dev' := Option.some.inj (hctx.pciDev.symm.trans hdev')
  refine ⟨by rw [haddress], _, queryCardInfo_base hvalid.1 hdescriptor, ?_⟩
  intro k hk
  rw [haddress, ioremap_registerAt hctx hvalid.2 hk, Nat.add_assoc]
  unfold barStart describe
  rw [hctx.defaultBar]

theorem Holds.store (hown : OwnCards host bar lib dev) {memory after : PciDev → Bytes}
    {array : Nat → Bytes} (hholds : Holds host bar lib dev memory array) {n : Nat}
    (hn : n < lib.numCards.toNat) (x : Nat) (w : Width) (value : BitVec w.bits)
    (hafter : ∀ d, ∀ y < barLen host bar d, after d y =
      Function.update memory (dev n) ((memory (dev n)).store x w.bytes value) d y) :
    Holds host bar lib dev after
      (Function.update array n ((array n).store x w.bytes value)) := by
  intro i hi y hy
  rw [hafter (dev i) y hy]
  by_cases hin : i = n
  · subst hin
    rw [Function.update_self, Function.update_self]
    exact Bytes.store_congr (hholds i hi y hy) x w.bytes value
  · have hdev : dev i ≠ dev n := fun heq => hin (hown.distinct i hi n hn heq)
    rw [Function.update_of_ne hdev, Function.update_of_ne hin]
    exact hholds i hi y hy

/-- One call does to the array what it does to the cards. -/
theorem exec_run (hown : OwnCards host bar lib dev) (hmem : ActsAsMemory host bar h mem)
    {c : BitVec 32 × RegisterCall} (hvalid : ValidCall host bar lib dev c) {s : σ}
    {array : Nat → Bytes} (hholds : Holds host bar lib dev (mem s) array) (log : List IoCall) :
    ∃ s', (c.2.run lib c.1).exec (host.registerFiles h.record) (s, log) =
        ((c.2.onArray array c.1).1, (s', log ++ [c.2.access
          (registerAt host (lib.cards c.1.toNat).fd c.2.register)])) ∧
      Holds host bar lib dev (mem s') (c.2.onArray array c.1).2 := by
  obtain ⟨cardNum, call⟩ := c
  have hn : cardNum.toNat < lib.numCards.toNat := hvalid.1
  have hlen := hvalid.2
  have hpos : 0 < call.width.bytes := by cases call.width <;> decide
  have hmapped := ioremap_registerAt (hown.contextOf cardNum.toNat hn) hlen hpos
  rw [Nat.add_zero, Int.natCast_zero, Int.add_zero] at hmapped
  cases call with
  | relIn w register =>
      obtain ⟨hreply, hkeep⟩ := hmem.ioread _ _ _ w s hmapped hlen
      refine ⟨_, ?_, fun i hi y hy => (hkeep _ y hy).trans (hholds i hi y hy)⟩
      have hload : (mem s (dev cardNum.toNat)).load register.toNat w.bytes =
          (array cardNum.toNat).load register.toNat w.bytes := by
        refine Bytes.load_congr fun x _ hx => hholds _ hn x ?_
        exact lt_of_lt_of_le hx hlen
      have hvalue : (h (.ioread w (registerAt host (lib.cards cardNum.toNat).fd register)) s).1 =
          (array cardNum.toNat).load register.toNat w.bytes := hreply.trans hload
      simp only [RegisterCall.run, Prog.exec_bind, exec_relIn]
      exact congrArg (fun v : BitVec w.bits => (Result.data w v, _)) hvalue
  | relOut w register value =>
      have hstore := hmem.iowrite _ _ _ w value s hmapped hlen
      refine ⟨_, ?_, hholds.store hown hn register.toNat w value hstore⟩
      simp only [RegisterCall.run, Prog.exec_bind, exec_relOut]
      rfl

theorem exec_runCalls (hdesc : EachCounted (Described host) lib)
    (hown : OwnCards host bar lib dev) (hmem : ActsAsMemory host bar h mem)
    {calls : List (BitVec 32 × RegisterCall)} (hvalid : ∀ c ∈ calls, ValidCall host bar lib dev c)
    {s : σ} {array : Nat → Bytes} (hholds : Holds host bar lib dev (mem s) array)
    (log : List IoCall) :
    ∃ s' accesses, (runCalls lib calls).exec (host.registerFiles h.record) (s, log) =
        ((arrayCalls array calls).1, (s', log ++ accesses)) ∧
      Holds host bar lib dev (mem s') (arrayCalls array calls).2 ∧
      calls.Forall₂ (OneAccess host lib dev) accesses := by
  induction calls generalizing s array log with
  | nil =>
      refine ⟨s, [], ?_, hholds, .nil⟩
      rw [List.append_nil]
      rfl
  | cons c calls ih =>
      have hc := hvalid c List.mem_cons_self
      obtain ⟨s₁, hcall, hholds₁⟩ := exec_run hown hmem hc hholds log
      let access := c.2.access (registerAt host (lib.cards c.1.toNat).fd c.2.register)
      obtain ⟨s', accesses, hcalls, hholds', hall⟩ :=
        ih (fun c' hc' => hvalid c' (List.mem_cons_of_mem c hc')) hholds₁ (log ++ [access])
      refine ⟨s', access :: accesses, ?_, hholds', .cons (oneAccess hdesc hown hc) hall⟩
      rw [List.append_cons, runCalls, Prog.exec_bind, hcall]
      refine (Prog.exec_bind _ _ _ _).trans ?_
      exact congrArg (fun r : List Result × (σ × List IoCall) =>
        ((c.2.onArray array c.1).1 :: r.1, r.2)) hcalls

end Calls

/-- After `AiowdmInit`, a list of register calls on the cards returns what it
returns on an array that starts with the same bytes, and makes one access for
each call. -/
theorem calls_refine_array {σ τ : Type} (host : Host) (k : Handler sys τ) (t t' : τ)
    (dir : Option (List String)) (memory : Nat → Card) (lib : Statics)
    (hinit : (aiowdmInit dir (.zeroed memory)).exec (host.descriptorFiles k) t =
      (.returned lib, t'))
    (bar : PciDev → Fin PCI_STD_NUM_BARS) (dev : Nat → PciDev) (hown : OwnCards host bar lib dev)
    (h : Handler io σ) (mem : σ → PciDev → Bytes) (hmem : ActsAsMemory host bar h mem) (s : σ)
    (calls : List (BitVec 32 × RegisterCall)) (hvalid : ∀ c ∈ calls, ValidCall host bar lib dev c) :
    ∃ s' accesses, (runCalls lib calls).exec (host.registerFiles h.record) (s, []) =
        ((arrayCalls (fun i => mem s (dev i)) calls).1, (s', accesses)) ∧
      Holds host bar lib dev (mem s') (arrayCalls (fun i => mem s (dev i)) calls).2 ∧
      calls.Forall₂ (OneAccess host lib dev) accesses := by
  have hdesc := described_aiowdmInit hinit
  exact exec_runCalls hdesc hown hmem hvalid (fun _ _ _ _ => rfl) []

/-! ## Two cards -/

def ram (host : Host) (bar : PciDev → Fin PCI_STD_NUM_BARS) : Handler io (PciDev → Bytes)
  | .ioread w address, m =>
      match host.ioremap address with
      | some (dev, b) => ((m dev).load (b - barStart host bar dev) w.bytes, m)
      | none => ((0 : BitVec w.bits), m)
  | .iowrite w value address, m =>
      match host.ioremap address with
      | some (dev, b) =>
          ((), Function.update m dev ((m dev).store (b - barStart host bar dev) w.bytes value))
      | none => ((), m)

theorem actsAsMemory_ram (host : Host) (bar : PciDev → Fin PCI_STD_NUM_BARS) :
    ActsAsMemory host bar (ram host bar) id where
  ioread address dev x w s hmap _ := by
    simp only [ram, hmap, Nat.add_sub_cancel_left]
    exact ⟨rfl, fun _ _ _ => trivial⟩
  iowrite address dev x w value s hmap _ := by
    simp only [ram, hmap, Nat.add_sub_cancel_left]
    exact fun _ _ _ => rfl

/-- Card `n` has its registers at the ports from `0xd000 + 0x100 * n` on, and the
driver sees them from `0x10000 + 0x1000 * n` on. -/
def twoCards : Host where
  pci := fun _ => ⟨16, fun _ => .io 0x80⟩
  starts := fun dev _ => 0xd000 + 0x100 * BitVec.ofNat 64 dev
  contexts := fun fd =>
    { Context.zeroed with
      descriptor := some (withStyle 0x0c52 "pcie-dio-24" .pcie7)
      pciDev := some (fd - 3).toNat
      defaultBar := 1
      barBases := fun _ => some (0x10000 + 0x1000 * (fd - 3).toNat) }
  contextAt := fun _ => 0x1000
  ioremap := fun address =>
    let n := ((address - 0x10000) / 0x1000).toNat
    some (n, ((0xd000 : BitVec 64) + 0x100 * BitVec.ofNat 64 n).toNat +
      ((address - 0x10000) % 0x1000).toNat)

def openInTurn : Handler sys Nat
  | .openNode _, n => ((3 + n : Int), n + 1)
  | .malloc, n => (true, n)
  | .cardDescriptorGet _ _, n => ((0, ⟨0, 0, 0, 0, "", fun _ => 0⟩), n)

private theorem contextOf_twoCards (fd : Int) :
    ContextOf twoCards (fun _ => 1) (twoCards.contexts fd) (fd - 3).toNat where
  pciDev := rfl
  defaultBar := rfl
  mapped := by
    refine ⟨_, rfl, fun x hx => ?_⟩
    have hlt : x < 0x80 := hx
    have hdiv : (((0x10000 + 0x1000 * (fd - 3).toNat : Nat) : Int) + x - 0x10000) / 0x1000 =
        ((fd - 3).toNat : Int) := by omega
    have hmod : ((((0x10000 + 0x1000 * (fd - 3).toNat : Nat) : Int) + x - 0x10000) %
        0x1000).toNat = x := by omega
    simp only [twoCards, barStart, hdiv, hmod, Int.toNat_natCast]
  len_le := by
    have hlen : barLen twoCards (fun _ => 1) (fd - 3).toNat = 0x80 := rfl
    omega

theorem aiowdmInit_twoCards :
    ∃ lib, (aiowdmInit (some ["pcie-dio-24", "mpcie-dio-24s"]) (.zeroed fun _ => ⟨0, none⟩)).exec
        (twoCards.descriptorFiles openInTurn) 0 = (.returned lib, 2) ∧
      lib.numCards = 2 ∧ (lib.cards 0).fd = 3 ∧ (lib.cards 1).fd = 4 :=
  ⟨_, rfl, rfl, rfl, rfl⟩

theorem ownCards_twoCards {lib : Statics} (hcount : lib.numCards = 2)
    (hfst : (lib.cards 0).fd = 3) (hsnd : (lib.cards 1).fd = 4) :
    OwnCards twoCards (fun _ => 1) lib id := by
  have hfile : ∀ i < lib.numCards.toNat, ((lib.cards i).fd - 3).toNat = i := by
    intro i hi
    rw [hcount] at hi
    have hi' : i = 0 ∨ i = 1 := by
      change i < 2 at hi
      omega
    rcases hi' with rfl | rfl
    · rw [hfst]
      rfl
    · rw [hsnd]
      rfl
  refine ⟨fun i hi => ?_, fun i _ j _ heq => heq⟩
  have hctx := contextOf_twoCards (lib.cards i).fd
  rwa [hfile i hi] at hctx

/-- A word to one card, a byte to the other, and the upper byte of the word back. -/
theorem calls_refine_array_twoCards :
    ∃ lib, (aiowdmInit (some ["pcie-dio-24", "mpcie-dio-24s"]) (.zeroed fun _ => ⟨0, none⟩)).exec
        (twoCards.descriptorFiles openInTurn) 0 = (.returned lib, 2) ∧
      ∃ m accesses, (runCalls lib [(0, .relOut .word 4 0x1234), (1, .relOut .byte 5 0x56),
          (0, .relIn .byte 5)]).exec
            (twoCards.registerFiles (ram twoCards fun _ => 1).record) (fun _ _ => 0, []) =
          ([.status 0, .status 0, .data .byte 0x12], (m, accesses)) ∧
        List.Forall₂ (OneAccess twoCards lib id) [(0, .relOut .word 4 0x1234),
          (1, .relOut .byte 5 0x56), (0, .relIn .byte 5)] accesses := by
  obtain ⟨lib, hinit, hcount, hfst, hsnd⟩ := aiowdmInit_twoCards
  have hown := ownCards_twoCards hcount hfst hsnd
  obtain ⟨m, accesses, hexec, -, hall⟩ := calls_refine_array twoCards openInTurn 0 2
    (some ["pcie-dio-24", "mpcie-dio-24s"]) (fun _ => ⟨0, none⟩) lib hinit (fun _ => 1) id hown
    (ram twoCards fun _ => 1) id (actsAsMemory_ram twoCards fun _ => 1) (fun _ _ => 0)
    [(0, .relOut .word 4 0x1234), (1, .relOut .byte 5 0x56), (0, .relIn .byte 5)] (by
      simp only [List.forall_mem_cons, ValidCall, hcount]
      decide)
  exact ⟨lib, hinit, m, accesses, hexec, hall⟩

end Aiowdm.Proofs.ByteMemories
