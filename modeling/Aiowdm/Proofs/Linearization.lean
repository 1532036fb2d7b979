import Aiowdm.Library.RegisterThreads
import Aiowdm.Proofs.ByteMemories

/-!
# Concurrent register calls take effect one at a time

The copies and the bus accesses of any number of threads interleave in any order, and
the hardware may change what the cards hold between any two of them.  What the threads
see is what they would see if each call ran alone at some moment between its
invocation and its return.
-/

namespace Aiowdm.Proofs.Linearization

open Aiowdm.Lib Aiowdm.Driver.Bus Aiowdm.Driver.DeviceContext Aiowdm.Driver.RegisterIo
open Aiowdm.Library Aiowdm.Library.Registers Aiowdm.Library.Cards Aiowdm.Library.OnDriver
open Aiowdm.Library.RegisterThreads Aiowdm.Proofs.ByteMemories

variable {σ τ ν : Type} [DecidableEq τ]

/-! ## Ioctls -/

def serveIoctl (host : Host) (h : Handler io σ) (op : Ioctl) (s : σ) :
    (Int × RegisterIoContext) × σ :=
  host.registerFiles h (.registerIo op.fd op.context) s

/-- For any request of any thread, even one that the driver does not understand, and
whatever the hardware does meanwhile. -/
theorem concurrent_ioctls_atomic (host : Host) (h : Handler io σ) (s : σ) (env : ν → σ → σ)
    (log : List (CallEvent τ Ioctl (Int × RegisterIoContext) ν))
    (st : ThreadState io user τ σ RegisterIoContext Ioctl Int)
    (hrun : Run ((registerIoctls host h).threads s env) log st) :
    ∃ log' st', Run (atomic (serveIoctl host h) s env) log' st' ∧
      log'.filterMap CallEvent.seen = log.filterMap CallEvent.seen ∧ st'.shared = st.shared := by
  have heffect : (registerIoctls host h).effect = serveIoctl host h := by
    funext op s
    exact effect_registerIoctls host h op s
  have hsim := (registerIoctls host h).simulation (τ := τ) s env fun op =>
    atMost_registerIoctl host op.fd
  obtain ⟨log', st', hrun', hseen, hshared, -⟩ := hsim.run hrun
  rw [heffect] at hrun'
  exact ⟨log', st', hrun', hseen, hshared.symm⟩

/-- A read of three bytes, which the driver does not make, while a byte is written. -/
theorem concurrent_ioctls_atomic_three_bytes :
    ∃ (log' : List (CallEvent Bool Ioctl (Int × RegisterIoContext) Unit))
      (st' : AtomicState Bool (PciDev → Bytes) Ioctl (Int × RegisterIoContext)),
      Run (atomic (serveIoctl twoCards (ram twoCards fun _ => 1)) (fun _ _ => 0)
        fun (_ : Unit) s => s) log' st' ∧
        log'.filterMap CallEvent.seen = [.returned true (0, ⟨1, 4, 3, 0x55⟩),
          .returned false (0, ⟨0, 4, 1, 0x12⟩), .invoked true ⟨3, ⟨1, 4, 3, 0x55⟩⟩,
          .invoked false ⟨3, ⟨0, 4, 1, 0x12⟩⟩] := by
  obtain ⟨log, st, hrun, hlog⟩ :=
    ((registerIoctls twoCards (ram twoCards fun _ => 1)).threads (fun _ _ => 0)
      fun (_ : Unit) s => s).exists_runWhere_map_of_exec (G := fun _ _ _ => True)
      (fun c => c.1.filterMap CallEvent.seen)
      [.invoke false ⟨3, ⟨0, 4, 1, 0x12⟩⟩, .invoke true ⟨3, ⟨1, 4, 3, 0x55⟩⟩, .step true,
        .step false, .step false, .finish false, .step true, .finish true]
      (b := [.returned true (0, ⟨1, 4, 3, 0x55⟩), .returned false (0, ⟨0, 4, 1, 0x12⟩),
        .invoked true ⟨3, ⟨1, 4, 3, 0x55⟩⟩, .invoked false ⟨3, ⟨0, 4, 1, 0x12⟩⟩])
      (fun _ _ _ _ => trivial) rfl
  obtain ⟨log', st', hrun', hseen, -⟩ := concurrent_ioctls_atomic twoCards
    (ram twoCards fun _ => 1) (fun _ _ => 0) (fun (_ : Unit) s => s) log st hrun
  exact ⟨log', st', hrun', hseen.trans hlog⟩

/-! ## Library calls -/

def request : RegisterCall → RegisterIoContext
  | .relIn w register => inRequest register w
  | .relOut w register value => outRequest register w value

def result : RegisterCall → Int × RegisterIoContext → Result
  | .relIn w _, answer => .data w (dataMember w answer.2.data)
  | .relOut _ _ _, answer => .status answer.1

/-- The register calls of the library, each on the card that it names by number. -/
def registerCalls (host : Host) (h : Handler io σ) (lib : Statics) :
    Object io user σ RegisterIoContext (BitVec 32 × RegisterCall) Int Result where
  shared := h
  own := buffer
  program c := registerIoctl host (lib.cards c.1.toNat).fd
  enter c := request c.2
  result c ret context := result c.2 (ioctlStatus ret, context)

private theorem effect_registerCalls (host : Host) (h : Handler io σ) (lib : Statics)
    (c : BitVec 32 × RegisterCall) (s : σ) :
    (registerCalls host h lib).effect c s = (c.2.run lib c.1).exec (host.registerFiles h) s := by
  have hioctl : (registerCalls host h lib).effect c s =
      (let r := (registerIoctls host h).effect ⟨(lib.cards c.1.toNat).fd, request c.2⟩ s
      (result c.2 r.1, r.2)) := rfl
  rw [hioctl, effect_registerIoctls]
  obtain ⟨cardNum, call⟩ := c
  cases call <;> rfl

variable {host : Host} {h : Handler io σ} {mem : σ → PciDev → Bytes}
variable {bar : PciDev → Fin PCI_STD_NUM_BARS} {dev : Nat → PciDev} {lib : Statics}

private theorem effect_onArray (hown : OwnCards host bar lib dev)
    (hmem : ActsAsMemory host bar h mem)
    (c : BitVec 32 × RegisterCall) (s : σ) (array : Nat → Bytes)
    (hvalid : ValidCall host bar lib dev c) (hholds : Holds host bar lib dev (mem s) array) :
    ((registerCalls host h lib).effect c s).1 = (c.2.onArray array c.1).1 ∧
      Holds host bar lib dev (mem ((registerCalls host h lib).effect c s).2)
        (c.2.onArray array c.1).2 := by
  obtain ⟨s', hexec, hholds'⟩ := exec_run hown hmem hvalid hholds []
  have hplain : (c.2.run lib c.1).exec (host.registerFiles h) s =
      ((c.2.onArray array c.1).1, s') := by
    obtain ⟨cardNum, call⟩ := c
    cases call <;>
    · simp only [RegisterCall.run, Prog.exec_bind, exec_relIn, exec_relOut] at hexec ⊢
      have hresult := congrArg (fun x : Result × (σ × List IoCall) => (x.1, x.2.1)) hexec
      exact hresult
  rw [effect_registerCalls, hplain]
  exact ⟨rfl, hholds'⟩

/-- What the array holds after one call after another. -/
def serveCall (c : BitVec 32 × RegisterCall) (array : Nat → Bytes) : Result × (Nat → Bytes) :=
  c.2.onArray array c.1

def unchanged (_ : ν) (array : Nat → Bytes) : Nat → Bytes := array

/-- Threads that call the register functions on cards whose default BARs are memories
see what they would see if each call were one access to an array with a row for each
card.  What else the hardware does leaves those bytes alone. -/
theorem concurrent_calls_refine_array (host : Host) (bar : PciDev → Fin PCI_STD_NUM_BARS)
    (lib : Statics) (dev : Nat → PciDev) (hown : OwnCards host bar lib dev)
    (h : Handler io σ) (mem : σ → PciDev → Bytes) (hmem : ActsAsMemory host bar h mem)
    (env : ν → σ → σ)
    (henv : ∀ n s d, ∀ y < barLen host bar d, mem (env n s) d y = mem s d y) (s : σ)
    (log : List (CallEvent τ (BitVec 32 × RegisterCall) Result ν))
    (st : ThreadState io user τ σ RegisterIoContext (BitVec 32 × RegisterCall) Int)
    (hrun : RunWhere ((registerCalls host h lib).threads s env)
      (InvokesValid (ValidCall host bar lib dev)) log st) :
    ∃ log' st', Run (atomic serveCall (fun i => mem s (dev i)) (unchanged (ν := ν))) log' st' ∧
      log'.filterMap CallEvent.seen = log.filterMap CallEvent.seen ∧
      Holds host bar lib dev (mem st.shared) st'.shared := by
  obtain ⟨log₁, st₁, hrun₁, hseen₁, hshared, -⟩ :=
    ((registerCalls host h lib).simulation s env fun c =>
      atMost_registerIoctl host (lib.cards c.1.toNat).fd).run hrun.run
  have hvalid : ∀ t c, CallEvent.invoked t c ∈ log₁ → ValidCall host bar lib dev c := by
    intro t c hc
    refine valid_of_invoked hrun (t := t) ?_
    rwa [← invoked_mem_seen, ← hseen₁, invoked_mem_seen]
  have hstart : Holds host bar lib dev (mem s) fun i => mem s (dev i) := fun _ _ _ _ => rfl
  have hkeep : ∀ (n : ν) s' array, Holds host bar lib dev (mem s') array →
      Holds host bar lib dev (mem (env n s')) (unchanged n array) := by
    intro n s' array hholds i hi x hx
    exact (henv n s' (dev i) x hx).trans (hholds i hi x hx)
  have hsim := simulation_atomic (τ := τ) (S := fun s array => Holds host bar lib dev (mem s) array)
    hstart hkeep fun c s' array hc hholds => effect_onArray hown hmem c s' array hc hholds
  obtain ⟨log', st', hrun', hseen', hholds, -, -⟩ :=
    hsim.run (runWhere_of_invoked hrun₁ hvalid)
  exact ⟨log', st', hrun', hseen'.trans hseen₁, hshared ▸ hholds⟩

/-! ## Two threads on one card -/

def twoFiles : Statics where
  cards i := ⟨3 + i, none⟩
  numCards := 2
  initComplete := true

/-- One thread reads a word while the other writes it: both copy their requests, the
read comes first on the bus and returns last. -/
def readUnderWrite : List (CallAction Bool (BitVec 32 × RegisterCall) Unit) :=
  [.invoke false (0, .relOut .word 4 0x1234), .invoke true (0, .relIn .word 4), .step false,
    .step true, .step true, .step false, .finish false, .step true, .finish true]

instance : DecidablePred (ValidCall twoCards (fun _ => 1) twoFiles id) :=
  fun _ => inferInstanceAs (Decidable (_ ∧ _))

theorem concurrent_calls_refine_array_two_threads :
    ∃ (log' : List (CallEvent Bool (BitVec 32 × RegisterCall) Result Unit))
      (st' : AtomicState Bool (Nat → Bytes) (BitVec 32 × RegisterCall) Result),
      Run (atomic serveCall (fun _ _ => 0) unchanged) log' st' ∧
        log'.filterMap CallEvent.seen = [.returned true (.data .word 0),
          .returned false (.status 0), .invoked true (0, .relIn .word 4),
          .invoked false (0, .relOut .word 4 0x1234)] := by
  obtain ⟨log, st, hrun, hlog⟩ :=
    ((registerCalls twoCards (ram twoCards fun _ => 1) twoFiles).threads (fun _ _ => 0)
      fun (_ : Unit) s => s).exists_runWhere_map_of_execWhere
      (G := InvokesValid (ValidCall twoCards (fun _ => 1) twoFiles id))
      (fun c => c.1.filterMap CallEvent.seen) readUnderWrite
      (b := [.returned true (.data .word 0), .returned false (.status 0),
        .invoked true (0, .relIn .word 4), .invoked false (0, .relOut .word 4 0x1234)]) rfl
  obtain ⟨log', st', hrun', hseen, -⟩ := concurrent_calls_refine_array twoCards (fun _ => 1)
    twoFiles id (ownCards_twoCards rfl rfl rfl) (ram twoCards fun _ => 1) id
    (actsAsMemory_ram twoCards fun _ => 1) (fun (_ : Unit) s => s) (fun _ _ _ _ _ => rfl)
    (fun _ _ => 0) log st hrun
  exact ⟨log', st', hrun', hseen.trans hlog⟩

end Aiowdm.Proofs.Linearization
