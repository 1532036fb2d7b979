import Aiowdm.Driver.RequestBytes
import Aiowdm.Library.OnDriver

/-!
# Requests in memory

A library function has its request in its own memory, and the driver copies the bytes of
it in and out.  Every program of such calls runs as it does on requests that are values,
so what is said of the values is said of the bytes.
-/

namespace Aiowdm.Proofs.RequestRefinement

open Aiowdm.Lib Aiowdm.Driver.Bus Aiowdm.Driver.DeviceContext Aiowdm.Driver.RegisterIo
open Aiowdm.Driver.RequestBytes Aiowdm.Library.OnDriver Aiowdm.Library.Registers

/-! ## Storing and loading a request -/

theorem loadRequest_storeRequest (request : RegisterIoContext) (m : Bytes) (a : Nat) :
    loadRequest (storeRequest request m a) a = request := by
  obtain ⟨read, offset, size, data⟩ := request
  simp only [loadRequest, storeRequest, DATA_OFFSET, RegisterIoContext.mk.injEq]
  refine ⟨?_, ?_, ?_, ?_⟩
  · rw [Bytes.load_store_of_disjoint _ (by omega), Bytes.load_store_of_disjoint _ (by omega),
      Bytes.load_store_of_disjoint _ (by omega)]
    exact Bytes.load_store m a 1 read
  · rw [Bytes.load_store_of_disjoint _ (by omega), Bytes.load_store_of_disjoint _ (by omega)]
    exact Bytes.load_store _ (a + 4) 4 offset
  · rw [Bytes.load_store_of_disjoint _ (by omega)]
    exact Bytes.load_store _ (a + 8) 4 size
  · exact Bytes.load_store _ (a + 12) 4 data

/-! ## One ioctl -/

/-- The program has the request at `a`, and the rest of its memory as in `before`. -/
structure HoldsRequest (a : Nat) (before : Bytes) (m : Memories) (request : RegisterIoContext) :
    Prop where
  request : loadRequest m.user a = request
  outside : ∀ x, ¬(a ≤ x ∧ x < a + REQUEST_SIZE) → m.user x = before x

variable {σ : Type} {a : Nat} {before : Bytes} {m : Memories} {request : RegisterIoContext}

theorem HoldsRequest.copied (h : HoldsRequest a before m request) (c : UserCall) :
    (copies a c m).1 = (buffer c request).1 ∧
      HoldsRequest a before (copies a c m).2 (buffer c request).2 := by
  cases c with
  | copyFromUser =>
      rw [copies_copyFromUser]
      exact ⟨congrArg some h.request, h.request, h.outside⟩
  | copyToUser back =>
      let frame := storeRequest back m.frame 0
      have hload : loadRequest (Bytes.copy frame 0 m.user a REQUEST_SIZE) a = loadRequest frame 0 :=
        loadRequest_of_sameBytes (Bytes.sameBytes_copy frame 0 m.user a REQUEST_SIZE)
      refine ⟨rfl, hload.trans (loadRequest_storeRequest back m.frame 0), fun x hx => ?_⟩
      rw [← h.outside x hx]
      exact if_neg hx

/-- The ioctl on the bytes of a request and the ioctl on the request. -/
theorem exec_ioctl_copies (h : Handler bus σ) (context : Context) (s : σ) (m : Memories)
    (a : Nat) :
    let r := (ioctlAccesioPciRegisterIo context).exec (h.sum (copies a)) (s, m)
    let v := (ioctlAccesioPciRegisterIo context).exec (h.sum buffer) (s, loadRequest m.user a)
    r.1 = v.1 ∧ r.2.1 = v.2.1 ∧ HoldsRequest a m.user r.2.2 v.2.2 := by
  refine (Prog.Every.of_forall (fun _ => trivial) _).exec_related (P := fun _ => True)
    (R := fun (x : σ × Memories) (y : σ × RegisterIoContext) =>
      x.1 = y.1 ∧ HoldsRequest a m.user x.2 y.2) ?_ ⟨rfl, rfl, fun _ _ => rfl⟩
  rintro (c | c) ⟨s, m⟩ ⟨s', request⟩ - ⟨heq, hholds⟩
  · obtain rfl : s = s' := heq
    exact ⟨rfl, rfl, hholds⟩
  · obtain ⟨hreply, hholds'⟩ := hholds.copied c
    exact ⟨hreply, heq, hholds'⟩

/-! ## Programs of ioctls -/

/-- The driver, serving requests that lie in the memory of the program.  `place` is where
a function has its local variable `context`. -/
def byteFiles (host : Host) (h : Handler io σ) (place : Memories → Nat) :
    Handler ioctls (σ × Memories)
  | .registerIo fd c, (s, m) =>
      let a := place m
      let (ret, s, m) :=
        (ioctlAccesioPciRegisterIo (host.contexts fd)).exec ((host.busOf h fd).sum (copies a))
          (s, { m with user := storeRequest c m.user a })
      ((ioctlStatus ret, loadRequest m.user a), (s, m))

def Elsewhere (place : Memories → Nat) (x : Nat) : Prop :=
  ∀ m, ¬(place m ≤ x ∧ x < place m + REQUEST_SIZE)

section Files

variable (host : Host) (h : Handler io σ) (place : Memories → Nat)

private theorem byteFiles_registerIo (fd : Int) (c : RegisterIoContext) (s : σ) (m : Memories) :
    let r := byteFiles host h place (.registerIo fd c) (s, m)
    let v := host.registerFiles h (.registerIo fd c) s
    r.1 = v.1 ∧ r.2.1 = v.2 ∧ ∀ x, Elsewhere place x → r.2.2.user x = m.user x := by
  obtain ⟨hret, hs, hholds⟩ := exec_ioctl_copies (host.busOf h fd) (host.contexts fd) s
    { m with user := storeRequest c m.user (place m) } (place m)
  rw [loadRequest_storeRequest] at hret hs hholds
  refine ⟨?_, hs, fun x hx => ?_⟩
  · exact Prod.ext (congrArg ioctlStatus hret) hholds.request
  · exact (hholds.outside x (hx m)).trans (storeRequest_outside m.user (place m) c (hx m))

/-- Whatever the accesses answer and wherever each function has its variable: a program of
register ioctls returns what it returns on requests as values, leaves the cards as it does
there, and leaves the rest of the program's memory alone. -/
theorem requests_as_bytes {α : Type} (p : Prog ioctls α) (s : σ) (m : Memories) :
    (p.exec (byteFiles host h place) (s, m)).1 = (p.exec (host.registerFiles h) s).1 ∧
      (p.exec (byteFiles host h place) (s, m)).2.1 = (p.exec (host.registerFiles h) s).2 ∧
      ∀ x, Elsewhere place x →
        (p.exec (byteFiles host h place) (s, m)).2.2.user x = m.user x := by
  refine (Prog.Every.of_forall (fun _ => trivial) p).exec_related (P := fun _ => True)
    (R := fun (x : σ × Memories) (y : σ) =>
      x.1 = y ∧ ∀ i, Elsewhere place i → x.2.user i = m.user i) ?_ ⟨rfl, fun _ _ => rfl⟩
  rintro ⟨fd, c⟩ ⟨s, m'⟩ t - ⟨heq, houtside⟩
  obtain rfl : s = t := heq
  obtain ⟨hreply, hs, hrest⟩ := byteFiles_registerIo host h place fd c s m'
  exact ⟨hreply, hs, fun i hi => (hrest i hi).trans (houtside i hi)⟩

end Files

end Aiowdm.Proofs.RequestRefinement
