import Aiowdm.Lib.Atomic
import Aiowdm.Library.OnDriver

/-!
# Threads that access registers

Register ioctls of any number of threads, whose copies and bus accesses interleave.
Each thread has the request in memory of its own, and all share the cards.
-/

namespace Aiowdm.Library.RegisterThreads

open Aiowdm.Lib Aiowdm.Driver.Bus Aiowdm.Driver.RegisterIo
open Aiowdm.Library.OnDriver Aiowdm.Library.Registers

variable {σ : Type}

def addressing (host : Host) (fd : Int) : Prog.Renaming bus io where
  call
    | .ioread w addr => .ioread w (host.addressOf fd addr)
    | .iowrite w value addr => .iowrite w value (host.addressOf fd addr)
  reply
    | .ioread _ _, value => value
    | .iowrite _ _ _, r => r

/-- `ioctl (fd, ACCESIO_PCI_REGISTER_IO, &context)`, by address. -/
def registerIoctl (host : Host) (fd : Int) : Prog (io.sum user) Int :=
  (ioctlAccesioPciRegisterIo (host.contexts fd)).rename ((addressing host fd).left user)

/-- What a thread asks of the driver: a file, and the request. -/
structure Ioctl where
  fd : Int
  context : RegisterIoContext
deriving DecidableEq, Repr

/-- The register ioctls on the cards that `h` serves.  The result is what `ioctl`
returns, and the request as the driver leaves it. -/
def registerIoctls (host : Host) (h : Handler io σ) :
    Object io user σ RegisterIoContext Ioctl Int (Int × RegisterIoContext) where
  shared := h
  own := buffer
  program op := registerIoctl host op.fd
  enter op := op.context
  result _ ret context := (ioctlStatus ret, context)

/-! ## One access -/

theorem atMost_readRegister (context : Driver.DeviceContext.Context) (request : RegisterIoContext) :
    (readRegister context request).AtMost (fun _ => true) 1 := by
  unfold readRegister
  split
  · exact .call fun _ => trivial
  · split
    · exact .call fun _ => trivial
    · split
      · exact .call fun _ => trivial
      · trivial

theorem atMost_writeRegister (context : Driver.DeviceContext.Context)
    (request : RegisterIoContext) :
    (writeRegister context request).AtMost (fun _ => true) 1 := by
  unfold writeRegister
  split
  · exact .call fun _ => trivial
  · split
    · exact .call fun _ => trivial
    · split
      · exact .call fun _ => trivial
      · trivial

/-- Whatever the request is, the ioctl makes at most one access. -/
theorem atMost_ioctlAccesioPciRegisterIo (context : Driver.DeviceContext.Context) :
    (ioctlAccesioPciRegisterIo context).AtMost Sum.isLeft 1 := by
  refine .call_of_not rfl fun request => ?_
  cases request with
  | none => trivial
  | some request =>
      change Prog.AtMost (I := registerIo) Sum.isLeft (if request.read ≠ 0 then _ else _) 1
      split
      · have hread := (atMost_readRegister context request).inl (J := user)
        refine hread.bind (m := 0) fun request => .call_of_not rfl fun copied : Bool => ?_
        cases copied <;> trivial
      · have hwrite := (atMost_writeRegister context request).inl (J := user)
        exact hwrite.bind (m := 0) fun _ => trivial

theorem atMost_registerIoctl (host : Host) (fd : Int) :
    (registerIoctl host fd).AtMost Sum.isLeft 1 := by
  refine .rename (fun c => ?_) (atMost_ioctlAccesioPciRegisterIo (host.contexts fd))
  cases c <;> rfl

/-! ## Alone -/

theorem serve_left (host : Host) (fd : Int) (h : Handler io σ) :
    ((addressing host fd).left user).serve (h.sum buffer) = (host.busOf h fd).sum buffer := by
  funext c s
  rcases c with c | c
  · cases c <;> rfl
  · rfl

/-- Alone, an ioctl does what the driver does when it serves one ioctl after another. -/
theorem effect_registerIoctls (host : Host) (h : Handler io σ) (op : Ioctl) (s : σ) :
    (registerIoctls host h).effect op s =
      host.registerFiles h (.registerIo op.fd op.context) s := by
  have hexec : (registerIoctl host op.fd).exec (h.sum buffer) (s, op.context) =
      (ioctlAccesioPciRegisterIo (host.contexts op.fd)).exec ((host.busOf h op.fd).sum buffer)
        (s, op.context) := by
    rw [registerIoctl, Prog.exec_rename, serve_left]
  unfold Object.effect Object.outcome
  exact congrArg (fun x : Int × (σ × RegisterIoContext) =>
    ((ioctlStatus x.1, x.2.2), x.2.1)) hexec

end Aiowdm.Library.RegisterThreads
