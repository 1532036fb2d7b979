import Aiowdm.Driver.DeviceContext

/-!
# The register actions of the older driver

`module_old` keeps its interrupt styles as data: each operation of a style is one
`struct register_operation`, which `aio_driver_register_action` carries out.
-/

namespace Aiowdm.Driver.RegisterActions

open Aiowdm.Lib Aiowdm.Driver.Bus

def eperm : Int := 1

/-- `enum REGISTER_ACTION`. -/
inductive RegisterAction where
  | none
  | read8 | read16 | read32
  | write8 | write16 | write32 | write48
  | testbits8 | testbits16 | testbits32
  | writebits8 | writebits16 | writebits32
  | togglebits8 | togglebits16 | togglebits32
deriving DecidableEq, Repr

/-- `struct register_operation`, the members left out of an initializer zero. -/
structure RegisterOperation where
  action : RegisterAction := .none
  bar : Fin 6 := 0
  offset : BitVec 16 := 0
  value : BitVec 32 := 0
  mask : BitVec 32 := 0
deriving DecidableEq, Repr

/-- `!((value read ^ op.value) & op.mask)`. -/
def testBits (op : RegisterOperation) (read : BitVec 32) : BitVec 32 :=
  if (read ^^^ op.value) &&& op.mask = 0 then 1 else 0

/-- The status, and `op.value` at the end.  The actions that change bits read at the
offset and write at the start of the BAR. -/
def aioDriverRegisterAction (op : RegisterOperation) : Prog bus (Int × BitVec 32) := do
  let addr := bar op.bar op.offset.toNat
  let start := bar op.bar 0
  match op.action with
  | .none => return (0, op.value)
  | .read8 => return (0, (← ioread8 addr).setWidth 32)
  | .read16 => return (0, (← ioread16 addr).setWidth 32)
  | .read32 => return (0, ← ioread32 addr)
  | .write8 =>
      iowrite8 (op.value.setWidth 8) addr
      return (0, op.value)
  | .write16 =>
      iowrite16 (op.value.setWidth 16) addr
      return (0, op.value)
  | .write32 =>
      iowrite32 op.value addr
      return (0, op.value)
  | .write48 => return (-eperm, op.value)
  | .testbits8 => return (0, testBits op ((← ioread8 addr).setWidth 32))
  | .testbits16 => return (0, testBits op ((← ioread16 addr).setWidth 32))
  | .testbits32 => return (0, testBits op (← ioread32 addr))
  | .writebits8 =>
      let byte ← ioread8 addr
      iowrite8 ((byte.setWidth 32 &&& op.mask ||| op.value).setWidth 8) start
      return (0, op.value)
  | .writebits16 =>
      let word ← ioread16 addr
      iowrite16 ((word.setWidth 32 &&& op.mask ||| op.value).setWidth 16) start
      return (0, op.value)
  | .writebits32 =>
      let dword ← ioread32 addr
      iowrite32 (dword &&& op.mask ||| op.value) start
      return (0, op.value)
  | .togglebits8 =>
      let byte ← ioread8 addr
      iowrite8 ((byte.setWidth 32 ^^^ op.mask).setWidth 8) start
      return (0, op.value)
  | .togglebits16 | .togglebits32 =>
      let word ← ioread16 addr
      iowrite16 ((word.setWidth 32 ^^^ op.mask).setWidth 16) start
      return (0, op.value)

/-! ## The styles -/

/-- `struct aio_irq_descriptor`, the operations for an interrupt. -/
structure AioIrqDescriptor where
  testLatched : RegisterOperation := {}
  disable : RegisterOperation := {}
  clear : RegisterOperation := {}
  enable : RegisterOperation := {}
deriving DecidableEq, Repr

def isLatched_PCI : RegisterOperation :=
  { action := .testbits8, bar := 1, offset := 0x4c, value := 0xff, mask := 0x04 }

def isLatched_PCIe : RegisterOperation :=
  { action := .testbits8, bar := 1, offset := 0x69, value := 0xff, mask := 0x80 }

def PCI_1_STYLE : AioIrqDescriptor where
  testLatched := isLatched_PCI
  disable := { action := .write8, bar := 2, offset := 0x13 }
  clear := { action := .read8, bar := 2, offset := 0x13 }
  enable := { action := .write8, bar := 2, offset := 0x13, value := 0x02 }

def PCI_2_STYLE : AioIrqDescriptor where
  testLatched := isLatched_PCI
  disable := { action := .write8, bar := 2, offset := 0x1e }
  clear := {}
  enable := { action := .write8, bar := 2, offset := 0x1f }

def PCI_3_STYLE : AioIrqDescriptor where
  testLatched := isLatched_PCI
  disable := { action := .write8, bar := 2, offset := 0x02 }
  clear := { action := .write8, bar := 2, offset := 0x02 }
  enable := { action := .read8, bar := 2, offset := 0x01 }

def PCI_4_STYLE : AioIrqDescriptor where
  testLatched := isLatched_PCI
  disable := { action := .read8, bar := 2, offset := 0x04 }
  clear := { action := .read8, bar := 2, offset := 0x0c }
  enable := { action := .read8, bar := 2, offset := 0x03 }

def PCI_5_STYLE : AioIrqDescriptor where
  testLatched := isLatched_PCI
  disable := { action := .write8, bar := 2, offset := 0x07 }
  clear := { action := .read8, bar := 2, offset := 0x07 }
  enable := { action := .write8, bar := 2, offset := 0x07, value := 0x80 }

def PCI_6_STYLE : AioIrqDescriptor where
  testLatched := isLatched_PCI
  disable := { action := .read8, bar := 2, offset := 0x09 }
  clear := {}
  enable := { action := .write8, bar := 2, offset := 0x04, value := 0x81 }

def PCI_7_STYLE : AioIrqDescriptor where
  testLatched := isLatched_PCI
  disable := { action := .read8, bar := 2, offset := 0x09 }
  clear := {}
  enable := { action := .read8, bar := 2, offset := 0x04 }

def PCI_8_STYLE : AioIrqDescriptor where
  testLatched := isLatched_PCI
  disable := { action := .write8, bar := 2, offset := 0x0b, value := 0xff }
  clear := { action := .write8, bar := 2, offset := 0x0f }
  enable := { action := .write8, bar := 2, offset := 0x0b }

def PCI_9_STYLE : AioIrqDescriptor where
  testLatched := isLatched_PCI
  disable := { action := .write8, bar := 2, offset := 0x0c }
  clear := {}
  enable := { action := .write8, bar := 2, offset := 0x0c, value := 0x10 }

def PCI_10_STYLE : AioIrqDescriptor where
  testLatched := isLatched_PCI
  disable := { action := .write8, bar := 2, offset := 0x0d }
  clear := { action := .write8, bar := 2, offset := 0x0f }
  enable := { action := .write8, bar := 2, offset := 0x0e }

def PCI_11_STYLE : AioIrqDescriptor := {}

def PCI_12_STYLE : AioIrqDescriptor where
  testLatched := isLatched_PCI
  disable := {}
  clear := { action := .read8, bar := 2, offset := 0x04 }
  enable := {}

def PCI_13_STYLE : AioIrqDescriptor where
  testLatched := isLatched_PCI
  disable := {}
  clear := { action := .write8, bar := 2, offset := 0x7f }
  enable := {}

def PCI_NO_IRQ_STYLE : AioIrqDescriptor where
  testLatched := isLatched_PCI
  disable := {}
  clear := {}
  enable := {}

def PCIE_1_STYLE : AioIrqDescriptor where
  testLatched := isLatched_PCIe
  disable := { action := .write8, bar := 2, offset := 0x1e }
  clear := {}
  enable := { action := .write8, bar := 2, offset := 0x1f }

def PCIE_2_STYLE : AioIrqDescriptor where
  testLatched := isLatched_PCIe
  disable := { action := .write8, bar := 2, offset := 0x28 }
  clear := { action := .write8, bar := 2, offset := 0x29, value := 0xff }
  enable := { action := .write8, bar := 2, offset := 0x28, value := 0xff }

def PCIE_3_STYLE : AioIrqDescriptor where
  testLatched := isLatched_PCIe
  disable := { action := .write8, bar := 2, offset := 0x02 }
  clear := { action := .write8, bar := 2, offset := 0x01 }
  enable := { action := .read8, bar := 2, offset := 0x02 }

def PCIE_4_STYLE : AioIrqDescriptor where
  testLatched := isLatched_PCIe
  disable := { action := .write8, bar := 2, offset := 0x0b, value := 0xff }
  clear := { action := .write8, bar := 2, offset := 0x0f }
  enable := { action := .write8, bar := 2, offset := 0x0b }

def PCIE_5_STYLE : AioIrqDescriptor where
  testLatched := isLatched_PCIe
  disable := { action := .read8, bar := 2, offset := 0x0b }
  clear := { action := .write8, bar := 2, offset := 0x0f }
  enable := { action := .write8, bar := 2, offset := 0x0b }

def PCIE_6_STYLE : AioIrqDescriptor where
  testLatched := isLatched_PCIe
  disable := { action := .write8, bar := 2, offset := 0x0e }
  clear := { action := .write32, bar := 2, offset := 0x08, value := 0xffffffff }
  enable := { action := .write8, bar := 2, offset := 0x0e, value := 0xff }

def PCIE_7_STYLE : AioIrqDescriptor where
  testLatched := isLatched_PCIe
  disable := { action := .write8, bar := 2, offset := 0x0e }
  clear := { action := .write8, bar := 2, offset := 0x0f }
  enable := { action := .write8, bar := 2, offset := 0x0e, value := 0x03 }

def PCIE_8_STYLE : AioIrqDescriptor where
  testLatched := isLatched_PCIe
  disable := { action := .read8, bar := 2, offset := 0x04 }
  clear := { action := .read8, bar := 2, offset := 0x0c }
  enable := { action := .read8, bar := 2, offset := 0x03 }

def NYI : AioIrqDescriptor := {}

/-! ## The table -/

/-- `struct aio_pci_dev_cfg`, less the members no function reads. -/
structure AioPciDevCfg where
  pciDevId : Nat
  irq : AioIrqDescriptor
deriving DecidableEq, Repr

def aioPciDevTable : List AioPciDevCfg :=
  [ ⟨0x0100, PCIE_2_STYLE⟩, ⟨0x0101, PCIE_2_STYLE⟩, ⟨0x0102, PCIE_2_STYLE⟩,
    ⟨0x0103, PCIE_2_STYLE⟩, ⟨0x0104, PCIE_2_STYLE⟩, ⟨0x0105, PCIE_2_STYLE⟩,
    ⟨0x0106, PCIE_2_STYLE⟩, ⟨0x0107, PCIE_2_STYLE⟩, ⟨0x0108, PCIE_2_STYLE⟩,
    ⟨0x0109, PCIE_2_STYLE⟩, ⟨0x010a, PCIE_2_STYLE⟩, ⟨0x010b, PCIE_2_STYLE⟩, ⟨0x010c, NYI⟩,
    ⟨0x010d, NYI⟩, ⟨0x010e, NYI⟩, ⟨0x010f, NYI⟩, ⟨0x0508, PCI_NO_IRQ_STYLE⟩,
    ⟨0x0518, PCI_NO_IRQ_STYLE⟩, ⟨0x0520, PCI_NO_IRQ_STYLE⟩, ⟨0x0521, PCI_NO_IRQ_STYLE⟩,
    ⟨0x0703, PCIE_3_STYLE⟩, ⟨0x07c0, NYI⟩, ⟨0x07d0, PCIE_6_STYLE⟩, ⟨0x0920, PCI_5_STYLE⟩,
    ⟨0x0bc0, NYI⟩, ⟨0x0bc1, NYI⟩, ⟨0x0bd0, PCIE_6_STYLE⟩, ⟨0x0bd1, NYI⟩,
    ⟨0x0c40, PCIE_1_STYLE⟩, ⟨0x0c50, PCI_10_STYLE⟩, ⟨0x0c51, PCI_10_STYLE⟩,
    ⟨0x0c52, PCIE_7_STYLE⟩, ⟨0x0c53, PCIE_7_STYLE⟩, ⟨0x0c54, PCIE_4_STYLE⟩,
    ⟨0x0c57, PCIE_4_STYLE⟩, ⟨0x0c60, PCI_8_STYLE⟩, ⟨0x0c61, PCIE_4_STYLE⟩,
    ⟨0x0c62, PCI_NO_IRQ_STYLE⟩, ⟨0x0c68, PCI_2_STYLE⟩, ⟨0x0c69, PCI_NO_IRQ_STYLE⟩,
    ⟨0x0c6a, PCIE_1_STYLE⟩, ⟨0x0c70, PCI_2_STYLE⟩, ⟨0x0c71, PCIE_1_STYLE⟩,
    ⟨0x0c78, PCI_2_STYLE⟩, ⟨0x0c79, PCIE_1_STYLE⟩, ⟨0x0dc8, PCI_3_STYLE⟩,
    ⟨0x0e50, PCI_8_STYLE⟩, ⟨0x0e51, PCI_10_STYLE⟩, ⟨0x0e52, PCI_10_STYLE⟩,
    ⟨0x0e53, PCIE_4_STYLE⟩, ⟨0x0e54, PCIE_4_STYLE⟩, ⟨0x0e55, PCIE_7_STYLE⟩,
    ⟨0x0e56, PCIE_4_STYLE⟩, ⟨0x0e57, PCIE_4_STYLE⟩, ⟨0x0e60, PCI_8_STYLE⟩,
    ⟨0x0e61, PCIE_4_STYLE⟩, ⟨0x0e62, PCI_11_STYLE⟩, ⟨0x0e63, NYI⟩, ⟨0x0e6a, PCIE_1_STYLE⟩,
    ⟨0x0e71, PCIE_1_STYLE⟩, ⟨0x0e79, PCIE_1_STYLE⟩, ⟨0x0f00, PCI_3_STYLE⟩,
    ⟨0x0f01, PCI_3_STYLE⟩, ⟨0x0f02, PCIE_3_STYLE⟩, ⟨0x0f08, PCI_3_STYLE⟩,
    ⟨0x0f09, PCIE_3_STYLE⟩, ⟨0x0fc0, PCIE_6_STYLE⟩, ⟨0x0fc1, PCIE_6_STYLE⟩,
    ⟨0x0fc2, PCIE_6_STYLE⟩, ⟨0x0fd0, PCIE_6_STYLE⟩, ⟨0x0fd1, NYI⟩, ⟨0x2230, PCI_13_STYLE⟩,
    ⟨0x2231, PCI_13_STYLE⟩, ⟨0x22c0, PCI_7_STYLE⟩, ⟨0x25c0, PCI_6_STYLE⟩,
    ⟨0x2c50, PCI_2_STYLE⟩, ⟨0x2c58, PCI_2_STYLE⟩, ⟨0x2c59, PCIE_1_STYLE⟩, ⟨0x2c70, NYI⟩,
    ⟨0x2e50, PCIE_4_STYLE⟩, ⟨0x2ee0, PCIE_5_STYLE⟩, ⟨0x2fc0, PCI_6_STYLE⟩,
    ⟨0x2fc1, PCI_6_STYLE⟩, ⟨0x4890, PCIE_8_STYLE⟩, ⟨0x4898, PCIE_8_STYLE⟩,
    ⟨0x48a0, PCIE_8_STYLE⟩, ⟨0x48a8, PCIE_8_STYLE⟩, ⟨0x48b0, PCIE_8_STYLE⟩,
    ⟨0x48d0, PCIE_8_STYLE⟩, ⟨0x48d8, PCIE_8_STYLE⟩, ⟨0x48e0, PCIE_8_STYLE⟩,
    ⟨0x48e8, PCIE_8_STYLE⟩, ⟨0x48f0, PCIE_8_STYLE⟩, ⟨0x5ed0, NYI⟩, ⟨0x6c90, PCI_4_STYLE⟩,
    ⟨0x6c98, PCI_4_STYLE⟩, ⟨0x6ca0, PCI_4_STYLE⟩, ⟨0x6ca8, PCI_4_STYLE⟩, ⟨0x6ca9, PCI_4_STYLE⟩,
    ⟨0x6cb0, PCI_4_STYLE⟩, ⟨0x6cb1, PCI_4_STYLE⟩, ⟨0xaca8, PCI_12_STYLE⟩,
    ⟨0xaca9, PCI_12_STYLE⟩, ⟨0xeca8, PCI_12_STYLE⟩, ⟨0xeca9, PCI_12_STYLE⟩,
    ⟨0xecaa, PCI_12_STYLE⟩, ⟨0xece8, PCI_9_STYLE⟩, ⟨0xece9, PCI_1_STYLE⟩ ]

end Aiowdm.Driver.RegisterActions
