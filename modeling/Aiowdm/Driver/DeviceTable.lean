import Aiowdm.Driver.InterruptStyles

/-!
# The tables of `accesio_pci_ids.h`

A row of the descriptor table names either no interrupt function at all or the
three functions of one style.
-/

namespace Aiowdm.Driver.DeviceTable

open Aiowdm.Lib Aiowdm.Driver.InterruptStyles

/-- `struct accesio_pci_device_descriptor`, less the members no function reads. -/
structure DeviceDescriptor where
  pid : Nat
  name : String
  isr : Option Style
  enable : Option Style
  disable : Option Style
  hasDma : Bool
deriving DecidableEq, Repr

def withStyle (pid : Nat) (name : String) (style : Style) : DeviceDescriptor :=
  ⟨pid, name, some style, some style, some style, false⟩

def withoutIrq (pid : Nat) (name : String) : DeviceDescriptor :=
  ⟨pid, name, none, none, none, false⟩

def accesioPciDeviceDescriptors : List DeviceDescriptor :=
  [ withStyle 0x0100 "mpcie-dio-24s" .pcie2,
    withStyle 0x0101 "mpcie-idio-8" .pcie2,
    withStyle 0x0102 "mpcie-iiro-8" .pcie2,
    withStyle 0x0103 "mpcie-idio-4" .pcie2,
    withStyle 0x0104 "mpcie-iiro-4" .pcie2,
    withStyle 0x0105 "mpcie-ido-8" .pcie2,
    withStyle 0x0106 "mpcie-ro-8" .pcie2,
    withStyle 0x0107 "mpcie-ii-16" .pcie2,
    withStyle 0x0108 "mpcie-ii-8" .pcie2,
    withStyle 0x0109 "mpcie-ii-4" .pcie2,
    withStyle 0x010a "mpcie-quad-4" .pcie2,
    withStyle 0x010b "mpcie-quad-8" .pcie2,
    withoutIrq 0x010c "mod-tbd",
    withoutIrq 0x010d "mod-tbd",
    withoutIrq 0x010e "mod-tbd",
    withoutIrq 0x010f "mod-tbd",
    withoutIrq 0x0508 "pci-ido-16a",
    withoutIrq 0x0518 "pci-ido-32a",
    withoutIrq 0x0520 "pci-ido-48",
    withoutIrq 0x0521 "pci-ido-48a",
    withStyle 0x0703 "pcie-ro-4" .pcie3,
    withoutIrq 0x07c0 "pcie-ido-12",
    withStyle 0x07d0 "pcie-ido-24" .pcie6,
    withStyle 0x0920 "pci-idi-48" .pci5,
    withoutIrq 0x0bc0 "pcie-idi-12a",
    withoutIrq 0x0bc1 "pcie-idi-12b",
    withStyle 0x0bd0 "pcie-idi-24" .pcie6,
    withoutIrq 0x0bd1 "pcie-idi-24b",
    withStyle 0x0c40 "pcie-dio-144" .pcie1,
    withStyle 0x0c50 "pci-dio-24h" .pci10,
    withStyle 0x0c51 "pci-dio-24d" .pci10,
    withStyle 0x0c52 "pcie-dio-24" .pcie7,
    withStyle 0x0c53 "pcie-dio-24d/h" .pcie7,
    withStyle 0x0c54 "pcie-dio-24hc" .pcie4,
    withStyle 0x0c57 "mpcie-dio-24" .pcie4,
    withStyle 0x0c60 "pci-dio-48(h)" .pci8,
    withStyle 0x0c61 "pcie-dio-48" .pcie4,
    withoutIrq 0x0c62 "p104-dio-48",
    withStyle 0x0c68 "pci-dio-72" .pci2,
    withoutIrq 0x0c69 "p104-dio-96",
    withStyle 0x0c6a "pcie-dio-72" .pcie1,
    withStyle 0x0c70 "pci-dio-96" .pci2,
    withStyle 0x0c71 "pcie-dio-96" .pcie1,
    withStyle 0x0c78 "pci-dio-120" .pci2,
    withStyle 0x0c79 "pcie-dio-120" .pcie1,
    withStyle 0x0dc8 "pci-idio-16" .pci3,
    withStyle 0x0e50 "pci-dio-24s" .pci8,
    withStyle 0x0e51 "pci-dio-24h(c)" .pci10,
    withStyle 0x0e52 "pci-dio-24d(c)" .pci10,
    withStyle 0x0e53 "pcie-dio-24s" .pcie4,
    withStyle 0x0e54 "pcie-dio-24ds-hs" .pcie4,
    withStyle 0x0e55 "pcie-dio-24dc" .pcie7,
    withStyle 0x0e56 "pcie-dio-24dcs" .pcie4,
    withStyle 0x0e57 "pci-dio-48hs" .pcie4,
    withStyle 0x0e60 "pci-dio-48s" .pci8,
    withStyle 0x0e61 "pcie-dio-48s" .pcie4,
    withoutIrq 0x0e62 "p104-dio-48s",
    withoutIrq 0x0e63 "pcie-ez-blend",
    withStyle 0x0e6a "pcie-dio-72s" .pcie1,
    withStyle 0x0e71 "pcie-dio-96s" .pcie1,
    withStyle 0x0e79 "pcie-dio-120s" .pcie1,
    withStyle 0x0f00 "pci-iiro-8" .pci3,
    withStyle 0x0f01 "lpci-iiro-8" .pci3,
    withStyle 0x0f02 "pcie-iiro-8" .pcie3,
    withStyle 0x0f08 "pci-iiro-16" .pci3,
    withStyle 0x0f09 "pcie-iiro-16" .pcie3,
    withStyle 0x0fc0 "pcie-idio-12" .pcie6,
    withStyle 0x0fc1 "pcie-idi-12" .pcie6,
    withStyle 0x0fc2 "pcie-ido-12" .pcie6,
    withStyle 0x0fd0 "pcie-idio-24" .pcie6,
    withoutIrq 0x0fd1 "pcie-idio-24b",
    withStyle 0x2230 "pci-quad-8" .pci13,
    withStyle 0x2231 "pci-quad-4" .pci13,
    withStyle 0x22c0 "pci-wdg-csm" .pci7,
    withStyle 0x25c0 "p104-wdg-e" .pci6,
    withStyle 0x2c50 "pci-dio-96ct" .pci2,
    withStyle 0x2c58 "pci-dio-96c3" .pci2,
    withStyle 0x2c59 "pcie-dio-96c3" .pcie1,
    withoutIrq 0x2c70 "pci-dio-96ct",
    withStyle 0x2e50 "mpcie-dio-24a" .pcie4,
    withStyle 0x2ee0 "pcie-dio24s-ctr12" .pcie5,
    withStyle 0x2fc0 "p104-wdg-csm" .pci6,
    withStyle 0x2fc1 "p104-wdg-csma" .pci6,
    withStyle 0x4890 "pcie-da12-2" .pcie8,
    withStyle 0x4898 "pcie-da12-4" .pcie8,
    withStyle 0x48a0 "pcie-da12-6" .pcie8,
    withStyle 0x48a8 "pcie-da12-8" .pcie8,
    withStyle 0x48b0 "pcie-da12-16" .pcie8,
    withStyle 0x48d0 "pcie-da16-2" .pcie8,
    withStyle 0x48d8 "pcie-da16-4" .pcie8,
    withStyle 0x48e0 "pcie-da16-6" .pcie8,
    withStyle 0x48e8 "pcie-da16-8" .pcie8,
    withStyle 0x48f0 "pcie-da16-16" .pcie8,
    withoutIrq 0x5ed0 "pci-dac",
    withStyle 0x6c90 "pci-da12-2" .pci4,
    withStyle 0x6c98 "pci-da12-4" .pci4,
    withStyle 0x6ca0 "pci-da12-6" .pci4,
    withStyle 0x6ca8 "pci-da12-8" .pci4,
    withStyle 0x6ca9 "pci-da12-8v" .pci4,
    withStyle 0x6cb0 "pci-da12-16" .pci4,
    withStyle 0x6cb1 "pci-da12-16v" .pci4,
    withStyle 0xaca8 "pci-ai12-16" .pci12,
    withStyle 0xaca9 "pci-ai12-16a" .pci12,
    withStyle 0xeca8 "pci-aio12-16" .pci12,
    withStyle 0xeca9 "pci-a12-16" .pci12,
    withStyle 0xecaa "pci-a12-16a" .pci12,
    withStyle 0xece8 "lpci-a16-16a" .pci9,
    withStyle 0xece9 "lpci-aio16a" .pci1,
    { withStyle 0xc2ef "pcie-adio16-16fds" .adio16f with hasDma := true },
    { withStyle 0xc2ec "pcie-adio16-16f" .adio16f with hasDma := true },
    { withStyle 0xc2ed "pcie-adio16-16a" .adio16f with hasDma := true },
    { withStyle 0xc2ee "pcie-adio16-16e" .adio16f with hasDma := true },
    { withStyle 0x82ec "pcie-adi16-16f" .adio16f with hasDma := true },
    { withStyle 0x82ed "pcie-adi16-16a" .adio16f with hasDma := true },
    { withStyle 0x82ee "pcie-adi16-16e" .adio16f with hasDma := true },
    { withStyle 0xc25c "pcie-adio12-16a" .adio16f with hasDma := true },
    { withStyle 0xc25d "pcie-adio12-16" .adio16f with hasDma := true },
    { withStyle 0xc25e "pcie-adio12-16e" .adio16f with hasDma := true },
    { withStyle 0x825c "pcie-adi12-16a" .adio16f with hasDma := true },
    { withStyle 0x825d "pcie-adi12-16f" .adio16f with hasDma := true },
    { withStyle 0x825e "pcie-adi12-16f" .adio16f with hasDma := true } ]

/-- The device ids of `acces_pci_id_table`, with its sentinel. -/
def accesPciIdTable : List Nat :=
  [ 0x0100, 0x0101, 0x0102, 0x0103, 0x0104, 0x0105, 0x0106, 0x0107, 0x0108, 0x0109, 0x010a,
    0x010b, 0x010c, 0x010d, 0x010e, 0x010f, 0x0508, 0x0518, 0x0520, 0x0521, 0x0703, 0x07c0,
    0x07d0, 0x0920, 0x0bc0, 0x0bc1, 0x0bd0, 0x0bd1, 0x0c40, 0x0c50, 0x0c51, 0x0c52, 0x0c53,
    0x0c54, 0x0c57, 0x0c60, 0x0c61, 0x0c62, 0x0c68, 0x0c69, 0x0c6a, 0x0c70, 0x0c71, 0x0c78,
    0x0c79, 0x0dc8, 0x0e50, 0x0e51, 0x0e52, 0x0e53, 0x0e54, 0x0e55, 0x0e56, 0x0e57, 0x0e60,
    0x0e61, 0x0e62, 0x0e63, 0x0e6a, 0x0e71, 0x0e79, 0x0f00, 0x0f01, 0x0f02, 0x0f08, 0x0f09,
    0x0fc0, 0x0fc1, 0x0fc2, 0x0fd0, 0x0fd1, 0x2230, 0x2231, 0x22c0, 0x25c0, 0x2c50, 0x2c58,
    0x2c59, 0x2c70, 0x2e50, 0x2ee0, 0x2fc0, 0x2fc1, 0x4890, 0x4898, 0x48a0, 0x48a8, 0x48b0,
    0x48d0, 0x48d8, 0x48e0, 0x48e8, 0x48f0, 0x5ed0, 0x6c90, 0x6c98, 0x6ca0, 0x6ca8, 0x6ca9,
    0x6cb0, 0x6cb1, 0xaca8, 0xaca9, 0xeca8, 0xeca9, 0xecaa, 0xece8, 0xece9, 0xc2ef, 0xc2ec,
    0xc2ed, 0xc2ee, 0x82ec, 0x82ed, 0x82ee, 0xc25c, 0xc25d, 0xc25e, 0x825c, 0x825d, 0x825e, 0 ]

/-! ## Operations on a card -/

/-- The operations that a descriptor has functions for. -/
inductive Op where
  | enable
  | disable
  | interrupt
deriving DecidableEq, Repr

/-- The function of a style for an operation; only an isr returns something. -/
def operation (style : Style) : Op → Prog isr (Option IrqReturn)
  | .enable => do
      style.enable.inl
      return none
  | .disable => do
      style.disable.inl
      return none
  | .interrupt => do
      let ret ← style.interrupt
      return some ret

def DeviceDescriptor.function (d : DeviceDescriptor) : Op → Option Style
  | .enable => d.enable
  | .disable => d.disable
  | .interrupt => d.isr

/-- What an operation on a card of the row does.  A function pointer that is NULL is
not called. -/
def DeviceDescriptor.call (d : DeviceDescriptor) (op : Op) :
    Prog InterruptStyles.isr (Option IrqReturn) :=
  match d.function op with
  | some style => operation style op
  | none => pure none

end Aiowdm.Driver.DeviceTable
