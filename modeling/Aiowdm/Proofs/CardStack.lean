import Aiowdm.Lib.CString
import Aiowdm.Proofs.ByteMemories
import Aiowdm.Proofs.CardDiscovery
import Aiowdm.Proofs.DefaultBar
import Aiowdm.Proofs.NodeNames
import Aiowdm.Proofs.QueryOutputs

/-!
# From probe to the registers

The driver probes the cards and makes their nodes, the library opens the nodes it finds
and queries them, and the register calls go through these files.  All of it together is
an array of byte memories with a row for each card that was bound.
-/

namespace Aiowdm.Proofs.CardStack

open Aiowdm.Lib Aiowdm.Driver.Bus Aiowdm.Driver.DeviceContext Aiowdm.Driver.DeviceTable
open Aiowdm.Driver.DeviceNodes Aiowdm.Driver.Kernel Aiowdm.Driver.ModuleRuns Aiowdm.Driver.Probe
open Aiowdm.Driver.DescriptorGet (CardDescriptor describe ioctlAccesioPciCardDescriptorGet)
open Aiowdm.Library.Cards Aiowdm.Library.OnDriver
open Aiowdm.Proofs.ByteMemories Aiowdm.Proofs.CardDiscovery Aiowdm.Proofs.CardNumbers
open Aiowdm.Proofs.CardScan Aiowdm.Proofs.EntryAttempts Aiowdm.Proofs.MinorNumbers
open Aiowdm.Proofs.NodeNames Aiowdm.Proofs.ProbeEffect Aiowdm.Proofs.ProbeStatus
open Aiowdm.Proofs.QueryOutputs (Distinct Stored queryCardInfo_agrees)
open Aiowdm.Proofs.Teardown

/-! ## The files of the nodes -/

def nodePath (node : Node) : String := "/dev/" ++ node.name

def buffer : CardDescriptor := ⟨0, 0, 0, 0, "", fun _ => 0⟩

/-- A kernel with these nodes: they open, and nothing else does.  Its state is the paths
opened so far; the first one is file 3. -/
def nodeDir (nodes : List Node) : Handler sys (List String)
  | .openNode fname, opened =>
      if fname ∈ nodes.map nodePath then ((3 + opened.length : Int), opened ++ [fname])
      else ((-1 : Int), opened)
  | .malloc, opened => (true, opened)
  | .cardDescriptorGet _ _, opened => ((0, buffer), opened)

/-- `entries` is a listing, in any order, of the directory the nodes are in. -/
structure NodeListing (nodes : List Node) (entries : List String) : Prop where
  nodup : entries.Nodup
  mem : ∀ e, e ∈ entries ↔ e = "." ∨ e = ".." ∨
    ∃ node ∈ nodes, ∃ name, node.name = "accesio_pci/" ++ name ∧ e = topComponent name

def nodeEntries (nodes : List Node) (entries : List String) : List String :=
  entries.filter fun e => hasPci e && decide (devPath e ∈ nodes.map nodePath)

def openedNodes (nodes : List Node) (entries : List String) : List String :=
  (nodeEntries nodes entries).map devPath

/-- The file of a node leads to the context with the cdev of the node's number. -/
def FilesLead (host : Host) (s : Cards) (opened : List String) : Prop :=
  ∀ fd, ∀ node ∈ s.nodes.nodes, pathOf opened fd = some (nodePath node) →
    ∀ context c, Opens s.world node.number context → s.world.contexts context = some c →
      host.contexts fd = c

/-! ## The contexts of the bound cards -/

/-- The default BAR that probe leaves in the context of a card. -/
def chosenBar (card : PciResources) (d : DeviceDescriptor) : Fin PCI_STD_NUM_BARS :=
  if d.pid ∈ defaultBarOverrides then 2 else if ∃ bar, (card.bars bar).isIo then 1 else 0

/-- `b` is the context probe made of the card. -/
structure OwnContext (pci : PciDev → PciResources) (w : World) (a : Attached)
    (d : DeviceDescriptor) (b : Binding) : Prop where
  row : lookupDescriptor accesioPciDeviceDescriptors a.device = some d
  boundTo : BoundTo w a.dev b
  descriptor : b.contents.descriptor = some d
  defaultBar : b.contents.defaultBar = chosenBar (pci a.dev) d
  barBases : b.contents.barBases = mappedBase (pci a.dev) a.outcomes

def ownNode (d : DeviceDescriptor) (b : Binding) : Node := ⟨nodeName d, b.contents.dev, b.context⟩

/-- Every card bound so far has its context, and every node is that of such a card. -/
structure Built (pci : PciDev → PciResources) (done : List Attached) (s : Cards) : Prop where
  own : ∀ a ∈ done, GetsBound a → ∃ d b, OwnContext pci s.world a d b
  nodes : ∀ node ∈ s.nodes.nodes, ∃ a ∈ done, GetsBound a ∧
    ∃ d b, OwnContext pci s.world a d b ∧ node = ownNode d b
  names : (s.nodes.nodes.map (·.name)).Nodup

variable {pci : PciDev → PciResources} {done : List Attached} {s : Cards} {a : Attached}
variable {d : DeviceDescriptor} {b : Binding} {w w' : World}

theorem OwnContext.boundWorld (h : OwnContext pci w a d b) {dev : PciDev} (hne : a.dev ≠ dev)
    (card : PciResources) (o : Outcomes) (d' : DeviceDescriptor) :
    OwnContext pci (boundWorld card o dev d' w) a d b :=
  ⟨h.row, h.boundTo.boundWorld hne card o d', h.descriptor, h.defaultBar, h.barBases⟩

theorem OwnContext.untouched (h : OwnContext pci w a d b) {dev : PciDev}
    (hw : Untouched dev w w') (hne : a.dev ≠ dev) : OwnContext pci w' a d b :=
  ⟨h.row, boundTo_untouched h.boundTo hw hne, h.descriptor, h.defaultBar, h.barBases⟩

private theorem ownContext_boundCards
    (hd : lookupDescriptor accesioPciDeviceDescriptors a.device = some d) :
    OwnContext pci (boundCards pci s a d).world a d ⟨s.world.nextPtr,
      boundContext (pci a.dev) (named s.nodes a.outcomes d) a.dev d s.world⟩ where
  row := hd
  boundTo := boundTo_boundState (pci a.dev) (named s.nodes a.outcomes d) a.dev d (cardsState s)
  descriptor := rfl
  defaultBar := rfl
  barBases := rfl

private theorem built_unprobed (m : Machine) (o : Outcomes) : Built pci [] (unprobed m o) where
  own _ ha := absurd ha List.not_mem_nil
  nodes _ hnode := absurd hnode List.not_mem_nil
  names := List.nodup_nil

theorem Built.refused (h : Built pci done s) (hfresh : a.dev ∉ done.map (·.dev))
    (hnot : ¬GetsBound a) (hw : Untouched a.dev s.world w) :
    Built pci (done ++ [a]) ⟨w, s.nodes, s.bound⟩ := by
  have hne : ∀ a' ∈ done, a'.dev ≠ a.dev := by
    intro a' ha' heq
    exact hfresh (List.mem_map.mpr ⟨a', ha', heq⟩)
  refine ⟨?_, ?_, h.names⟩
  · intro a' ha' hbinds
    rcases List.mem_append.mp ha' with hold | hlast
    · obtain ⟨d, b, hb⟩ := h.own a' hold hbinds
      exact ⟨d, b, hb.untouched hw (hne a' hold)⟩
    · rw [List.mem_singleton.mp hlast] at hbinds
      exact absurd hbinds hnot
  · intro node hnode
    obtain ⟨a', ha', hbinds, d, b, hb, hown⟩ := h.nodes node hnode
    exact ⟨a', List.mem_append_left _ ha', hbinds, d, b, hb.untouched hw (hne a' ha'), hown⟩

theorem Built.bind (h : Built pci done s) (hfresh : a.dev ∉ done.map (·.dev))
    (hbinds : GetsBound a)
    (hd : lookupDescriptor accesioPciDeviceDescriptors a.device = some d) :
    Built pci (done ++ [a]) (boundCards pci s a d) := by
  have hlast : a ∈ done ++ [a] := List.mem_append_right _ List.mem_cons_self
  have hnew : OwnContext pci (boundCards pci s a d).world a d _ := ownContext_boundCards hd
  have hkeep : ∀ a' ∈ done, ∀ {d' b'}, OwnContext pci s.world a' d' b' →
      OwnContext pci (boundCards pci s a d).world a' d' b' := by
    intro a' ha' d' b' hb
    have hne : a'.dev ≠ a.dev := fun heq => hfresh (List.mem_map.mpr ⟨a', ha', heq⟩)
    exact hb.boundWorld hne (pci a.dev) (named s.nodes a.outcomes d) d
  have hold : ∀ node ∈ s.nodes.nodes, ∃ a' ∈ done ++ [a], GetsBound a' ∧
      ∃ d' b', OwnContext pci (boundCards pci s a d).world a' d' b' ∧ node = ownNode d' b' := by
    intro node hnode
    obtain ⟨a', ha', hbinds', d', b', hb, hown⟩ := h.nodes node hnode
    exact ⟨a', List.mem_append_left _ ha', hbinds', d', b', hkeep a' ha' hb, hown⟩
  refine ⟨?_, ?_, ?_⟩
  · intro a' ha' hbinds'
    rcases List.mem_append.mp ha' with hmem | heq
    · obtain ⟨d', b', hb⟩ := h.own a' hmem hbinds'
      exact ⟨d', b', hkeep a' hmem hb⟩
    · rw [List.mem_singleton.mp heq]
      exact ⟨d, _, hnew⟩
  · intro node hnode
    change node ∈ (s.nodes.create (nodeOf d s.world.nextPtr s.world)).nodes at hnode
    unfold Nodes.create at hnode
    split at hnode
    · exact hold node hnode
    · rcases List.mem_cons.mp hnode with rfl | hmem
      · exact ⟨a, hlast, hbinds, d, _, hnew, rfl⟩
      · exact hold node hmem
  · change ((s.nodes.create (nodeOf d s.world.nextPtr s.world)).nodes.map (·.name)).Nodup
    unfold Nodes.create
    split
    · exact h.names
    · next hfree => exact List.nodup_cons.mpr ⟨hfree, h.names⟩

private theorem built_probeCard (h : Built pci done s) (hfresh : a.dev ∉ done.map (·.dev)) :
    Built pci (done ++ [a]) (probeCard (accesio pci) s a) := by
  rcases probeCard_cases pci s a with ⟨hbinds, d, hd, heq⟩ | ⟨hnot, w, hw, heq⟩
  · rw [heq]
    exact h.bind hfresh hbinds hd
  · rw [heq]
    exact h.refused hfresh hnot hw

private theorem built_probeAll (cards : List Attached) (h : Built pci done s)
    (hdevs : ((done ++ cards).map (·.dev)).Nodup) :
    Built pci (done ++ cards) (probeAll (accesio pci) s cards) := by
  induction cards generalizing done s with
  | nil =>
      rw [List.append_nil]
      exact h
  | cons a cards ih =>
      have hsplit : done ++ a :: cards = done ++ [a] ++ cards := by simp
      rw [hsplit] at hdevs ⊢
      have hfresh : a.dev ∉ done.map (·.dev) := by
        rw [List.map_append, List.map_append] at hdevs
        have hfront := (List.nodup_append'.mp hdevs).1
        exact fun hmem => (List.nodup_append'.mp hfront).2.2 hmem List.mem_cons_self
      exact ih (built_probeCard h hfresh) hdevs

/-! ## The machine once the cards are probed -/

def probed (pci : PciDev → PciResources) (o : Outcomes) (cards : List Attached) : Cards :=
  probeAll (accesio pci) (unprobed (accesio pci) o) cards

section Probed

variable {o : Outcomes} {cards : List Attached}

theorem built_probed (hdevs : (cards.map (·.dev)).Nodup) :
    Built pci cards (probed pci o cards) :=
  built_probeAll cards (built_unprobed _ o) hdevs

theorem ownNode_mem (hown : OwnNodes (probed pci o cards))
    (hbound : a.dev ∈ (probed pci o cards).bound)
    (hb : OwnContext pci (probed pci o cards).world a d b) :
    ownNode d b ∈ (probed pci o cards).nodes.nodes ∧
      Opens (probed pci o cards).world b.contents.dev b.context := by
  obtain ⟨b', d', hb', hd', hmem, hopens⟩ := hown.opened a.dev hbound
  obtain rfl : b = b' := boundTo_unique hb.boundTo hb'
  obtain rfl : d = d' := Option.some.inj (hb.descriptor.symm.trans hd')
  exact ⟨hmem, hopens⟩

end Probed

/-! ## The scan of the nodes -/

def fileDescriptor (host : Host) (fd : Int) : CardDescriptor :=
  ((ioctlAccesioPciCardDescriptorGet host.pci host.starts (host.contexts fd)).exec
    (Host.descriptorBuffer true) buffer).2

def Answers (host : Host) (fd : Int) : Prop :=
  ((ioctlAccesioPciCardDescriptorGet host.pci host.starts (host.contexts fd)).exec
    (Host.descriptorBuffer true) buffer).1 = .returned 0

def fileCards (host : Host) (start n : Nat) : List Card :=
  (List.range' start n).map fun i => ⟨3 + Int.ofNat i, some (fileDescriptor host (3 + Int.ofNat i))⟩

section Scan

variable {host : Host} {nodes : List Node} {entries : List String}

private theorem cardDescriptorGet_of_answers {fd : Int} (h : Answers host fd)
    (opened : List String) :
    host.descriptorFiles (nodeDir nodes) (.cardDescriptorGet fd true) opened =
      ((0, fileDescriptor host fd), opened) := by
  unfold Answers at h
  simp only [Host.descriptorFiles, nodeDir, h]
  rfl

private theorem openNode_of_mem {fname : String} (h : fname ∈ nodes.map nodePath)
    (opened : List String) :
    host.descriptorFiles (nodeDir nodes) (.openNode fname) opened =
      ((3 + opened.length : Int), opened ++ [fname]) :=
  if_pos h

private theorem openNode_of_notMem {fname : String} (h : fname ∉ nodes.map nodePath)
    (opened : List String) :
    host.descriptorFiles (nodeDir nodes) (.openNode fname) opened = ((-1 : Int), opened) :=
  if_neg h

private theorem exec_attempts_nodeDir (opened entries : List String)
    (hanswers : ∀ i, opened.length ≤ i →
      i < opened.length + (nodeEntries nodes entries).length → Answers host (3 + Int.ofNat i)) :
    ((attempts entries).exec (host.descriptorFiles (nodeDir nodes)) opened).2 =
        opened ++ openedNodes nodes entries ∧
      ((attempts entries).exec (host.descriptorFiles (nodeDir nodes)) opened).1.filterMap slot =
        fileCards host opened.length (nodeEntries nodes entries).length := by
  induction entries generalizing opened with
  | nil => simp [attempts, openedNodes, nodeEntries, fileCards]
  | cons e entries ih =>
      cases hpci : hasPci e with
      | false =>
          have hof : nodeEntries nodes (e :: entries) = nodeEntries nodes entries := by
            simp [nodeEntries, hpci]
          rw [openedNodes, attempts_skipped entries hpci, hof]
          rw [hof] at hanswers
          exact ih opened hanswers
      | true =>
          rw [exec_attempts_cons _ opened entries hpci]
          by_cases hnode : devPath e ∈ nodes.map nodePath
          · have hof : nodeEntries nodes (e :: entries) = e :: nodeEntries nodes entries := by
              unfold nodeEntries
              rw [List.filter_cons_of_pos]
              simp only [hpci, hnode, decide_true, Bool.and_self]
            rw [hof, List.length_cons] at hanswers
            have hpos : ¬(3 + opened.length : Int) < 0 := by omega
            have hanswer : Answers host (3 + Int.ofNat opened.length) :=
              hanswers _ le_rfl (by omega)
            have hfirst := exec_attempt_opened (openNode_of_mem hnode opened) hpos rfl
              (cardDescriptorGet_of_answers hanswer _)
            obtain ⟨hpaths, hslots⟩ := ih (opened ++ [devPath e]) (by
              intro i hle hlt
              rw [List.length_append, List.length_singleton] at hle hlt
              exact hanswers i (by omega) (by omega))
            rw [hfirst, openedNodes, hof]
            refine ⟨?_, ?_⟩
            · rw [hpaths, List.map_cons, ← List.append_cons, openedNodes]
            · rw [List.length_append, List.length_singleton] at hslots
              rw [List.length_cons, fileCards, List.range'_succ, List.map_cons]
              exact congrArg (_ :: ·) hslots
          · have hof : nodeEntries nodes (e :: entries) = nodeEntries nodes entries := by
              unfold nodeEntries
              rw [List.filter_cons_of_neg]
              simp only [hpci, hnode, decide_false, Bool.and_false, Bool.false_eq_true,
                not_false_eq_true]
            rw [exec_attempt_notOpened (openNode_of_notMem hnode opened) (by decide),
              openedNodes, hof]
            rw [hof] at hanswers
            exact ih opened hanswers

structure InSlots (host : Host) (lib : Statics) (n : Nat) : Prop where
  count : lib.numCards.toNat = n
  slot : ∀ i < n, lib.cards i = ⟨3 + Int.ofNat i, some (fileDescriptor host (3 + Int.ofNat i))⟩

private theorem inSlots_of_counted {lib : Statics} {n : Nat}
    (h : counted lib = fileCards host 0 n) :
    InSlots host lib n := by
  have hcount : lib.numCards.toNat = n := by
    simpa [counted, fileCards] using congrArg List.length h
  refine ⟨hcount, fun i hi => ?_⟩
  have hget := congrArg (·[i]?) h
  simpa [counted, fileCards, hcount, hi] using hget

private theorem exec_aiowdmInit_nodeDir (hmax : candidates entries ≤ 32)
    (hanswers : ∀ i < (nodeEntries nodes entries).length, Answers host (3 + Int.ofNat i))
    (memory : Nat → Card) :
    ∃ lib, (aiowdmInit (some entries) (.zeroed memory)).exec
        (host.descriptorFiles (nodeDir nodes)) [] = (.returned lib, openedNodes nodes entries) ∧
      InSlots host lib (nodeEntries nodes entries).length := by
  have hfits := fits_of_candidates (host.descriptorFiles (nodeDir nodes)) [] hmax
  have hall : ∀ i, 0 ≤ i → i < 0 + (nodeEntries nodes entries).length →
      Answers host (3 + Int.ofNat i) := by
    intro i _ hlt
    exact hanswers i (by omega)
  obtain ⟨hpaths, hslots⟩ := exec_attempts_nodeDir [] entries hall
  refine ⟨_, (exec_aiowdmInit_of_fits _ [] memory hfits).trans (by rw [hpaths]; rfl), ?_⟩
  apply inSlots_of_counted
  rw [counted_scanned memory hfits]
  exact hslots

/-! ## The listing -/

theorem nodePath_ownNode (d : DeviceDescriptor) (b : Binding) :
    nodePath (ownNode d b) = devPath d.name := by
  have hprefix : "/dev/" ++ "accesio_pci/" = "/dev/accesio_pci/" := by decide
  unfold nodePath ownNode nodeName devPath
  rw [← String.append_assoc, hprefix]

theorem mem_nodeEntries {e : String} :
    e ∈ nodeEntries nodes entries ↔
      e ∈ entries ∧ hasPci e ∧ ∃ node ∈ nodes, nodePath node = devPath e := by
  unfold nodeEntries
  rw [List.mem_filter, Bool.and_eq_true, decide_eq_true_iff, List.mem_map]

theorem name_of_append {fname name : String} (h : fname = "accesio_pci/" ++ name) :
    String.ofList (fname.toList.drop 12) = name := by
  have hdrop : fname.toList.drop 12 = name.toList := by
    rw [h, String.toList_append]
    rfl
  rw [hdrop, String.ofList_toList]

theorem candidates_le (hlist : NodeListing nodes entries) : candidates entries ≤ nodes.length := by
  have hsub : entries.filter hasPci ⊆
      nodes.map fun node => topComponent (String.ofList (node.name.toList.drop 12)) := by
    intro e he
    obtain ⟨hmem, hpci⟩ := List.mem_filter.mp he
    rcases (hlist.mem e).mp hmem with rfl | rfl | ⟨node, hnode, name, hname, rfl⟩
    · exact absurd hpci (by decide)
    · exact absurd hpci (by decide)
    · exact List.mem_map.mpr ⟨node, hnode, congrArg topComponent (name_of_append hname)⟩
  have hle := ((hlist.nodup.filter _).subperm hsub).length_le
  simpa [candidates] using hle

end Scan

/-! ## The files of the cards -/

/-- The default BAR of a bound card is mapped, where the kernel's mapping says it is, and
its offsets fit in the `int` of a request. -/
structure BarMapped (host : Host) (bar : PciDev → Fin PCI_STD_NUM_BARS) (a : Attached)
    (d : DeviceDescriptor) : Prop where
  chosen : bar a.dev = chosenBar (host.pci a.dev) d
  mapped : ∃ p, mappedBase (host.pci a.dev) a.outcomes (bar a.dev) = some p ∧
    ∀ x < barLen host bar a.dev,
      host.ioremap (p + x) = some (a.dev, barStart host bar a.dev + x)
  len_le : barLen host bar a.dev ≤ 2 ^ 31

def slotDev (host : Host) (lib : Statics) (i : Nat) : PciDev :=
  ((host.contexts (lib.cards i).fd).pciDev).getD 0

def probedInfo (host : Host) (bar : PciDev → Fin PCI_STD_NUM_BARS) (a : Attached)
    (d : DeviceDescriptor) : CardInfo :=
  ⟨some (BitVec.ofNat 64 a.device), some (host.starts a.dev (bar a.dev)),
    some (BitVec.ofNat 64 d.name.utf8ByteSize), some d.name⟩

/-- What `QueryCardInfo` tells of slot `i`, when asked for everything, is what the card was
probed as, and pointers to objects apart from one another get that. -/
def Tells (host : Host) (bar : PciDev → Fin PCI_STD_NUM_BARS) (lib : Statics) (i : Nat)
    (a : Attached) : Prop :=
  ∃ d, lookupDescriptor accesioPciDeviceDescriptors a.device = some d ∧
    queryCardInfo lib (BitVec.ofNat 32 i) true true (some 0) true =
      .returned (0, probedInfo host bar a d) ∧
    ∀ (pDeviceID pBase pNameSize pName : Nat) (m : Bytes),
      let ptrs : Library.CardInfo.Pointers :=
        ⟨some pDeviceID, some pBase, some pNameSize, some pName⟩
      Library.CardInfo.longAt m pNameSize = 0 → Distinct ptrs d.name.utf8ByteSize →
        let done := (Library.CardInfo.queryCardInfo lib (BitVec.ofNat 32 i) ptrs).exec
          Library.CardInfo.memory m
        done.1 = .returned 0 ∧ Stored ptrs (probedInfo host bar a d) done.2

theorem rows_fit : ∀ d ∈ accesioPciDeviceDescriptors,
    d.pid < 2 ^ 16 ∧ d.name.utf8ByteSize < 64 := by
  decide +kernel

section Files

variable {host : Host} {o : Outcomes} {cards : List Attached} {entries : List String}
variable {bar : PciDev → Fin PCI_STD_NUM_BARS} {lib : Statics}

/-- The entry that was opened as number `i` is the node of a bound card, and its file has
the context of this card. -/
theorem file_of_lt (hdevs : (cards.map (·.dev)).Nodup)
    (hown : OwnNodes (probed host.pci o cards))
    (hbound : ∀ a ∈ cards, GetsBound a → a.dev ∈ (probed host.pci o cards).bound)
    (hfiles : FilesLead host (probed host.pci o cards)
      (openedNodes (probed host.pci o cards).nodes.nodes entries))
    {i : Nat} (hi : i < (nodeEntries (probed host.pci o cards).nodes.nodes entries).length) :
    ∃ a ∈ cards, GetsBound a ∧ ∃ d b, OwnContext host.pci (probed host.pci o cards).world a d b ∧
      (nodeEntries (probed host.pci o cards).nodes.nodes entries)[i] = d.name ∧
      host.contexts (3 + Int.ofNat i) = b.contents := by
  obtain ⟨-, -, node, hnode, hpath⟩ := mem_nodeEntries.mp (List.getElem_mem hi)
  obtain ⟨a, ha, hbinds, d, b, hb, rfl⟩ := (built_probed hdevs).nodes node hnode
  obtain ⟨-, hopens⟩ := ownNode_mem hown (hbound a ha hbinds) hb
  rw [nodePath_ownNode] at hpath
  refine ⟨a, ha, hbinds, d, b, hb, (devPath_inj.mp hpath).symm, ?_⟩
  refine hfiles _ (ownNode d b) hnode ?_ b.context b.contents hopens hb.boundTo.2.1
  have hpos : ¬(3 + Int.ofNat i : Int) < 3 := by
    change ¬(3 + (i : Int)) < 3
    omega
  have hfile : ((3 : Int) + Int.ofNat i - 3).toNat = i := by
    change ((3 : Int) + (i : Int) - 3).toNat = i
    omega
  rw [pathOf, if_neg hpos, hfile, openedNodes, List.getElem?_map, List.getElem?_eq_getElem hi,
    Option.map_some, nodePath_ownNode, hpath]

variable {a : Attached} {d : DeviceDescriptor} {b : Binding} {w : World} {fd : Int}

theorem exec_ioctl_of_ownContext (hb : OwnContext host.pci w a d b)
    (hfile : host.contexts fd = b.contents) :
    Answers host fd ∧
      fileDescriptor host fd = describe host.pci host.starts b.contents d a.dev := by
  obtain ⟨-, hshort⟩ := rows_fit d (row_of_lookup hb.row).1
  have hexec : (ioctlAccesioPciCardDescriptorGet host.pci host.starts b.contents).exec
      (Host.descriptorBuffer true) buffer =
        (.returned 0, describe host.pci host.starts b.contents d a.dev) :=
    exec_ioctlCardDescriptorGet hb.descriptor hb.boundTo.2.2.1 (Nat.not_le.mpr hshort) true buffer
  unfold Answers fileDescriptor
  rw [hfile, hexec]
  exact ⟨rfl, rfl⟩

private theorem contextOf_of_ownContext (hb : OwnContext host.pci w a d b)
    (hbar : BarMapped host bar a d) : ContextOf host bar b.contents a.dev where
  pciDev := hb.boundTo.2.2.1
  defaultBar := hb.defaultBar.trans hbar.chosen.symm
  mapped := by
    rw [hb.barBases]
    exact hbar.mapped
  len_le := hbar.len_le

private theorem tells_of_ownContext {i : Nat} (hb : OwnContext host.pci w a d b)
    (hbar : BarMapped host bar a d) (hi : i < lib.numCards.toNat)
    (hslot : (lib.cards i).descriptor =
      some (describe host.pci host.starts b.contents d a.dev)) : Tells host bar lib i a := by
  obtain ⟨hmem, hpid⟩ := row_of_lookup hb.row
  obtain ⟨hid, hshort⟩ := rows_fit d hmem
  have hnum : (BitVec.ofNat 32 i).toNat = i := by
    rw [BitVec.toNat_ofNat]
    exact Nat.mod_eq_of_lt (hi.trans lib.numCards.isLt)
  have hcounted : ¬lib.numCards ≤ BitVec.ofNat 32 i := by
    rw [BitVec.not_le, BitVec.lt_def, hnum]
    exact hi
  have hdevice : (BitVec.ofNat 16 d.pid).setWidth 64 = BitVec.ofNat 64 a.device := by
    apply BitVec.eq_of_toNat_eq
    rw [← hpid]
    simp only [BitVec.toNat_setWidth, BitVec.toNat_ofNat]
    omega
  have hsize : (BitVec.ofNat 64 d.name.utf8ByteSize).toNat = d.name.utf8ByteSize := by
    rw [BitVec.toNat_ofNat]
    exact Nat.mod_eq_of_lt (by omega)
  have hname : String.ofList (d.name.toList.take d.name.utf8ByteSize) = d.name := by
    rw [List.take_of_length_le (length_toList_le d.name), String.ofList_toList]
  have htells : queryCardInfo lib (BitVec.ofNat 32 i) true true (some 0) true =
      .returned (0, probedInfo host bar a d) := by
    rw [queryCardInfo, if_neg hcounted, hnum, hslot]
    simp only [describe, reduceCtorEq, false_and, if_false, if_true, Option.map_some, hsize,
      hname, hdevice, hb.defaultBar, hbar.chosen, probedInfo]
  refine ⟨d, hb.row, htells, fun pDeviceID pBase pNameSize pName m hzero hdistinct => ?_⟩
  refine queryCardInfo_agrees m ?_ ?_
  · simpa only [Option.isSome_some, Option.map_some, hzero] using htells
  · rw [probedInfo, Option.getD_some, hsize]
    exact hdistinct

end Files

/-! ## The slots of the cards -/

structure SlotOf (host : Host) (s : Cards) (cards : List Attached) (names : List String)
    (lib : Statics) (i : Nat) (a : Attached) (d : DeviceDescriptor) (b : Binding) : Prop where
  mem : a ∈ cards
  binds : GetsBound a
  own : OwnContext host.pci s.world a d b
  name : names[i]? = some d.name
  context : host.contexts (lib.cards i).fd = b.contents
  descriptor : (lib.cards i).descriptor =
    some (describe host.pci host.starts b.contents d a.dev)

section Slots

variable {host : Host} {cards : List Attached} {names : List String} {lib : Statics}
variable {i j : Nat} {a' : Attached} {d' : DeviceDescriptor} {b' : Binding}

theorem SlotOf.slotDev_eq (h : SlotOf host s cards names lib i a d b) :
    slotDev host lib i = a.dev := by
  rw [slotDev, h.context, h.own.boundTo.2.2.1, Option.getD_some]

private theorem dev_eq_of_name (hnames : (s.nodes.nodes.map (·.name)).Nodup)
    (hb : OwnContext host.pci s.world a d b) (hb' : OwnContext host.pci s.world a' d' b')
    (hnode : ownNode d b ∈ s.nodes.nodes) (hnode' : ownNode d' b' ∈ s.nodes.nodes)
    (hname : d.name = d'.name) : a.dev = a'.dev := by
  have hsame : ownNode d b = ownNode d' b' :=
    List.inj_on_of_nodup_map hnames hnode hnode' (nodeName_inj.mpr hname)
  have hcontext : b.context = b'.context := congrArg Node.context hsame
  have hcontents : b.contents = b'.contents := by
    have hlive := hb.boundTo.2.1
    rw [hcontext, hb'.boundTo.2.1] at hlive
    exact (Option.some.inj hlive).symm
  have hpci := hb.boundTo.2.2.1
  rw [hcontents, hb'.boundTo.2.2.1] at hpci
  exact (Option.some.inj hpci).symm

theorem SlotOf.inj (h : SlotOf host s cards names lib i a d b)
    (h' : SlotOf host s cards names lib j a' d' b') (hdevs : (cards.map (·.dev)).Nodup)
    (hnodup : names.Nodup) (heq : a.dev = a'.dev) : i = j := by
  obtain rfl : a = a' := List.inj_on_of_nodup_map hdevs h.mem h'.mem heq
  obtain rfl : d = d' := Option.some.inj (h.own.row.symm.trans h'.own.row)
  obtain ⟨hi, hname⟩ := List.getElem?_eq_some_iff.mp h.name
  obtain ⟨hj, hname'⟩ := List.getElem?_eq_some_iff.mp h'.name
  exact (hnodup.getElem_inj_iff).mp (hname.trans hname'.symm)

private theorem slots_perm (hdevs : (cards.map (·.dev)).Nodup) (hnodup : names.Nodup)
    (hcount : lib.numCards.toNat = names.length) (hbound : s.bound.Nodup)
    (hmem : ∀ dev, dev ∈ s.bound ↔ ∃ a ∈ cards, a.dev = dev ∧ GetsBound a)
    (hslots : ∀ i < lib.numCards.toNat, ∃ a d b, SlotOf host s cards names lib i a d b)
    (hnames : ∀ a ∈ cards, GetsBound a → ∃ name ∈ names, ∀ i a' d' b',
      SlotOf host s cards names lib i a' d' b' → d'.name = name → a'.dev = a.dev) :
    ((List.range lib.numCards.toNat).map (slotDev host lib)).Perm s.bound := by
  have hinj : ∀ i < lib.numCards.toNat, ∀ j < lib.numCards.toNat,
      slotDev host lib i = slotDev host lib j → i = j := by
    intro i hi j hj heq
    obtain ⟨a, d, b, h⟩ := hslots i hi
    obtain ⟨a', d', b', h'⟩ := hslots j hj
    rw [h.slotDev_eq, h'.slotDev_eq] at heq
    exact h.inj h' hdevs hnodup heq
  have hdistinct : ((List.range lib.numCards.toNat).map (slotDev host lib)).Nodup := by
    refine List.nodup_range.map_on ?_
    intro i hi j hj heq
    exact hinj i (List.mem_range.mp hi) j (List.mem_range.mp hj) heq
  refine (List.perm_ext_iff_of_nodup hdistinct hbound).mpr fun dev => ?_
  rw [List.mem_map, hmem]
  constructor
  · rintro ⟨i, hi, rfl⟩
    obtain ⟨a, d, b, h⟩ := hslots i (List.mem_range.mp hi)
    exact ⟨a, h.mem, h.slotDev_eq.symm, h.binds⟩
  · rintro ⟨a, ha, rfl, hbinds⟩
    obtain ⟨name, hmem, hown⟩ := hnames a ha hbinds
    obtain ⟨i, hi, hname⟩ := List.getElem_of_mem hmem
    have hlt : i < lib.numCards.toNat := hcount ▸ hi
    obtain ⟨a', d', b', h⟩ := hslots i hlt
    have hsame : d'.name = name :=
      Option.some.inj ((h.name.symm.trans (List.getElem?_eq_getElem hi)).trans
        (congrArg some hname))
    exact ⟨i, List.mem_range.mpr hlt, h.slotDev_eq.trans (hown i a' d' b' h hsame)⟩

end Slots

/-! ## The whole of it -/

/-- For every list of cards of different models and every listing of their directory: the
library counts the bound cards, `QueryCardInfo` tells of each what it was probed as, and
every sequence of register calls on them returns what it returns on an array with a row
for each bound card. -/
theorem stack_refines_array {σ : Type} (host : Host) (o : Outcomes) (cards : List Attached)
    (hdevs : (cards.map (·.dev)).Nodup) (hnull : ∀ a ∈ cards, a.outcomes.requestIrq none ≠ 0)
    (hapart : ModelsApart cards)
    (hseen : ∀ a ∈ cards, GetsBound a → ∀ d,
      lookupDescriptor accesioPciDeviceDescriptors a.device = some d → Seen d)
    (hfew : (probed host.pci o cards).nodes.nodes.length ≤ 32) (entries : List String)
    (hlist : NodeListing (probed host.pci o cards).nodes.nodes entries)
    (hfiles : FilesLead host (probed host.pci o cards)
      (openedNodes (probed host.pci o cards).nodes.nodes entries))
    (bar : PciDev → Fin PCI_STD_NUM_BARS)
    (hbars : ∀ a ∈ cards, GetsBound a → ∀ d,
      lookupDescriptor accesioPciDeviceDescriptors a.device = some d → BarMapped host bar a d)
    (h : Handler io σ) (mem : σ → PciDev → Bytes) (hmem : ActsAsMemory host bar h mem)
    (memory : Nat → Card) :
    ∃ lib, (aiowdmInit (some entries) (.zeroed memory)).exec
        (host.descriptorFiles (nodeDir (probed host.pci o cards).nodes.nodes)) [] =
          (.returned lib, openedNodes (probed host.pci o cards).nodes.nodes entries) ∧
      ((List.range lib.numCards.toNat).map (slotDev host lib)).Perm
        (probed host.pci o cards).bound ∧
      (∀ i < lib.numCards.toNat, ∃ a ∈ cards, a.dev = slotDev host lib i ∧
        Tells host bar lib i a) ∧
      ∀ s calls, (∀ c ∈ calls, ValidCall host bar lib (slotDev host lib) c) →
        ∃ s' accesses, (runCalls lib calls).exec (host.registerFiles h.record) (s, []) =
            ((arrayCalls (fun i => mem s (slotDev host lib i)) calls).1, (s', accesses)) ∧
          Holds host bar lib (slotDev host lib) (mem s')
            (arrayCalls (fun i => mem s (slotDev host lib i)) calls).2 ∧
          calls.Forall₂ (OneAccess host lib (slotDev host lib)) accesses := by
  have hown : OwnNodes (probed host.pci o cards) :=
    (ownNodes_iff_modelsApart host.pci o cards hdevs hnull).mpr hapart
  obtain ⟨hkept, hserve⟩ :=
    kept_probeAll host.pci cards (kept_unprobed (accesio host.pci) o) hdevs hnull
  have hserved := hserve hapart (served_unprobed (accesio host.pci) o)
  have hbound : ∀ a ∈ cards, GetsBound a → a.dev ∈ (probed host.pci o cards).bound :=
    fun a ha hbinds => (hkept.bound a.dev).mpr ⟨a, ha, rfl, hbinds⟩
  let nodes := (probed host.pci o cards).nodes.nodes
  have hbuilt : Built host.pci cards (probed host.pci o cards) := built_probed hdevs
  have hfile : ∀ i (hi : i < (nodeEntries nodes entries).length), _ :=
    fun i hi => file_of_lt hdevs hown hbound hfiles hi
  have hanswers : ∀ i < (nodeEntries nodes entries).length, Answers host (3 + Int.ofNat i) := by
    intro i hi
    obtain ⟨a, -, -, d, b, hb, -, hcontext⟩ := hfile i hi
    exact (exec_ioctl_of_ownContext hb hcontext).1
  obtain ⟨lib, hinit, hcount, hcards⟩ :=
    exec_aiowdmInit_nodeDir ((candidates_le hlist).trans hfew) hanswers memory
  have hslots : ∀ i < lib.numCards.toNat, ∃ a d b,
      SlotOf host (probed host.pci o cards) cards (nodeEntries nodes entries) lib i a d b := by
    intro i hi
    rw [hcount] at hi
    obtain ⟨a, ha, hbinds, d, b, hb, hname, hcontext⟩ := hfile i hi
    refine ⟨a, d, b, ha, hbinds, hb, ?_, ?_, ?_⟩
    · rw [List.getElem?_eq_getElem hi, hname]
    · rw [hcards i hi]
      exact hcontext
    · rw [hcards i hi, (exec_ioctl_of_ownContext hb hcontext).2]
  have hnodup : (nodeEntries nodes entries).Nodup := hlist.nodup.filter _
  refine ⟨lib, hinit, ?_, ?_, ?_⟩
  · refine slots_perm hdevs hnodup hcount hserved.numbered.nodup hkept.bound hslots ?_
    intro a ha hbinds
    obtain ⟨d, b, hb⟩ := hbuilt.own a ha hbinds
    obtain ⟨hnode, -⟩ := ownNode_mem hown (hbound a ha hbinds) hb
    obtain ⟨hpci, hslash⟩ := hseen a ha hbinds d hb.row
    refine ⟨d.name, mem_nodeEntries.mpr ⟨?_, hpci, _, hnode, nodePath_ownNode d b⟩, ?_⟩
    · refine (hlist.mem _).mpr (.inr (.inr ⟨_, hnode, d.name, rfl, ?_⟩))
      exact (topComponent_of_notMem hslash).symm
    · intro i a' d' b' h' hname
      obtain ⟨hnode', -⟩ := ownNode_mem hown (hbound a' h'.mem h'.binds) h'.own
      exact dev_eq_of_name hbuilt.names h'.own hb hnode' hnode hname
  · intro i hi
    obtain ⟨a, d, b, h⟩ := hslots i hi
    have hbar := hbars a h.mem h.binds d h.own.row
    exact ⟨a, h.mem, h.slotDev_eq.symm, tells_of_ownContext h.own hbar hi h.descriptor⟩
  · intro s calls hvalid
    refine calls_refine_array host _ [] _ (some entries) memory lib hinit bar _ ?_ h mem hmem s
      calls hvalid
    refine ⟨fun i hi => ?_, fun i hi j hj heq => ?_⟩
    · obtain ⟨a, d, b, hslot⟩ := hslots i hi
      rw [hslot.slotDev_eq, hslot.context]
      exact contextOf_of_ownContext hslot.own (hbars a hslot.mem hslot.binds d hslot.own.row)
    · obtain ⟨a, d, b, hslot⟩ := hslots i hi
      obtain ⟨a', d', b', hslot'⟩ := hslots j hj
      rw [hslot.slotDev_eq, hslot'.slotDev_eq] at heq
      exact hslot.inj hslot' hdevs hnodup heq

/-! ## Two cards -/

/-- Where a node's file has the context that its card was given, the files lead where they
should: nobody else has the number. -/
theorem filesLead_of_contexts {host : Host} {o : Outcomes} {cards : List Attached}
    (hdevs : (cards.map (·.dev)).Nodup) (hown : OwnNodes (probed host.pci o cards))
    (hbound : ∀ a ∈ cards, GetsBound a → a.dev ∈ (probed host.pci o cards).bound)
    {opened : List String}
    (hcontexts : ∀ fd, ∀ node ∈ (probed host.pci o cards).nodes.nodes,
      pathOf opened fd = some (nodePath node) →
        (probed host.pci o cards).world.contexts node.context = some (host.contexts fd)) :
    FilesLead host (probed host.pci o cards) opened := by
  intro fd node hnode hpath context c hopens hlive
  have hcontext := hcontexts fd node hnode hpath
  obtain ⟨a, ha, hbinds, d, b, hb, rfl⟩ := (built_probed hdevs).nodes node hnode
  obtain ⟨-, hopens'⟩ := ownNode_mem hown (hbound a ha hbinds) hb
  have hsame : context = b.context := le_antisymm (hopens'.2 _ hopens.1) (hopens.2 _ hopens'.1)
  rw [hsame, hb.boundTo.2.1] at hlive
  have hown' : (probed host.pci o cards).world.contexts b.context = some (host.contexts fd) :=
    hcontext
  rw [hb.boundTo.2.1] at hown'
  exact (Option.some.inj hown').symm.trans (Option.some.inj hlive)

def ports : PciDev → PciResources := fun _ => ⟨16, fun _ => .io 0x80⟩

def mappedAt (n : Nat) : Outcomes :=
  { allSucceed with pciIomap := fun bar => some (0x10000 * n + 0x1000 * bar) }

def idioAndIiro : List Attached := [⟨1, 0x0101, mappedAt 1⟩, ⟨2, 0x0102, mappedAt 2⟩]

/-- The kernel's mapping of the ports, and the files of the nodes from 3 on. -/
def portHost : Host where
  pci := ports
  starts := fun dev bar => 0xd000 + 0x1000 * BitVec.ofNat 64 dev + 0x100 * BitVec.ofNat 64 bar
  contexts := fun fd =>
    ((probed ports allSucceed idioAndIiro).world.contexts (fd - 2).toNat).getD .zeroed
  contextAt := fun fd => 0x1000 * fd.toNat
  ioremap := fun address =>
    let dev := (address / 0x10000).toNat
    let bar := (address % 0x10000 / 0x1000).toNat
    some (dev, ((0xd000 : BitVec 64) + 0x1000 * BitVec.ofNat 64 dev +
      0x100 * BitVec.ofNat 64 bar).toNat + (address % 0x1000).toNat)

def portEntries : List String := [".", "..", "mpcie-idio-8", "mpcie-iiro-8"]

theorem nodes_idioAndIiro : (probed ports allSucceed idioAndIiro).nodes.nodes =
    [⟨"accesio_pci/mpcie-iiro-8", MKDEV 240 1, 2⟩,
      ⟨"accesio_pci/mpcie-idio-8", MKDEV 240 0, 1⟩] := by
  decide

private theorem openedNodes_idioAndIiro :
    openedNodes (probed ports allSucceed idioAndIiro).nodes.nodes portEntries =
      ["/dev/accesio_pci/mpcie-idio-8", "/dev/accesio_pci/mpcie-iiro-8"] := by
  decide

theorem modelsApart_idioAndIiro : ModelsApart idioAndIiro := by
  refine ⟨?_, ?_⟩
  · simp [idioAndIiro, SameModel]
  · intro a ha _
    simp only [idioAndIiro, List.mem_cons, List.not_mem_nil, or_false] at ha
    rcases ha with rfl | rfl <;> rfl

private theorem nodeListing_idioAndIiro :
    NodeListing (probed ports allSucceed idioAndIiro).nodes.nodes portEntries where
  nodup := by decide
  mem := by
    intro e
    rw [nodes_idioAndIiro]
    simp only [portEntries, List.mem_cons, List.not_mem_nil, or_false]
    constructor
    · rintro (rfl | rfl | rfl | rfl)
      · exact .inl rfl
      · exact .inr (.inl rfl)
      · exact .inr (.inr ⟨_, .inr rfl, "mpcie-idio-8", by decide, by decide⟩)
      · exact .inr (.inr ⟨_, .inl rfl, "mpcie-iiro-8", by decide, by decide⟩)
    · rintro (rfl | rfl | ⟨node, rfl | rfl, name, hname, rfl⟩)
      · exact .inl rfl
      · exact .inr (.inl rfl)
      · rw [← name_of_append hname]
        exact .inr (.inr (.inr (by decide)))
      · rw [← name_of_append hname]
        exact .inr (.inr (.inl (by decide)))

private theorem filesLead_idioAndIiro :
    FilesLead portHost (probed ports allSucceed idioAndIiro)
      (openedNodes (probed ports allSucceed idioAndIiro).nodes.nodes portEntries) := by
  have hnull : ∀ a ∈ idioAndIiro, a.outcomes.requestIrq none ≠ 0 := by decide
  have hown : OwnNodes (probed portHost.pci allSucceed idioAndIiro) :=
    (ownNodes_iff_modelsApart ports allSucceed idioAndIiro (by decide) hnull).mpr
      modelsApart_idioAndIiro
  refine filesLead_of_contexts (by decide) hown ?_ ?_
  · intro a ha _
    simp only [idioAndIiro, List.mem_cons, List.not_mem_nil, or_false] at ha
    rcases ha with rfl | rfl <;> decide
  · intro fd node hnode hpath
    change node ∈ (probed ports allSucceed idioAndIiro).nodes.nodes at hnode
    rw [nodes_idioAndIiro] at hnode
    rw [openedNodes_idioAndIiro, pathOf] at hpath
    split at hpath
    · cases hpath
    · next hfd =>
        have hlive : ∀ p ∈ [1, 2], (probed ports allSucceed idioAndIiro).world.contexts p =
            some (((probed ports allSucceed idioAndIiro).world.contexts p).getD .zeroed) := by
          intro p hp
          have hsome : ∀ p ∈ [1, 2],
              ((probed ports allSucceed idioAndIiro).world.contexts p).isSome := by decide
          obtain ⟨c, hc⟩ := Option.isSome_iff_exists.mp (hsome p hp)
          rw [hc, Option.getD_some]
        obtain ⟨n, rfl⟩ : ∃ n : Nat, fd = 3 + n := ⟨(fd - 3).toNat, by omega⟩
        have hindex : ((3 : Int) + n - 3).toNat = n := by omega
        rw [hindex] at hpath
        simp only [List.mem_cons, List.not_mem_nil, or_false] at hnode
        have hlt : n < 2 := by
          obtain ⟨hlt, -⟩ := List.getElem?_eq_some_iff.mp hpath
          exact hlt
        obtain rfl | rfl : n = 0 ∨ n = 1 := by omega
        · rcases hnode with rfl | rfl
          · exact absurd hpath (by decide)
          · exact hlive 1 (by decide)
        · rcases hnode with rfl | rfl
          · exact hlive 2 (by decide)
          · exact absurd hpath (by decide)

theorem ioremap_portHost (n : Nat) {x : Nat} (hx : x < 0x80) :
    portHost.ioremap ((0x10000 * n + 0x1000 * 1 : Nat) + x) =
      some (n, barStart portHost (fun _ => 1) n + x) := by
  have hdev : ((((0x10000 * n + 0x1000 * 1 : Nat) : Int) + x) / 0x10000).toNat = n := by omega
  have hbar : ((((0x10000 * n + 0x1000 * 1 : Nat) : Int) + x) % 0x10000 / 0x1000).toNat = 1 := by
    omega
  have hoffset : ((((0x10000 * n + 0x1000 * 1 : Nat) : Int) + x) % 0x1000).toNat = x := by omega
  simp only [portHost, hdev, hbar, hoffset]
  rfl

private theorem barMapped_idioAndIiro (a : Attached) (ha : a ∈ idioAndIiro) (d : DeviceDescriptor)
    (hd : lookupDescriptor accesioPciDeviceDescriptors a.device = some d) :
    BarMapped portHost (fun _ => 1) a d := by
  have hpids : ∀ a ∈ idioAndIiro, ∀ d ∈ lookupDescriptor accesioPciDeviceDescriptors a.device,
      1 = chosenBar (portHost.pci a.dev) d := by decide
  refine ⟨hpids a ha d hd, ?_, ?_⟩
  · simp only [idioAndIiro, List.mem_cons, List.not_mem_nil, or_false] at ha
    rcases ha with rfl | rfl
    · exact ⟨_, rfl, fun x hx => ioremap_portHost 1 hx⟩
    · exact ⟨_, rfl, fun x hx => ioremap_portHost 2 hx⟩
  · change 0x80 ≤ 2 ^ 31
    decide

/-- An mPCIe-IDIO-8 and an mPCIe-IIRO-8 are found, each with one slot. -/
theorem stack_refines_array_two_cards :
    ∃ lib, (aiowdmInit (some portEntries) (.zeroed fun _ => ⟨0, none⟩)).exec
        (portHost.descriptorFiles (nodeDir (probed ports allSucceed idioAndIiro).nodes.nodes)) [] =
          (.returned lib, openedNodes (probed ports allSucceed idioAndIiro).nodes.nodes
            portEntries) ∧
      ((List.range lib.numCards.toNat).map (slotDev portHost lib)).Perm [2, 1] := by
  have hbound : (probed ports allSucceed idioAndIiro).bound = [2, 1] := by decide
  have hseen : ∀ a ∈ idioAndIiro,
      ∀ d ∈ lookupDescriptor accesioPciDeviceDescriptors a.device, Seen d := by decide
  obtain ⟨lib, hinit, hperm, -⟩ := stack_refines_array portHost allSucceed idioAndIiro
    (by decide) (by decide) modelsApart_idioAndIiro (fun a ha _ => hseen a ha) (by decide)
    portEntries nodeListing_idioAndIiro filesLead_idioAndIiro (fun _ => 1)
    (fun a ha _ d hd => barMapped_idioAndIiro a ha d hd) (ram portHost fun _ => 1) id
    (actsAsMemory_ram portHost fun _ => 1) fun _ => ⟨0, none⟩
  exact ⟨lib, hinit, hbound ▸ hperm⟩

end Aiowdm.Proofs.CardStack
