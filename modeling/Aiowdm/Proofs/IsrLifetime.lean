import Aiowdm.Proofs.IsrStages
import Aiowdm.Proofs.RegisterBounds

/-!
# No isr outlives its card

Remove frees the line before it unmaps the BARs and frees the context, and a probe that
fails has not registered an isr.  So whatever the kernel answers, and whatever files are
open meanwhile, an isr that is registered has a live context, and the BARs that the
context points to are mapped.
-/

namespace Aiowdm.Proofs.IsrLifetime

open Aiowdm.Lib Aiowdm.Driver Aiowdm.Driver.DeviceContext Aiowdm.Driver.Handles
open Aiowdm.Driver.Kernel Aiowdm.Driver.Probe Aiowdm.Proofs.IsrStages
open Aiowdm.Proofs.SetupCalls
open Aiowdm.Driver.ModuleRuns (Machine)
open Aiowdm.Proofs.Ownership hiding next
open Aiowdm.Proofs.ProbeStatus (allSucceed)
open Aiowdm.Proofs.RegisterBounds (ioCard)

/-! ## What a call does to contexts, lines and mappings -/

section Calls

variable (pci : PciDev → PciResources) (o : Outcomes) (w : World) {c : KernelCall} {p : Ptr}

theorem count_acquireIf_of_ne (ok : Prop) [Decidable ok] {r t : Resource} (h : t ≠ r) :
    (w.acquireIf ok r).ledger.held.count t = w.ledger.held.count t := by
  unfold World.acquireIf
  split
  · exact Multiset.count_cons_of_ne h _
  · rfl

private theorem count_release_of_ne {r t : Resource} (h : t ≠ r) :
    (w.release r).ledger.held.count t = w.ledger.held.count t := by
  simp only [World.release, Ledger.release]
  split
  · exact Multiset.count_erase_of_ne h _
  · rfl

theorem count_release_self (r : Resource) :
    (w.release r).ledger.held.count r = w.ledger.held.count r - 1 := by
  simp only [World.release, Ledger.release]
  split
  · exact Multiset.count_erase_self r _
  · next hr => rw [Multiset.count_eq_zero_of_notMem hr]

private theorem count_release_le (r t : Resource) :
    (w.release r).ledger.held.count t ≤ w.ledger.held.count t := by
  by_cases h : t = r
  · subst h
    rw [count_release_self]
    exact Nat.sub_le _ _
  · rw [count_release_of_ne w h]

theorem count_irq_handler (n : Nat) :
    (handler pci o c w).2.ledger.held.count (.irq n p) ≤ w.ledger.held.count (.irq n p) ∨
      ∃ isr, c = .requestIrq n isr p ∧ o.requestIrq isr = 0 ∧
        (handler pci o c w).2.ledger.held.count (.irq n p) =
          w.ledger.held.count (.irq n p) + 1 := by
  cases c
  case requestIrq n' isr q =>
    by_cases hnew : .irq n p = Resource.irq n' q
    · cases hnew
      simp only [handler, World.acquireIf]
      split
      · next hok => exact .inr ⟨isr, rfl, hok, Multiset.count_cons_self _ _⟩
      · exact .inl le_rfl
    · exact .inl (count_acquireIf_of_ne w _ hnew).le
  case pciEnableDevice | pciRequestRegions | cdevAdd | deviceCreate | classCreate
    | pciRegisterDriver | allocChrdevRegion =>
    exact .inl (count_acquireIf_of_ne w _ Resource.noConfusion).le
  case pciReleaseRegions | pciIounmap | kfree | freeIrq | deviceDestroy | unregisterChrdevRegion
    | classDestroy | pciUnregisterDriver => exact .inl (count_release_le w _ _)
  case pciIomap dev bar =>
    simp only [handler, World.mapBar]
    split
    · exact .inl (Multiset.count_cons_of_ne Resource.noConfusion _).le
    · exact .inl le_rfl
  case kzalloc | kmalloc =>
    simp only [handler]
    split
    · exact .inl (Multiset.count_cons_of_ne Resource.noConfusion _).le
    · exact .inl le_rfl
  all_goals exact .inl le_rfl

theorem mapping_mem_handler {dev : PciDev} {base : Ptr}
    (hunmap : ∀ b, c ≠ .pciIounmap dev b) (h : .mapping dev base ∈ w.ledger.held) :
    .mapping dev base ∈ (handler pci o c w).2.ledger.held := by
  have hacquire (ok : Prop) [Decidable ok] (r : Resource) :
      .mapping dev base ∈ (w.acquireIf ok r).ledger.held := by
    unfold World.acquireIf
    split
    · exact Multiset.mem_cons_of_mem h
    · exact h
  have hrelease {r : Resource} (hr : .mapping dev base ≠ r) :
      .mapping dev base ∈ (w.release r).ledger.held :=
    (Ledger.mem_held_release_of_ne hr w.ledger).mpr h
  cases c
  case pciIounmap dev' base' =>
    refine hrelease fun heq => ?_
    cases heq
    exact hunmap base rfl
  case pciEnableDevice | pciRequestRegions | requestIrq | cdevAdd | deviceCreate | classCreate
    | pciRegisterDriver | allocChrdevRegion => exact hacquire _ _
  case pciReleaseRegions | freeIrq | kfree | deviceDestroy | unregisterChrdevRegion
    | classDestroy | pciUnregisterDriver => exact hrelease Resource.noConfusion
  case pciIomap dev' bar =>
    simp only [handler, World.mapBar]
    split
    · exact Multiset.mem_cons_of_mem h
    · exact h
  case kzalloc | kmalloc =>
    simp only [handler]
    split
    · exact Multiset.mem_cons_of_mem h
    · exact h
  all_goals exact h

theorem drvdata_handler {dev : PciDev} (hset : ∀ q, c ≠ .pciSetDrvdata dev q) :
    (handler pci o c w).2.drvdata dev = w.drvdata dev := by
  cases c
  case pciSetDrvdata dev' q =>
    refine Function.update_of_ne (fun heq => ?_) _ _
    cases heq
    exact hset q rfl
  case pciEnableDevice | pciRequestRegions | requestIrq | cdevAdd | deviceCreate | classCreate
    | pciRegisterDriver | allocChrdevRegion =>
    exact congrFun (frame_acquireIf w _ _).1 dev
  case pciIomap dev' bar =>
    simp only [handler, World.mapBar]
    split <;> rfl
  case kzalloc | kmalloc =>
    simp only [handler]
    split <;> rfl
  all_goals rfl

theorem contexts_handler (hstore : ∀ field, c ≠ .store p field) (hfree : c ≠ .kfree p)
    (hp : p < w.nextPtr) : (handler pci o c w).2.contexts p = w.contexts p := by
  cases c
  case store q field =>
    refine Function.update_of_ne (fun heq => ?_) _ _
    cases heq
    exact hstore field rfl
  case kfree q =>
    refine Function.update_of_ne (fun heq => ?_) _ _
    cases heq
    exact hfree rfl
  case kzalloc =>
    simp only [handler]
    split
    · exact Function.update_of_ne (Nat.ne_of_lt hp) _ _
    · rfl
  case pciEnableDevice | pciRequestRegions | requestIrq | cdevAdd | deviceCreate | classCreate
    | pciRegisterDriver | allocChrdevRegion =>
    exact congrFun (frame_acquireIf w _ _).2.1 p
  case pciIomap dev' bar =>
    simp only [handler, World.mapBar]
    split <;> rfl
  case kmalloc =>
    simp only [handler]
    split <;> rfl
  all_goals rfl

end Calls

/-! ## The invariant -/

/-- The context belongs to the card, and all that it says is mapped is. -/
def Built (w : World) (dev : PciDev) (p : Ptr) : Prop :=
  (w.load p).pciDev = some dev ∧
    ∀ bar base, (w.load p).barBases bar = some base → .mapping dev base ∈ w.ledger.held

/-- What is known of the context at each stage; `drvdata` leads to it as soon as it is
entered. -/
def Knows (pci : PciDev → PciResources) (w : World) (dev : PciDev) : Stage → Prop
  | .idle true => ∀ p, w.drvdata dev = some p → Built w dev p
  | .allocated p => ∀ bar, (w.load p).barBases bar = none
  | .entered p => (∀ bar, (w.load p).barBases bar = none) ∧ w.drvdata dev = some p
  | .building p | .serving p => Built w dev p ∧ w.drvdata dev = some p
  | .mapped p _ base => Built w dev p ∧ w.drvdata dev = some p ∧
      ∀ b, base = some b → .mapping dev b ∈ w.ledger.held
  | .numbered p irq => Built w dev p ∧ w.drvdata dev = some p ∧ irq = (pci dev).irq
  | .found p => Built w dev p
  | .loaded p pd => Built w dev p ∧ pd = some dev
  | .leaving p irq => Built w dev p ∧ irq = (pci dev).irq
  | .gone => w.drvdata dev = none
  | .idle false | .refused _ | .silent _ | .freed => True

structure Inv (pci : PciDev → PciResources) (w : World) (stage : PciDev → Stage) : Prop where
  owned : Owned w fun dev => (stage dev).own
  knows : ∀ dev, Knows pci w dev (stage dev)
  served : ∀ irq p, .irq irq p ∈ w.ledger.held →
    ∃ dev, (stage dev).served (w.drvdata dev) = some p ∧ irq = (pci dev).irq
  once : ∀ irq p, w.ledger.held.count (.irq irq p) ≤ 1

variable {pci : PciDev → PciResources} {o : Outcomes} {w w' : World} {stage : PciDev → Stage}
variable {dev : PciDev} {c : KernelCall} {p : Ptr} {st : Stage}

private theorem built_of_served (h : Knows pci w dev st)
    (hserved : st.served (w.drvdata dev) = some p) :
    Built w dev p := by
  cases st
  case idle bound =>
    cases bound with
    | false => cases hserved
    | true => exact h p hserved
  case serving q | loaded q pd | leaving q irq =>
    cases hserved
    exact h.1
  case found q =>
    cases hserved
    exact h
  all_goals cases hserved

theorem refers_of_served (hserved : st.served (w.drvdata dev) = some p) :
    st.own = .owns p ∨ w.drvdata dev = some p := by
  cases st
  case idle bound =>
    cases bound with
    | false => cases hserved
    | true => exact .inr hserved
  case serving | loaded | leaving | found =>
    cases hserved
    exact .inl rfl
  all_goals cases hserved

structure Keeps (w w' : World) (dev : PciDev) (st : Stage) : Prop where
  drvdata : w'.drvdata dev = w.drvdata dev
  fields : ∀ p, st.own = .owns p ∨ w.drvdata dev = some p →
    (w'.load p).pciDev = (w.load p).pciDev ∧ (w'.load p).barBases = (w.load p).barBases
  mapped : ∀ base, .mapping dev base ∈ w.ledger.held → .mapping dev base ∈ w'.ledger.held

theorem Keeps.built (h : Keeps w w' dev st) (hp : st.own = .owns p ∨ w.drvdata dev = some p)
    (hb : Built w dev p) : Built w' dev p := by
  obtain ⟨hpci, hbases⟩ := h.fields p hp
  refine ⟨hpci.trans hb.1, fun bar base hbase => h.mapped base (hb.2 bar base ?_)⟩
  rwa [hbases] at hbase

theorem Keeps.knows (h : Keeps w w' dev st) (hk : Knows pci w dev st) : Knows pci w' dev st := by
  cases st
  case idle bound =>
    cases bound with
    | false => trivial
    | true =>
        intro p hp
        rw [h.drvdata] at hp
        exact h.built (.inr hp) (hk p hp)
  case allocated p =>
    intro bar
    rw [(h.fields p (.inl rfl)).2]
    exact hk bar
  case entered p =>
    refine ⟨fun bar => ?_, h.drvdata.trans hk.2⟩
    rw [(h.fields p (.inl rfl)).2]
    exact hk.1 bar
  case building p | serving p => exact ⟨h.built (.inl rfl) hk.1, h.drvdata.trans hk.2⟩
  case mapped p bar base =>
    exact ⟨h.built (.inl rfl) hk.1, h.drvdata.trans hk.2.1,
      fun b hb => h.mapped b (hk.2.2 b hb)⟩
  case numbered p irq =>
    exact ⟨h.built (.inl rfl) hk.1, h.drvdata.trans hk.2.1, hk.2.2⟩
  case found p => exact h.built (.inl rfl) hk
  case loaded p pd | leaving p irq => exact ⟨h.built (.inl rfl) hk.1, hk.2⟩
  case gone => exact h.drvdata.trans hk
  case refused | silent | freed => trivial

/-! ### What a permitted call keeps -/

theorem own_of_store {field : Store} (hc : Permitted dev st (.store p field)) :
    st.own = .owns p := by
  cases hc with
  | neutral hn => exact hn.elim
  | _ => rfl

private theorem own_of_kfree (hc : Permitted dev st (.kfree p)) : st.own = .owns p := by
  cases hc with
  | neutral hn => exact hn.elim
  | kfree => rfl

theorem load_eq_of_contexts {w w' : World} (h : w'.contexts p = w.contexts p) :
    w'.load p = w.load p := by
  rw [World.load, World.load, h]

theorem Inv.keeps_other (h : Inv pci w stage) (hc : Permitted dev (stage dev) c) {d : PciDev}
    (hd : d ≠ dev) : Keeps w (handler pci o c w).2 d (stage d) where
  drvdata := drvdata_handler pci o w fun q heq => by
    subst heq
    generalize stage dev = st at hc
    cases hc with
    | neutral hn => exact hn
    | enter | forget => exact hd rfl
  fields q hq := by
    have hown (hdev : (stage dev).own = .owns q) : False :=
      hd (h.owned.exclusive d dev q hq (.inl hdev))
    have hload : (handler pci o c w).2.load q = w.load q :=
      load_eq_of_contexts (contexts_handler pci o w
        (fun field heq => hown (own_of_store (heq ▸ hc)))
        (fun heq => hown (own_of_kfree (heq ▸ hc))) (h.owned.below d q hq))
    rw [hload]
    exact ⟨rfl, rfl⟩
  mapped base hbase := mapping_mem_handler pci o w (fun b heq => by
    subst heq
    generalize stage dev = st at hc
    cases hc with
    | neutral hn => exact hn
    | unmap => exact hd rfl) hbase

private theorem fields_store (w : World) (p q : Ptr) {field : Store} (hplain : Plain field) :
    ((w.store p field).load q).pciDev = (w.load q).pciDev ∧
      ((w.store p field).load q).barBases = (w.load q).barBases := by
  by_cases hq : q = p
  · subst hq
    simp only [World.load, World.store, Function.update_self]
    cases w.contexts q with
    | none => exact ⟨rfl, rfl⟩
    | some c => cases field <;> first | exact hplain.elim | exact ⟨rfl, rfl⟩
  · have hload : (w.store p field).load q = w.load q :=
      load_eq_of_contexts (Function.update_of_ne hq _ _)
    rw [hload]
    exact ⟨rfl, rfl⟩

theorem keeps_store {field : Store} (hplain : Plain field) : Keeps w (w.store p field) dev st :=
  ⟨rfl, fun q _ => fields_store w p q hplain, fun _ => id⟩

theorem Inv.keeps_neutral (h : Inv pci w stage) (hn : Neutral c) :
    Keeps w (handler pci o c w).2 dev (stage dev) where
  drvdata := drvdata_handler pci o w fun q heq => by
    subst heq
    exact hn
  fields q hq := by
    have hload : (handler pci o c w).2.load q = w.load q :=
      load_eq_of_contexts (contexts_handler pci o w (fun field heq => by subst heq; exact hn)
        (fun heq => by subst heq; exact hn) (h.owned.below dev q hq))
    rw [hload]
    exact ⟨rfl, rfl⟩
  mapped base hbase := mapping_mem_handler pci o w (fun b heq => by subst heq; exact hn) hbase

theorem next_of_neutral (hn : Neutral c) (r : KernelCall.Reply c) : next st c r = st := by
  cases c <;> first | exact hn.elim | (cases st <;> rfl)

theorem built_acquireIf (ok : Prop) [Decidable ok] (r : Resource) (hb : Built w dev p) :
    Built (w.acquireIf ok r) dev p := by
  unfold World.acquireIf
  split
  · exact ⟨hb.1, fun bar base hbase => Multiset.mem_cons_of_mem (hb.2 bar base hbase)⟩
  · exact hb

theorem load_store_of_live (hlive : w.live p) (field : Store) :
    (w.store p field).load p = (w.load p).set field := by
  obtain ⟨c, hc⟩ := Option.isSome_iff_exists.mp hlive
  simp only [World.load, World.store, Function.update_self, hc, Option.map_some, Option.getD_some]

theorem drvdata_setDrvdata (w : World) (dev : PciDev) (q : Option Ptr) :
    (w.setDrvdata dev q).drvdata dev = q := by
  simp [World.setDrvdata]

private theorem knows_call (hc : Permitted dev st c) (hk : Knows pci w dev st)
    (hneutral : Neutral c → Keeps w (handler pci o c w).2 dev st)
    (hlive : ∀ p, st.own = .owns p → w.live p) :
    Knows pci (handler pci o c w).2 dev (next st c (handler pci o c w).1) := by
  cases hc with
  | neutral hn =>
      have hnext : next st c (handler pci o c w).1 = st := next_of_neutral hn _
      rw [hnext]
      exact (hneutral hn).knows hk
  | kzalloc =>
      cases hok : o.kzalloc with
      | false =>
          simp only [handler, hok]
          trivial
      | true =>
          simp only [handler, hok, if_true]
          intro bar
          simp [World.load, World.kzalloc, Context.zeroed]
  | @enter p => exact ⟨hk, drvdata_setDrvdata w dev (some p)⟩
  | @name p =>
      have hload := load_store_of_live (hlive p rfl) (.pciDev dev)
      refine ⟨⟨?_, fun bar base hbase => ?_⟩, hk.2⟩
      · simp only [handler, hload, Context.set]
      · simp only [handler, hload, Context.set, hk.1 bar] at hbase
        cases hbase
  | build hplain | serve hplain => exact (keeps_store hplain).knows hk
  | refuse => trivial
  | @map p bar =>
      obtain ⟨⟨hpci, hbases⟩, hdrv⟩ := hk
      have hmap : handler pci o (.pciIomap dev bar) w =
        (o.pciIomap bar, w.mapBar dev (o.pciIomap bar)) := rfl
      rw [hmap]
      cases hbase : o.pciIomap bar with
      | none => exact ⟨⟨hpci, hbases⟩, hdrv, fun b hb => by cases hb⟩
      | some base =>
          refine ⟨⟨hpci, fun i b hb => Multiset.mem_cons_of_mem (hbases i b hb)⟩, hdrv,
            fun b hb => ?_⟩
          cases hb
          exact Multiset.mem_cons_self _ _
  | @base p bar base =>
      obtain ⟨⟨hpci, hbases⟩, hdrv, hmapped⟩ := hk
      have hload := load_store_of_live (hlive p rfl) (.barBase bar base)
      refine ⟨⟨?_, fun i b hb => ?_⟩, hdrv⟩
      · simpa only [handler, hload, Context.set] using hpci
      · simp only [handler, hload, Context.set] at hb
        by_cases hi : i = bar
        · subst hi
          rw [Function.update_self] at hb
          exact hmapped b hb
        · rw [Function.update_of_ne hi] at hb
          exact hbases i b hb
  | number => exact ⟨hk.1, hk.2, rfl⟩
  | @request p irq isr =>
      obtain ⟨hb, hdrv, -⟩ := hk
      change Knows pci (w.acquireIf (o.requestIrq isr = 0) (.irq irq p)) dev
        (Stage.ofStatus p (o.requestIrq isr))
      unfold Stage.ofStatus
      split
      · exact ⟨built_acquireIf _ _ hb, (congrFun (frame_acquireIf w _ _).1 dev).trans hdrv⟩
      · trivial
  | @cdevAdd p number =>
      obtain ⟨hb, hdrv⟩ := hk
      exact ⟨built_acquireIf _ _ hb, (congrFun (frame_acquireIf w _ _).1 dev).trans hdrv⟩
  | find =>
      change Knows pci w dev (next (.idle true) (.pciGetDrvdata dev) (w.drvdata dev))
      cases hd : w.drvdata dev with
      | none => exact hd
      | some p => exact hk p hd
  | load => exact ⟨hk, hk.1⟩
  | line =>
      obtain ⟨hb, hpci⟩ := hk
      cases hpci
      exact ⟨hb, rfl⟩
  | free | look | unmap | kfree => trivial
  | forget => exact drvdata_setDrvdata w dev none

private theorem served_call {n : Nat} (hc : Permitted dev st c) (hk : Knows pci w dev st)
    (hserved : st.served (w.drvdata dev) = some p) (hn : n = (pci dev).irq)
    (honce : w.ledger.held.count (.irq n p) ≤ 1)
    (hheld : .irq n p ∈ (handler pci o c w).2.ledger.held) :
    (next st c (handler pci o c w).1).served ((handler pci o c w).2.drvdata dev) = some p := by
  cases hc with
  | neutral hneutral =>
      have hnext : next st c (handler pci o c w).1 = st := next_of_neutral hneutral _
      rw [hnext, drvdata_handler pci o w fun q heq => by subst heq; exact hneutral]
      exact hserved
  | serve | cdevAdd | load | line => exact hserved
  | find =>
      have hd : w.drvdata dev = some p := hserved
      change (next (.idle true) (.pciGetDrvdata dev) (w.drvdata dev)).served _ = some p
      rw [hd]
      rfl
  | free =>
      cases hserved
      obtain ⟨-, rfl⟩ := hk
      subst hn
      have hcount := count_release_self w (.irq (pci dev).irq p)
      have hpos := Multiset.count_pos.mpr hheld
      have hrelease : (handler pci o (.freeIrq (pci dev).irq p) w).2 =
        w.release (.irq (pci dev).irq p) := rfl
      rw [hrelease] at hpos
      omega
  | _ => cases hserved

private theorem permits_of_permitted (hc : Permitted dev st c) : Permits dev st.own c := by
  cases hc with
  | neutral hn => cases c <;> first | exact hn.elim | trivial
  | enter | find | forget => exact ⟨rfl, rfl⟩
  | kzalloc | kfree | cdevAdd => rfl
  | _ => trivial

private theorem own_next (hc : Permitted dev st c) (r : KernelCall.Reply c) :
    (next st c r).own = Ownership.next st.own c r := by
  cases hc with
  | neutral hn =>
      rw [next_of_neutral hn]
      cases c <;> first | exact hn.elim | rfl
  | kzalloc | find => cases r <;> rfl
  | @request p irq isr =>
      change (Stage.ofStatus p r).own = .owns p
      unfold Stage.ofStatus
      split <;> rfl
  | _ => rfl

theorem numbered_of_request {n : Nat} {isr : Option InterruptStyles.Style}
    (hc : Permitted dev st (.requestIrq n isr p)) : st = .numbered p n := by
  cases hc with
  | neutral hn => exact hn.elim
  | request => rfl

theorem Inv.not_registered (h : Inv pci w stage) (hown : (stage dev).own = .owns p)
    (hserved : ∀ drvdata, (stage dev).served drvdata = none) (n : Nat) :
    .irq n p ∉ w.ledger.held := by
  intro hheld
  obtain ⟨d, hd, -⟩ := h.served n p hheld
  cases h.owned.exclusive d dev p (refers_of_served hd) (.inl hown)
  rw [hserved] at hd
  cases hd

theorem Inv.live_of_served (h : Inv pci w stage)
    (hserved : (stage dev).served (w.drvdata dev) = some p) : w.live p := by
  rcases refers_of_served hserved with hown | hdrv
  · exact h.owned.live dev p hown
  · refine h.owned.drvdata dev p hdrv fun hfreed => ?_
    generalize stage dev = st at hserved hfreed
    cases st <;> first | exact Own.noConfusion hfreed | cases hserved

theorem Inv.call (h : Inv pci w stage) (o : Outcomes) (hc : Permitted dev (stage dev) c) :
    Inv pci (handler pci o c w).2
      (Function.update stage dev (next (stage dev) c (handler pci o c w).1)) where
  owned := by
    have hown : (next (stage dev) c (handler pci o c w).1).own =
      Ownership.next (stage dev).own c (handler pci o c w).1 := own_next hc _
    have howned := h.owned.call pci o (permits_of_permitted hc)
    convert howned using 1
    funext d
    rw [← hown]
    exact Function.apply_update (fun _ => Stage.own) stage dev _ d
  knows d := by
    by_cases hd : d = dev
    · subst hd
      rw [Function.update_self]
      exact knows_call hc (h.knows d) h.keeps_neutral (h.owned.live d)
    · rw [Function.update_of_ne hd]
      exact (h.keeps_other hc hd).knows (h.knows d)
  served n q hheld := by
    have hcount := count_irq_handler (p := q) pci o w (c := c) n
    rcases hcount with hle | ⟨isr, rfl, hok, -⟩
    · have hold : .irq n q ∈ w.ledger.held :=
        Multiset.count_pos.mp ((Multiset.count_pos.mpr hheld).trans_le hle)
      obtain ⟨d, hserved, hn⟩ := h.served n q hold
      refine ⟨d, ?_, hn⟩
      by_cases hd : d = dev
      · subst hd
        rw [Function.update_self]
        exact served_call hc (h.knows d) hserved hn (h.once n q) hheld
      · rw [Function.update_of_ne hd, (h.keeps_other hc hd).drvdata]
        exact hserved
    · have hst := numbered_of_request hc
      have hk := h.knows dev
      rw [hst] at hk
      refine ⟨dev, ?_, hk.2.2⟩
      rw [Function.update_self, hst]
      change (Stage.ofStatus q (o.requestIrq isr)).served _ = some q
      rw [Stage.ofStatus, if_pos hok]
      rfl
  once n q := by
    rcases count_irq_handler (p := q) pci o w (c := c) n with hle | ⟨isr, rfl, -, hnew⟩
    · exact hle.trans (h.once n q)
    · have hst := numbered_of_request hc
      have hnone := h.not_registered (by rw [hst]; rfl) (fun _ => by rw [hst]; rfl) n
      rw [hnew, Multiset.count_eq_zero_of_notMem hnone]

theorem Inv.end (h : Inv pci w stage) {b : Bool} (hends : EndsTrue (.returned b) (stage dev)) :
    Inv pci w (Function.update stage dev (.idle b)) where
  owned := by
    have hnot : (stage dev).own ≠ .freed := by
      cases b with
      | true =>
          obtain ⟨p, hst⟩ := hends
          rw [hst]
          exact Own.noConfusion
      | false =>
          rcases hends with hst | hst | ⟨p, hst | hst⟩ <;> rw [hst] <;> exact Own.noConfusion
    have howned := h.owned.forget hnot
    convert howned using 1
    funext d
    exact Function.apply_update (fun _ => Stage.own) stage dev _ d
  knows d := by
    by_cases hd : d = dev
    · subst hd
      rw [Function.update_self]
      cases b with
      | true =>
          obtain ⟨p, hst⟩ := hends
          have hk := h.knows d
          rw [hst] at hk
          intro q hq
          cases hk.2.symm.trans hq
          exact hk.1
      | false => trivial
    · rw [Function.update_of_ne hd]
      exact h.knows d
  served n q hheld := by
    obtain ⟨d, hserved, hn⟩ := h.served n q hheld
    refine ⟨d, ?_, hn⟩
    by_cases hd : d = dev
    · subst hd
      rw [Function.update_self]
      cases b with
      | true =>
          obtain ⟨p, hst⟩ := hends
          have hk := h.knows d
          rw [hst] at hk hserved
          cases hserved
          exact hk.2
      | false =>
          rcases hends with hst | hst | ⟨p, hst | hst⟩ <;> rw [hst] at hserved <;> cases hserved
    · rwa [Function.update_of_ne hd]
  once := h.once

theorem Inv.store (h : Inv pci w stage) (p : Ptr) (flags : IrqWait.WaitFlags) :
    Inv pci (w.store p (.flags flags)) stage where
  owned := h.owned.frame rfl (fun q => live_store w p q _) le_rfl
  knows d := by
    have hplain : Plain (.flags flags) := trivial
    exact (keeps_store hplain).knows (h.knows d)
  served := h.served
  once := h.once

theorem Inv.resume (h : Inv pci w stage) (p : Ptr) (pc : Pc) :
    Inv pci (resume p w pc).1 stage := by
  cases pc with
  | dispatched cmd =>
      cases cmd with
      | irqWait =>
          simp only [Handles.resume]
          split
          · exact h
          · exact h.store p _
      | irqWaitCancel => exact h.store p _
      | _ => exact h
  | _ => exact h

private theorem inv_fresh (pci : PciDev → PciResources) : Inv pci .fresh fun _ => .idle false where
  owned := owned_fresh
  knows _ := trivial
  served n p hheld := by cases hheld
  once n p := Nat.zero_le _

/-! ## Runs -/

def TaskAt (dev : PciDev) : Option Task → Bool → Stage → Prop
  | none, bound, st => st = .idle bound
  | some task, _, st => task.Follows (stages dev) EndsTrue st

structure Guarded (m : Machine) (s : State) (stage : PciDev → Stage) : Prop where
  inv : Inv m.pci s.world stage
  tasks : ∀ dev, TaskAt dev (s.task dev) (s.bound dev) (stage dev)

variable {m : Machine} {s s' : State} {log : List Event} {e : Event}

theorem taskAt_update {task : PciDev → Option Task} {bound : PciDev → Bool} {task' : Option Task}
    {b : Bool} (h : ∀ d, TaskAt d (task d) (bound d) (stage d)) (hdev : TaskAt dev task' b st)
    (d : PciDev) :
    TaskAt d (Function.update task dev task' d) (Function.update bound dev b d)
      (Function.update stage dev st d) := by
  by_cases hd : d = dev
  · subst hd
    rw [Function.update_self, Function.update_self, Function.update_self]
    exact hdev
  · rw [Function.update_of_ne hd, Function.update_of_ne hd, Function.update_of_ne hd]
    exact h d

theorem Guarded.setTask (h : Guarded m s stage) {task : Task}
    (htask : task.Follows (stages dev) EndsTrue (stage dev)) :
    Guarded m (s.setTask dev (some task)) stage where
  inv := h.inv
  tasks := by
    have hdev : TaskAt dev (some task) (s.bound dev) (stage dev) := htask
    have htasks := taskAt_update h.tasks hdev
    rwa [Function.update_eq_self, Function.update_eq_self] at htasks

theorem Guarded.stage_of_idle (h : Guarded m s stage) (hidle : (s.task dev).isNone = true) :
    stage dev = .idle (s.bound dev) := by
  have htask := h.tasks dev
  rwa [Option.isNone_iff_eq_none.mp hidle] at htask

private theorem guarded_runTask (h : Guarded m s stage) (hs : runTask m s dev o = some (e, s')) :
    ∃ stage', Guarded m s' stage' := by
  have htask := h.tasks dev
  unfold runTask at hs
  split at hs
  · cases hs
  · cases hs
  · next b hret =>
      cases hs
      rw [hret] at htask
      exact ⟨_, h.inv.end htask, taskAt_update h.tasks rfl⟩
  · next c k hcall =>
      cases hs
      rw [hcall] at htask
      obtain ⟨hpermitted, hk⟩ := htask
      have hdev : TaskAt dev (some (k (handler m.pci o c s.world).1)) (s.bound dev)
        (next (stage dev) c (handler m.pci o c s.world).1) := hk _
      have htasks := taskAt_update h.tasks hdev
      rw [Function.update_eq_self] at htasks
      exact ⟨_, h.inv.call o hpermitted, htasks⟩

private theorem guarded_step (h : Guarded m s stage) {a : Action} (hs : step m s a = some (e, s')) :
    ∃ stage', Guarded m s' stage' := by
  cases a with
  | run dev o => exact guarded_runTask h hs
  | probe dev device =>
      obtain ⟨⟨_, hidle, hbound⟩, hs⟩ := Option.ite_none_right_eq_some.mp hs
      cases hs
      refine ⟨stage, h.setTask ?_⟩
      rw [h.stage_of_idle hidle, hbound]
      exact .bind (follows_accesioPciDriverProbe dev m.table device)
  | remove dev =>
      obtain ⟨⟨hidle, hbound⟩, hs⟩ := Option.ite_none_right_eq_some.mp hs
      cases hs
      refine ⟨stage, h.setTask ?_⟩
      rw [h.stage_of_idle hidle, hbound]
      exact .bind (follows_accesioPciDriverRemove dev)
  | openCdev file p number =>
      obtain ⟨-, hs⟩ := Option.ite_none_right_eq_some.mp hs
      cases hs
      exact ⟨stage, h.inv, h.tasks⟩
  | release file =>
      obtain ⟨-, hs⟩ := Option.ite_none_right_eq_some.mp hs
      cases hs
      exact ⟨stage, h.inv, h.tasks⟩
  | ioctl thread file cmd =>
      obtain ⟨-, hs⟩ := Option.ite_none_left_eq_some.mp hs
      obtain ⟨x, -, hs⟩ := Option.map_eq_some_iff.mp hs
      cases hs
      exact ⟨stage, h.inv, h.tasks⟩
  | resume thread =>
      obtain ⟨i, -, hs⟩ := Option.map_eq_some_iff.mp hs
      cases hs
      exact ⟨stage, h.inv.resume i.context i.pc, h.tasks⟩
  | signal thread =>
      obtain ⟨i, -, hs⟩ := Option.bind_eq_some_iff.mp hs
      obtain ⟨-, hs⟩ := Option.ite_none_right_eq_some.mp hs
      cases hs
      exact ⟨stage, h.inv, h.tasks⟩
  | notify p =>
      obtain ⟨-, hs⟩ := Option.ite_none_right_eq_some.mp hs
      cases hs
      exact ⟨stage, h.inv.store p _, h.tasks⟩

private theorem guarded_init (m : Machine) (o : Outcomes) :
    Guarded m (system m o).init fun _ => .idle false where
  inv := by
    refine (every_accesioPciInit m.table m.ids).exec_invariant
      (Q := fun w => Inv m.pci w fun _ => .idle false) (fun c w hc hw => ?_) (inv_fresh m.pci)
    have hn : Neutral c := by cases c <;> first | exact hc.elim | trivial
    have hnext : next (.idle false) c (handler m.pci o c w).1 = .idle false :=
      next_of_neutral hn _
    have hsame : Function.update (fun _ : PciDev => Stage.idle false) 0 (.idle false) =
      fun _ => .idle false := Function.update_eq_self 0 _
    have hcall : Inv m.pci _ (Function.update _ 0 _) := hw.call o (.neutral hn)
    rwa [hnext, hsame] at hcall
  tasks _ := rfl

private theorem guarded_run (hrun : Run (system m o) log s) : ∃ stage, Guarded m s stage := by
  induction hrun with
  | init => exact ⟨_, guarded_init m o⟩
  | step _ _ hs ih =>
      obtain ⟨stage, h⟩ := ih
      exact guarded_step h hs

/-- Over any probes, removes, opens and ioctls, with any outcomes of what they call, an
isr is registered once, on the line of its card, with a context that is live and that
points to no BAR that is not mapped. -/
theorem isr_keeps_its_card (m : Machine) (o : Outcomes) (log : List Event) (s : State)
    (hrun : Run (system m o) log s) (irq : Nat) (p : Ptr)
    (hisr : .irq irq p ∈ s.world.ledger.held) :
    s.world.live p ∧ s.world.ledger.held.count (.irq irq p) = 1 ∧
      ∃ dev, irq = (m.pci dev).irq ∧ (s.world.load p).pciDev = some dev ∧
        ∀ bar base, (s.world.load p).barBases bar = some base →
          .mapping dev base ∈ s.world.ledger.held := by
  obtain ⟨stage, h⟩ := guarded_run hrun
  obtain ⟨dev, hserved, hirq⟩ := h.inv.served irq p hisr
  obtain ⟨hpci, hbases⟩ := built_of_served (h.inv.knows dev) hserved
  refine ⟨?_, ?_, dev, hirq, hpci, hbases⟩
  · exact h.inv.live_of_served hserved
  · exact le_antisymm (h.inv.once irq p) (Multiset.count_pos.mpr hisr)

/-- `device_create` fails, which probe does not report, and remove has looked at the
context, but not freed the line yet. -/
theorem isr_keeps_its_card_under_remove : ∃ log s,
    Run (system ioCard allSucceed) log s ∧ (s.task 1).isSome ∧ s.world.live 1 ∧
      s.world.ledger.held.count (.irq 16 1) = 1 ∧
      ∃ dev, 16 = (ioCard.pci dev).irq ∧ (s.world.load 1).pciDev = some dev ∧
        ∀ bar base, (s.world.load 1).barBases bar = some base →
          .mapping dev base ∈ s.world.ledger.held := by
  obtain ⟨log, s, hrun, hends⟩ :=
    (system ioCard allSucceed).exists_runWhere_map_of_exec (G := fun _ _ _ => True)
      (fun c => ((c.2.task 1).isSome, decide (.irq 16 1 ∈ c.2.world.ledger.held)))
      (.probe 1 0x0100 ::
        List.replicate 34 (.run 1 { allSucceed with deviceCreate := .error (-17) }) ++
        .remove 1 :: List.replicate 3 (.run 1 allSucceed))
      (b := (true, true)) (fun _ _ _ _ => trivial) rfl
  obtain ⟨htask, hheld⟩ := Prod.mk.inj hends
  exact ⟨log, s, hrun, htask,
    isr_keeps_its_card ioCard allSucceed log s hrun 16 1 (of_decide_eq_true hheld)⟩

end Aiowdm.Proofs.IsrLifetime
