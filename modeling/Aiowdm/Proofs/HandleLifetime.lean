import Aiowdm.Driver.Handles
import Aiowdm.Proofs.Ownership
import Aiowdm.Proofs.RegisterBounds
import Mathlib.Data.Fintype.EquivFin

/-!
# No handle outlives its card

Remove frees a context whether or not a file is open on it, and nothing
unregisters the cdev in it.  Where it frees only what no file and no cdev leads
to, no ioctl, no wake-up and no open uses a context that was freed.
-/

namespace Aiowdm.Proofs.HandleLifetime

open Aiowdm.Lib Aiowdm.Driver Aiowdm.Driver.DeviceContext Aiowdm.Driver.Handles Aiowdm.Driver.Kernel
open Aiowdm.Driver.Probe Aiowdm.Proofs.Ownership Aiowdm.Proofs.SetupCalls
open Aiowdm.Driver.ModuleRuns (Machine)
open Aiowdm.Proofs.ProbeStatus (allSucceed)
open Aiowdm.Proofs.RegisterBounds (ioCard)

/-- The event uses no context that was freed before. -/
def NotAfterFree (e : Event) (older : List Event) : Prop :=
  ∀ p, e.usedContext = some p → .freed p ∉ older

/-! ## The condition -/

/-- No file is open on the context, and the cdev in it is not registered. -/
def Unreferenced (s : State) (p : Ptr) : Prop :=
  (∀ x ∈ s.files, x.privateData ≠ p) ∧ some p ∉ s.world.ledger.held.map Resource.cdevContext

def freedBy : KernelCall → Option Ptr
  | .kfree p => some p
  | _ => none

theorem freedBy_eq_some {c : KernelCall} {p : Ptr} : freedBy c = some p ↔ c = .kfree p := by
  cases c <;> simp [freedBy]

def nextFree (s : State) (dev : PciDev) : Option Ptr :=
  match s.task dev with
  | some (.call c _) => freedBy c
  | _ => none

def FreesOnlyUnreferenced (_ : List Event) (s : State) : Action → Prop
  | .run dev _ => ∀ p ∈ nextFree s dev, Unreferenced s p
  | _ => True

instance (s : State) (p : Ptr) : Decidable (Unreferenced s p) :=
  inferInstanceAs (Decidable (_ ∧ _))

instance (log : List Event) (s : State) : DecidablePred (FreesOnlyUnreferenced log s)
  | .run dev _ => inferInstanceAs (Decidable (∀ p ∈ nextFree s dev, Unreferenced s p))
  | .probe _ _ | .remove _ | .openCdev _ _ _ | .release _ | .ioctl _ _ _ | .resume _
  | .signal _ | .notify _ => isTrue trivial

/-! ## What a call does to contexts and cdevs -/

section Calls

variable (pci : PciDev → PciResources) (o : Outcomes) (w : World) (c : KernelCall)

theorem nextPtr_handler : w.nextPtr ≤ (handler pci o c w).2.nextPtr := by
  by_cases hmoves : MovesContexts c
  · cases c with
    | kzalloc =>
        cases hok : o.kzalloc with
        | false => simp [handler, hok]
        | true => simp [handler, hok, World.kzalloc, World.alloc]
    | kfree p => exact le_rfl
    | pciSetDrvdata pci p => exact le_rfl
    | _ => exact hmoves.elim
  · exact (frame_handler pci o w hmoves).2.2

/-- A call frees at most one context and allocates at most one, at a new address. -/
theorem live_handler_cases (q : Ptr) :
    (handler pci o c w).2.live q = w.live q ∧ freedBy c ≠ some q ∨
      (handler pci o c w).2.live q = false ∧ freedBy c = some q ∨
      (handler pci o c w).2.live q = true ∧ q = w.nextPtr := by
  by_cases hmoves : MovesContexts c
  · cases c with
    | kzalloc =>
        cases hok : o.kzalloc with
        | false => simp [handler, hok, freedBy]
        | true => by_cases hq : q = w.nextPtr <;> simp [handler, hok, live_kzalloc, freedBy, hq]
    | kfree p =>
        by_cases hq : q = p <;> simp [handler, live_kfree, freedBy, hq, eq_comm (a := p)]
    | pciSetDrvdata pci p => exact .inl ⟨rfl, by simp [freedBy]⟩
    | _ => exact hmoves.elim
  · refine .inl ⟨(frame_handler pci o w hmoves).2.1 q, fun hq => hmoves ?_⟩
    rw [freedBy_eq_some.mp hq]
    trivial

private theorem live_handler {q : Ptr} (hfree : freedBy c ≠ some q) (hq : w.live q) :
    (handler pci o c w).2.live q := by
  rcases live_handler_cases pci o w c q with ⟨hlive, _⟩ | ⟨_, hfreed⟩ | ⟨hlive, _⟩
  · rwa [hlive]
  · exact absurd hfreed hfree
  · exact hlive

private theorem dead_handler {q : Ptr} (hlt : q < w.nextPtr) (hq : w.live q = false) :
    (handler pci o c w).2.live q = false := by
  rcases live_handler_cases pci o w c q with ⟨hlive, _⟩ | ⟨hlive, _⟩ | ⟨_, heq⟩
  · rwa [hlive]
  · exact hlive
  · exact absurd heq (Nat.ne_of_lt hlt)

private theorem dead_of_freedBy {q : Ptr} (hlt : q < w.nextPtr) (hq : freedBy c = some q) :
    (handler pci o c w).2.live q = false := by
  rcases live_handler_cases pci o w c q with ⟨_, hfree⟩ | ⟨hlive, _⟩ | ⟨_, heq⟩
  · exact absurd hq hfree
  · exact hlive
  · exact absurd heq (Nat.ne_of_lt hlt)

private theorem mem_held_release {r r' : Resource} (h : r ∈ (w.release r').ledger.held) :
    r ∈ w.ledger.held := by
  simp only [World.release, Ledger.release] at h
  split at h
  · exact Multiset.mem_of_mem_erase h
  · exact h

theorem mem_held_acquireIf {ok : Prop} [Decidable ok] {r r' : Resource}
    (h : r ∈ (w.acquireIf ok r').ledger.held) : r = r' ∨ r ∈ w.ledger.held := by
  unfold World.acquireIf at h
  split at h
  · exact Multiset.mem_cons.mp h
  · exact .inr h

theorem cdev_mem_handler {p : Ptr} {number : DevT}
    (h : .cdev p number ∈ (handler pci o c w).2.ledger.held) :
    .cdev p number ∈ w.ledger.held ∨ c = .cdevAdd p number := by
  have hacquire {ok : Prop} [Decidable ok] {r : Resource}
      (h : .cdev p number ∈ (w.acquireIf ok r).ledger.held) (hr : .cdev p number ≠ r) :
      .cdev p number ∈ w.ledger.held :=
    (mem_held_acquireIf w h).resolve_left hr
  cases c
  case cdevAdd q dev =>
    rcases mem_held_acquireIf w h with heq | h
    · cases heq
      exact .inr rfl
    · exact .inl h
  case pciEnableDevice | pciRequestRegions | requestIrq | deviceCreate | classCreate
    | pciRegisterDriver | allocChrdevRegion => exact .inl (hacquire h Resource.noConfusion)
  case pciReleaseRegions | pciIounmap | kfree | freeIrq | deviceDestroy | unregisterChrdevRegion
    | classDestroy | pciUnregisterDriver => exact .inl (mem_held_release w h)
  case pciIomap dev bar =>
    simp only [handler, World.mapBar] at h
    split at h
    · exact .inl ((Multiset.mem_cons.mp h).resolve_left Resource.noConfusion)
    · exact .inl h
  case kzalloc | kmalloc =>
    simp only [handler] at h
    split at h
    · exact .inl ((Multiset.mem_cons.mp h).resolve_left Resource.noConfusion)
    · exact .inl h
  all_goals exact .inl h

end Calls

/-! ## The invariant -/

/-- A task goes on as the ownership of its card demands; a card without one owns
nothing. -/
def TaskFollows (dev : PciDev) : Option Task → Own → Prop
  | none, own => own = .nothing
  | some task, own => task.Follows (ownership dev) EndsClean own

/-- Whatever a file, an ioctl or a registered cdev leads to is live, and what was
freed stays dead. -/
structure Inv (log : List Event) (s : State) (own : PciDev → Own) : Prop where
  owned : Owned s.world own
  tasks : ∀ dev, TaskFollows dev (s.task dev) (own dev)
  files : ∀ x ∈ s.files, s.world.live x.privateData
  distinct : (s.files.map (·.file)).Nodup
  ioctls : ∀ i ∈ s.ioctls, ⟨i.file, i.context⟩ ∈ s.files
  cdevs : ∀ p number, .cdev p number ∈ s.world.ledger.held → s.world.live p
  freed : ∀ p, .freed p ∈ log → p < s.world.nextPtr ∧ s.world.live p = false

variable {m : Machine} {o : Outcomes} {log : List Event} {s s' : State} {own : PciDev → Own}
variable {e : Event} {p : Ptr}

theorem Inv.not_freed_of_live (h : Inv log s own) (hp : s.world.live p) : .freed p ∉ log := by
  intro hfreed
  rw [(h.freed p hfreed).2] at hp
  cases hp

theorem Inv.live_of_ioctl (h : Inv log s own) {i : Ioctl} (hi : i ∈ s.ioctls) :
    s.world.live i.context :=
  h.files _ (h.ioctls i hi)

theorem Inv.cons (h : Inv log s own) (he : ∀ p, e ≠ .freed p) : Inv (e :: log) s own :=
  { h with freed := fun p hp => h.freed p ((List.mem_cons.mp hp).resolve_left (he p).symm) }

/-! ### Probes and removes -/

theorem Inv.setTask (h : Inv log s own) {dev : PciDev} {task : Task}
    (htask : task.Follows (ownership dev) EndsClean .nothing) (hidle : s.task dev = none) :
    Inv log (s.setTask dev (some task)) own := by
  have hown : own dev = .nothing := by
    have htasks := h.tasks dev
    rwa [hidle] at htasks
  have htasks := forall_update h.tasks (show TaskFollows dev (some task) (own dev) by
    rw [hown]
    exact htask)
  rw [Function.update_eq_self] at htasks
  exact { h with tasks := htasks }

theorem Inv.endTask (h : Inv log s own) {dev : PciDev} {b : Bool}
    (htask : s.task dev = some (.ret (.returned b))) :
    Inv log { s.setTask dev none with bound := Function.update s.bound dev b }
      (Function.update own dev .nothing) := by
  have hends : own dev ≠ .freed := by
    have htasks := h.tasks dev
    rwa [htask] at htasks
  exact { h with
    owned := h.owned.forget hends
    tasks := forall_update h.tasks rfl }

private theorem freed_eq_ofCall {c : KernelCall} :
    .freed p = Event.ofCall c ↔ freedBy c = some p := by
  cases c <;> simp [Event.ofCall, freedBy, eq_comm]

theorem Inv.call (h : Inv log s own) {dev : PciDev} {c : KernelCall}
    {k : KernelCall.Reply c → Task} (htask : s.task dev = some (.call (I := kernel) c k))
    (hfree : ∀ p, freedBy c = some p → Unreferenced s p) :
    Inv (Event.ofCall c :: log)
      { s.setTask dev (some (k (handler m.pci o c s.world).1)) with
        world := (handler m.pci o c s.world).2 }
      (Function.update own dev (next (own dev) c (handler m.pci o c s.world).1)) := by
  have htasks := h.tasks dev
  rw [htask] at htasks
  obtain ⟨hpermits, hk⟩ := htasks
  have hkeep (q : Ptr) (hq : s.world.live q) (hne : freedBy c ≠ some q) :
      (handler m.pci o c s.world).2.live q := live_handler m.pci o s.world c hne hq
  refine ⟨h.owned.call m.pci o hpermits, forall_update h.tasks (hk _), fun x hx => ?_,
    h.distinct, h.ioctls, fun p number hp => ?_, fun p hp => ?_⟩
  · exact hkeep _ (h.files x hx) fun hp => (hfree _ hp).1 x hx rfl
  · rcases cdev_mem_handler m.pci o s.world c hp with hp | rfl
    · refine hkeep p (h.cdevs p number hp) fun hfreed => (hfree p hfreed).2 ?_
      exact Multiset.mem_map.mpr ⟨_, hp, rfl⟩
    · exact hkeep p (h.owned.live dev p hpermits) (by simp [freedBy])
  · have hnext := nextPtr_handler m.pci o s.world c
    rcases List.mem_cons.mp hp with hp | hp
    · have hc := freed_eq_ofCall.mp hp
      have hlt := h.owned.below dev p (.inl (by
        rw [freedBy_eq_some.mp hc] at hpermits
        exact hpermits))
      exact ⟨hlt.trans_le hnext, dead_of_freedBy m.pci o s.world c hlt hc⟩
    · obtain ⟨hlt, hdead⟩ := h.freed p hp
      exact ⟨hlt.trans_le hnext, dead_handler m.pci o s.world c hlt hdead⟩

/-! ### Files and ioctls -/

theorem Inv.openCdev (h : Inv log s own) {file : File} (hfile : file ∉ s.files.map (·.file))
    (hp : s.world.live p) :
    Inv log { s with files := accesioCharDriverOpen file p :: s.files } own :=
  { h with
    files := fun x hx => by
      rcases List.mem_cons.mp hx with rfl | hx
      · exact hp
      · exact h.files x hx
    distinct := List.nodup_cons.mpr ⟨hfile, h.distinct⟩
    ioctls := fun i hi => List.mem_cons_of_mem _ (h.ioctls i hi) }

theorem Inv.release (h : Inv log s own) {file : File} (hfile : file ∉ s.ioctls.map (·.file)) :
    Inv log { s with files := s.files.filter fun x => x.file ≠ file } own :=
  { h with
    files := fun x hx => h.files x (List.mem_filter.mp hx).1
    distinct := h.distinct.sublist (List.filter_sublist.map _)
    ioctls := fun i hi => List.mem_filter.mpr ⟨h.ioctls i hi, by
      have hne : i.file ≠ file := fun heq => hfile (List.mem_map.mpr ⟨i, hi, heq⟩)
      simpa using hne⟩ }

theorem Inv.ioctl (h : Inv log s own) {x : OpenFile} (hx : x ∈ s.files) (thread : Thread)
    (pc : Pc) :
    Inv log { s with ioctls := ⟨thread, x.file, x.privateData, pc⟩ :: s.ioctls } own :=
  { h with
    ioctls := fun i hi => by
      rcases List.mem_cons.mp hi with rfl | hi
      · exact hx
      · exact h.ioctls i hi }

theorem Inv.setIoctl (h : Inv log s own) {i : Ioctl} (hi : i ∈ s.ioctls) (pc : Option Pc) :
    Inv log (s.setIoctl i pc) own :=
  { h with
    ioctls := fun j hj => by
      rcases List.mem_append.mp hj with hj | hj
      · obtain ⟨pc, _, rfl⟩ : ∃ q, pc = some q ∧ { i with pc := q } = j := by
          simpa [eq_comm] using hj
        exact h.ioctls i hi
      · exact h.ioctls j (List.mem_filter.mp hj).1 }

structure SameContexts (w w' : World) : Prop where
  drvdata : w'.drvdata = w.drvdata
  live : ∀ p, w'.live p = w.live p
  nextPtr : w'.nextPtr = w.nextPtr
  ledger : w'.ledger = w.ledger

theorem sameContexts_refl (w : World) : SameContexts w w := ⟨rfl, fun _ => rfl, rfl, rfl⟩

theorem sameContexts_store (w : World) (p : Ptr) (field : Store) :
    SameContexts w (w.store p field) :=
  ⟨rfl, fun q => live_store w p q field, rfl, rfl⟩

private theorem sameContexts_resume (w : World) (p : Ptr) (pc : Pc) :
    SameContexts w (resume p w pc).1 := by
  cases pc with
  | dispatched cmd =>
      cases cmd with
      | irqWait =>
          simp only [resume]
          split
          · exact sameContexts_refl w
          · exact sameContexts_store w p _
      | irqWaitCancel => exact sameContexts_store w p _
      | _ => exact sameContexts_refl w
  | _ => exact sameContexts_refl w

theorem Inv.world (h : Inv log s own) {w : World} (hw : SameContexts s.world w) :
    Inv log { s with world := w } own where
  owned := h.owned.frame hw.drvdata hw.live hw.nextPtr.ge
  tasks := h.tasks
  files x hx := by rw [hw.live]; exact h.files x hx
  distinct := h.distinct
  ioctls := h.ioctls
  cdevs p number hp := by rw [hw.live]; exact h.cdevs p number (hw.ledger ▸ hp)
  freed p hp := by rw [hw.live, hw.nextPtr]; exact h.freed p hp

/-! ## Steps and runs -/

theorem follows_probeTask (dev : PciDev) (device : Nat) :
    (probeTask m dev device).Follows (ownership dev) EndsClean .nothing :=
  .bind (follows_accesioPciDriverProbe dev m.table device)

private theorem follows_removeTask (dev : PciDev) :
    (removeTask dev).Follows (ownership dev) EndsClean .nothing :=
  .bind (follows_accesioPciDriverRemove dev)

theorem Inv.quiet (h : Inv log s own) :
    (∃ own', Inv (.quiet :: log) s own') ∧ NotAfterFree .quiet log :=
  ⟨⟨own, h.cons fun _ => Event.noConfusion⟩, fun _ hp => by cases hp⟩

theorem Inv.use (h : Inv log s own) (h' : Inv log s' own) (hp : s.world.live p)
    (he : e.usedContext = some p) :
    (∃ own', Inv (e :: log) s' own') ∧ NotAfterFree e log := by
  refine ⟨⟨own, h'.cons fun q hq => ?_⟩, fun q hq => ?_⟩
  · rw [hq] at he
    cases he
  · rw [Option.some.inj (hq.symm.trans he)]
    exact h.not_freed_of_live hp

private theorem inv_runTask (h : Inv log s own) {dev : PciDev}
    (hG : FreesOnlyUnreferenced log s (.run dev o)) (hs : runTask m s dev o = some (e, s')) :
    (∃ own', Inv (e :: log) s' own') ∧ NotAfterFree e log := by
  unfold runTask at hs
  split at hs
  · cases hs
  · cases hs
  · next htask =>
      cases hs
      exact (h.endTask htask).quiet
  · next c k htask =>
      cases hs
      refine ⟨⟨_, h.call htask fun p hp => hG p ?_⟩, fun p hp => ?_⟩
      · simpa [nextFree, htask] using hp
      · cases c <;> cases hp

private theorem inv_resumeIoctl (h : Inv log s own) {i : Ioctl} (hi : i ∈ s.ioctls)
    (hs : resumeIoctl s i = (e, s')) :
    (∃ own', Inv (e :: log) s' own') ∧ NotAfterFree e log := by
  cases hs
  have h' := (h.setIoctl hi (resume i.context s.world i.pc).2).world
    (sameContexts_resume s.world i.context i.pc)
  split
  · exact h.use h' (h.live_of_ioctl hi) rfl
  · exact h'.quiet

theorem inv_step (h : Inv log s own) {a : Action} (hG : FreesOnlyUnreferenced log s a)
    (hs : step m s a = some (e, s')) :
    (∃ own', Inv (e :: log) s' own') ∧ NotAfterFree e log := by
  cases a with
  | run dev o => exact inv_runTask h hG hs
  | probe dev device =>
      obtain ⟨⟨_, hidle, _⟩, hs⟩ := Option.ite_none_right_eq_some.mp hs
      cases hs
      exact (h.setTask (follows_probeTask dev device) (Option.isNone_iff_eq_none.mp hidle)).quiet
  | remove dev =>
      obtain ⟨⟨hidle, _⟩, hs⟩ := Option.ite_none_right_eq_some.mp hs
      cases hs
      exact (h.setTask (follows_removeTask dev) (Option.isNone_iff_eq_none.mp hidle)).quiet
  | openCdev file p number =>
      obtain ⟨⟨hfile, hcdev⟩, hs⟩ := Option.ite_none_right_eq_some.mp hs
      cases hs
      have hp := h.cdevs p number hcdev
      exact h.use (h.openCdev hfile hp) hp rfl
  | release file =>
      obtain ⟨⟨_, hfile⟩, hs⟩ := Option.ite_none_right_eq_some.mp hs
      cases hs
      exact (h.release hfile).quiet
  | ioctl thread file cmd =>
      obtain ⟨_, hs⟩ := Option.ite_none_left_eq_some.mp hs
      obtain ⟨x, hx, hs⟩ := Option.map_eq_some_iff.mp hs
      cases hs
      have hfile : x.file = file := by simpa using List.find?_some hx
      subst hfile
      exact (h.ioctl (List.mem_of_find?_eq_some hx) thread _).quiet
  | resume thread =>
      obtain ⟨i, hi, hs⟩ := Option.map_eq_some_iff.mp hs
      exact inv_resumeIoctl h (List.mem_of_find?_eq_some hi) hs
  | signal thread =>
      obtain ⟨i, hi, hs⟩ := Option.bind_eq_some_iff.mp hs
      obtain ⟨_, hs⟩ := Option.ite_none_right_eq_some.mp hs
      cases hs
      have hmem := List.mem_of_find?_eq_some hi
      exact h.use (h.setIoctl hmem _) (h.live_of_ioctl hmem) rfl
  | notify p =>
      obtain ⟨_, hs⟩ := Option.ite_none_right_eq_some.mp hs
      cases hs
      exact (h.world (sameContexts_store s.world p _)).quiet

theorem initCall_keeps {c : KernelCall} (hc : InitCall c) :
    ¬MovesContexts c ∧ ∀ p number, c ≠ .cdevAdd p number := by
  cases c <;> first | exact hc.elim | exact ⟨id, fun _ _ => KernelCall.noConfusion⟩

theorem inv_init (m : Machine) (o : Outcomes) : Inv [] (system m o).init fun _ => .nothing := by
  have hworld : Owned (system m o).init.world (fun _ => .nothing) ∧
      ∀ p number, .cdev p number ∉ (system m o).init.world.ledger.held := by
    refine (every_accesioPciInit m.table m.ids).exec_invariant
      (Q := fun w => Owned w (fun _ => .nothing) ∧ ∀ p number, .cdev p number ∉ w.ledger.held)
      (fun c w hc hw => ⟨?_, fun p number hp => ?_⟩) ⟨owned_fresh, fun p number hp => ?_⟩
    · obtain ⟨hd, hl, hn⟩ := frame_handler m.pci o w (initCall_keeps hc).1
      exact hw.1.frame hd hl hn
    · exact (cdev_mem_handler m.pci o w c hp).elim (hw.2 p number)
        ((initCall_keeps hc).2 p number)
    · cases hp
  exact {
    owned := hworld.1
    tasks := fun _ => rfl
    files := fun _ hx => by cases hx
    distinct := .nil
    ioctls := fun _ hi => by cases hi
    cdevs := fun p number hp => absurd hp (hworld.2 p number)
    freed := fun _ hp => by cases hp }

theorem inv_run (h : RunWhere (system m o) FreesOnlyUnreferenced log s) :
    (∃ own, Inv log s own) ∧ AtEvery NotAfterFree log := by
  induction h with
  | init => exact ⟨⟨_, inv_init m o⟩, atEvery_nil _⟩
  | step _ hG hs ih =>
      obtain ⟨⟨own, hinv⟩, hlog⟩ := ih
      obtain ⟨hinv', he⟩ := inv_step hinv hG hs
      exact ⟨hinv', atEvery_cons.mpr ⟨he, hlog⟩⟩

/-! ## Where the condition breaks -/

theorem step_of_nextFree {dev : PciDev} (hp : p ∈ nextFree s dev) :
    ∃ task, (system m o).step s (.run dev o) =
      some (.freed p, { s.setTask dev (some task) with world := s.world.kfree p }) := by
  unfold nextFree at hp
  split at hp
  · next c k htask =>
      cases freedBy_eq_some.mp hp
      exact ⟨k (), by simp only [system, step, runTask, htask]; rfl⟩
  · cases hp

private theorem cdev_mem_of_mem_map {held : Multiset Resource}
    (h : some p ∈ held.map Resource.cdevContext) : ∃ number, .cdev p number ∈ held := by
  obtain ⟨r, hr, hcdev⟩ := Multiset.mem_map.mp h
  cases r <;> cases hcdev
  exact ⟨_, hr⟩

private theorem mem_held_kfree {w : World} {number : DevT} (h : .cdev p number ∈ w.ledger.held) :
    .cdev p number ∈ (w.kfree p).ledger.held := by
  simp only [World.kfree, World.release, Ledger.release]
  split
  · exact (Multiset.mem_erase_of_ne Resource.noConfusion).mpr h
  · exact h

theorem exists_fresh (l : List Nat) : ∃ n, n ∉ l := by
  obtain ⟨n, hn⟩ := Infinite.exists_notMem_finset l.toFinset
  exact ⟨n, by simpa using hn⟩

section Uses

-- A run to which an open, an ioctl and its first step may be added.
variable {G : List Event → State → Action → Prop} {s₁ : State} {log₁ : List Event}

private theorem used_of_file (h : Inv log s own) {x : OpenFile} (hx : x ∈ s.files)
    (hrun : RunWhere (system m o) G log₁ s₁)
    (hG : ∀ log s a, (∀ dev o, a ≠ .run dev o) → G log s a)
    (hfiles : s₁.files = s.files) (hioctls : s₁.ioctls = s.ioctls) :
    ∃ thread s', RunWhere (system m o) G (.used thread x.privateData :: .quiet :: log₁) s' := by
  obtain ⟨thread, hthread⟩ := exists_fresh (s.ioctls.map (·.thread))
  have hfind : (s₁.files.find? fun y => y.file = x.file) = some x := by
    rw [hfiles]
    cases hy : s.files.find? fun y => y.file = x.file with
    | none => simpa using List.find?_eq_none.mp hy x hx
    | some y =>
        have hfile : y.file = x.file := by simpa using List.find?_some hy
        rw [List.inj_on_of_nodup_map h.distinct (List.mem_of_find?_eq_some hy) hx hfile]
  let i : Ioctl := ⟨thread, x.file, x.privateData, .dispatched .cardDescriptorGet⟩
  let s₂ : State := { s₁ with ioctls := i :: s₁.ioctls }
  have hioctl : (system m o).step s₁ (.ioctl thread x.file .cardDescriptorGet) =
      some (.quiet, s₂) := by
    simp only [system, step, hioctls, if_neg hthread, hfind, Option.map_some, s₂, i]
  have hresume : (system m o).step s₂ (.resume thread) = some (resumeIoctl s₂ i) := by
    simp [system, step, s₂, i]
  have hcalled := hrun.step (hG _ _ _ (by simp)) hioctl
  exact ⟨thread, _, hcalled.step (hG _ _ _ (by simp)) hresume⟩

private theorem opened_of_cdev (hrun : RunWhere (system m o) G log₁ s₁)
    (hG : ∀ log s a, (∀ dev o, a ≠ .run dev o) → G log s a) {number : DevT}
    (hcdev : .cdev p number ∈ s₁.world.ledger.held) :
    ∃ file s', RunWhere (system m o) G (.opened file p :: log₁) s' := by
  obtain ⟨file, hfile⟩ := exists_fresh (s₁.files.map (·.file))
  have hopen : (system m o).step s₁ (.openCdev file p number) = some (.opened file p, { s₁ with
      files := accesioCharDriverOpen file p :: s₁.files }) :=
    if_pos ⟨hfile, hcdev⟩
  exact ⟨file, _, hrun.step (hG _ _ _ (by simp)) hopen⟩

end Uses

/-- Freeing what a file or a cdev leads to is followed by a use of it. -/
theorem used_after_free (h : RunWhere (system m o) FreesOnlyUnreferenced log s) {dev : PciDev}
    (hp : p ∈ nextFree s dev) (href : ¬Unreferenced s p) :
    ∃ log' s', RunWhere (system m o) (ButOnce log FreesOnlyUnreferenced) log' s' ∧
      .freed p :: log <:+ log' ∧ ¬AtEvery NotAfterFree log' := by
  obtain ⟨⟨own, hinv⟩, _⟩ := inv_run h
  obtain ⟨task, hfree⟩ := step_of_nextFree hp
  have hrun := h.offend hfree
  have hG : ∀ older s a, (∀ dev o, a ≠ Action.run dev o) →
      ButOnce log FreesOnlyUnreferenced older s a := by
    intro older s a ha _
    cases a with
    | run dev o => exact absurd rfl (ha dev o)
    | _ => trivial
  rcases not_and_or.mp href with hfiles | hcdev
  · push Not at hfiles
    obtain ⟨x, hx, rfl⟩ := hfiles
    obtain ⟨thread, s', hrun'⟩ := used_of_file hinv hx hrun hG rfl rfl
    refine ⟨_, s', hrun', ⟨[_, _], rfl⟩, fun hall => ?_⟩
    exact (atEvery_cons.mp hall).1 _ rfl (by simp)
  · obtain ⟨number, hheld⟩ := cdev_mem_of_mem_map (not_not.mp hcdev)
    have hheld' : .cdev p number ∈ (s.world.kfree p).ledger.held := mem_held_kfree hheld
    obtain ⟨file, s', hrun'⟩ := opened_of_cdev hrun hG hheld'
    refine ⟨_, s', hrun', ⟨[_], rfl⟩, fun hall => ?_⟩
    exact (atEvery_cons.mp hall).1 _ rfl (by simp)

/-- As long as remove frees only what no file and no registered cdev leads to, no
context is used after it was freed; where it frees anything else, steps that meet the
condition again lead to a use of it. -/
theorem notAfterFree_of_unreferenced (m : Machine) (o : Outcomes) :
    (∀ log s, RunWhere (system m o) FreesOnlyUnreferenced log s → AtEvery NotAfterFree log) ∧
      ∀ log s dev p, RunWhere (system m o) FreesOnlyUnreferenced log s → p ∈ nextFree s dev →
        ¬Unreferenced s p →
          ∃ log' s', RunWhere (system m o) (ButOnce log FreesOnlyUnreferenced) log' s' ∧
            .freed p :: log <:+ log' ∧ ¬AtEvery NotAfterFree log' :=
  ⟨fun _ _ h => (inv_run h).2, fun _ _ _ _ h => used_after_free h⟩

/-! ## One card -/

def probeAll (o : Outcomes) : List Action :=
  .probe 1 0x0100 :: List.replicate 36 (.run 1 o)

def removeAll (o : Outcomes) : List Action :=
  .remove 1 :: List.replicate 18 (.run 1 o)

/-- A card whose `cdev_add` failed can be removed, as nothing leads to its context. -/
theorem notAfterFree_of_unreferenced_no_cdev :
    ∃ log s, RunWhere (system ioCard allSucceed) FreesOnlyUnreferenced log s ∧
      .freed 1 ∈ log ∧ AtEvery NotAfterFree log := by
  obtain ⟨log, s, hrun, hfreed⟩ :=
    (system ioCard allSucceed).exists_runWhere_map_of_execWhere (G := FreesOnlyUnreferenced)
      (fun c => decide (.freed 1 ∈ c.1))
      (probeAll { allSucceed with cdevAdd := -12 } ++ removeAll allSucceed) (b := true) rfl
  exact ⟨log, s, hrun, of_decide_eq_true hfreed,
    (notAfterFree_of_unreferenced ioCard allSucceed).1 log s hrun⟩

/-- A card is removed under a WAIT, and the WAIT looks at its condition again. -/
theorem sleeping_wait_outlives_card :
    ¬∀ (m : Machine) (o : Outcomes) (log : List Event) (s : State),
      Run (system m o) log s → AtEvery NotAfterFree log := by
  intro hall
  obtain ⟨log, s, hrun, hlog⟩ :=
    (system ioCard allSucceed).exists_runWhere_map_of_exec (G := fun _ _ _ => True)
      (fun c => (c.1.head?, decide (.freed 1 ∈ c.1.tail)))
      (probeAll allSucceed ++ [.openCdev 5 1 0x0f000000, .ioctl 7 5 .irqWait, .resume 7] ++
        removeAll allSucceed ++ [.resume 7])
      (b := (some (.used 7 1), true)) (fun _ _ _ _ => trivial) rfl
  obtain ⟨hhead, hfreed⟩ := Prod.mk.inj hlog
  obtain ⟨older, rfl⟩ := List.head?_eq_some_iff.mp hhead
  exact (atEvery_cons.mp (hall _ _ _ s hrun)).1 1 rfl (of_decide_eq_true hfreed)

end Aiowdm.Proofs.HandleLifetime
