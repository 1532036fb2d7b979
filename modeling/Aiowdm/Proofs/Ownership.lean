import Aiowdm.Proofs.SetupCalls

/-!
# Which card owns which context

While a probe or a remove of a card runs, it owns at most one context: the one
it has allocated, or the one `drvdata` gave it.  No two cards ever refer to one
context, so what one frees no other uses.
-/

namespace Aiowdm.Proofs.Ownership

open Aiowdm.Lib Aiowdm.Driver.DeviceContext Aiowdm.Driver.DeviceTable Aiowdm.Driver.Kernel
open Aiowdm.Driver.Probe Aiowdm.Proofs.SetupCalls

/-- What the function that runs for a card owns; `freed` until it has reset
`drvdata`. -/
inductive Own where
  | nothing
  | owns (context : Ptr)
  | freed
deriving DecidableEq

def Own.ofReply : Option Ptr → Own
  | some context => .owns context
  | none => .nothing

/-- The calls that concern ownership, each where it is in order. -/
def Permits (dev : PciDev) (own : Own) : KernelCall → Prop
  | .kzalloc => own = .nothing
  | .pciGetDrvdata pci => pci = dev ∧ own = .nothing
  | .pciSetDrvdata pci (some context) => pci = dev ∧ own = .owns context
  | .pciSetDrvdata pci none => pci = dev ∧ own = .freed
  | .kfree context => own = .owns context
  | .cdevAdd context _ => own = .owns context
  | _ => True

def next (own : Own) : (c : KernelCall) → KernelCall.Reply c → Own
  | .kzalloc, context => .ofReply context
  | .pciGetDrvdata _, context => .ofReply context
  | .pciSetDrvdata _ none, _ => .nothing
  | .kfree _, _ => .freed
  | _, _ => own

def ownership (dev : PciDev) : Protocol kernel Own where
  Permits := Permits dev
  next := next

/-- A function may end as long as it has not left a dangling `drvdata`. -/
def EndsClean {α : Type} (_ : α) (own : Own) : Prop := own ≠ .freed

/-! ## Probe and remove follow the protocol -/

variable (dev : PciDev) (context : Ptr)

private theorem permits_of_probeCall {c : KernelCall} (h : ProbeCall dev context c) :
    Permits dev (.owns context) c ∧ ∀ r, next (.owns context) c r = .owns context := by
  cases c with
  | pciSetDrvdata pci p =>
      obtain ⟨rfl, rfl⟩ := h
      exact ⟨⟨rfl, rfl⟩, fun _ => rfl⟩
  | cdevAdd p number =>
      cases h
      exact ⟨rfl, fun _ => rfl⟩
  | _ => first | exact h.elim | exact ⟨trivial, fun _ => rfl⟩

private theorem permits_of_removeCall {c : KernelCall} (h : RemoveCall dev context c) :
    Permits dev (.owns context) c ∧ ∀ r, next (.owns context) c r = .owns context := by
  cases c <;> first | exact h.elim | exact ⟨trivial, fun _ => rfl⟩

theorem follows_accesioPciDriverProbe (table : List DeviceDescriptor) (device : Nat) :
    (accesioPciDriverProbe table dev device).Follows (ownership dev) EndsClean .nothing := by
  refine .perform_bind trivial fun status => ?_
  split
  · exact Own.noConfusion
  · refine .perform_bind trivial fun status => ?_
    split
    · exact Own.noConfusion
    · refine .perform_bind rfl fun context => ?_
      cases context with
      | none => exact Own.noConfusion
      | some context =>
          refine .of_every ?_ fun _ => Own.noConfusion
          exact (every_probeContext dev context table device).mono
            fun _ => permits_of_probeCall dev context

theorem follows_accesioPciDriverRemove :
    (accesioPciDriverRemove (some dev)).Follows (ownership dev) EndsClean .nothing := by
  refine .perform_bind ⟨rfl, rfl⟩ fun context => ?_
  cases context with
  | none => exact Own.noConfusion
  | some context =>
      refine .perform_bind trivial fun c => ?_
      split
      · exact Own.noConfusion
      · refine .perform_bind trivial fun irq => .perform_bind trivial fun _ => .bind ?_
        refine .of_every ((every_removeBars dev context _).mono
          fun _ => permits_of_removeCall dev context) fun _ => ?_
        refine .perform_bind trivial fun _ => .perform_bind trivial fun charClass => ?_
        refine .perform_bind trivial fun c => .perform_bind trivial fun _ => ?_
        refine .perform_bind rfl fun _ => .perform_bind ⟨rfl, rfl⟩ fun _ => ?_
        exact Own.noConfusion

/-! ## What a call does to the contexts -/

section Frame

variable (pci : PciDev → PciResources) (o : Outcomes) (w : World)

def MovesContexts : KernelCall → Prop
  | .kzalloc | .kfree _ | .pciSetDrvdata _ _ => True
  | _ => False

theorem live_store (p q : Ptr) (field : Store) : (w.store p field).live q = w.live q := by
  by_cases hq : q = p
  · subst q
    simp [World.live, World.store]
  · simp [World.live, World.store, hq]

theorem frame_acquireIf (ok : Prop) [Decidable ok] (r : Resource) :
    (w.acquireIf ok r).drvdata = w.drvdata ∧ (w.acquireIf ok r).contexts = w.contexts ∧
      (w.acquireIf ok r).nextPtr = w.nextPtr := by
  unfold World.acquireIf
  split <;> exact ⟨rfl, rfl, rfl⟩

theorem frame_handler {c : KernelCall} (hc : ¬MovesContexts c) :
    (handler pci o c w).2.drvdata = w.drvdata ∧
      (∀ p, (handler pci o c w).2.live p = w.live p) ∧
      w.nextPtr ≤ (handler pci o c w).2.nextPtr := by
  have hacquire (ok : Prop) [Decidable ok] (r : Resource) :
      (w.acquireIf ok r).drvdata = w.drvdata ∧ (∀ p, (w.acquireIf ok r).live p = w.live p) ∧
        w.nextPtr ≤ (w.acquireIf ok r).nextPtr := by
    obtain ⟨hd, hc, hn⟩ := frame_acquireIf w ok r
    exact ⟨hd, fun p => by rw [World.live, hc]; rfl, hn.ge⟩
  cases c
  case kzalloc | kfree | pciSetDrvdata => exact absurd trivial hc
  case pciEnableDevice | pciRequestRegions | requestIrq | cdevAdd | deviceCreate | classCreate
    | pciRegisterDriver | allocChrdevRegion => exact hacquire _ _
  case store p field => exact ⟨rfl, fun q => live_store w p q field, le_rfl⟩
  case pciIomap dev bar =>
    simp only [handler]
    cases o.pciIomap bar <;> exact ⟨rfl, fun _ => rfl, le_rfl⟩
  case kmalloc =>
    simp only [handler]
    split
    · exact ⟨rfl, fun _ => rfl, Nat.le_succ _⟩
    · exact ⟨rfl, fun _ => rfl, le_rfl⟩
  all_goals exact ⟨rfl, fun _ => rfl, le_rfl⟩

end Frame

/-! ## The invariant -/

theorem forall_update {β γ : Type} {R : PciDev → β → γ → Prop} {f : PciDev → β} {g : PciDev → γ}
    {dev : PciDev} {x : β} {y : γ} (h : ∀ d, R d (f d) (g d)) (hdev : R dev x y) (d : PciDev) :
    R d (Function.update f dev x d) (Function.update g dev y d) := by
  by_cases hd : d = dev
  · subst d
    rw [Function.update_self, Function.update_self]
    exact hdev
  · rw [Function.update_of_ne hd, Function.update_of_ne hd]
    exact h d

def Refers (w : World) (own : PciDev → Own) (dev : PciDev) (p : Ptr) : Prop :=
  own dev = .owns p ∨ w.drvdata dev = some p

/-- What is owned is live, so is what `drvdata` points to except between the two
last calls of remove, and no two cards refer to one context. -/
structure Owned (w : World) (own : PciDev → Own) : Prop where
  live : ∀ dev p, own dev = .owns p → w.live p
  drvdata : ∀ dev p, w.drvdata dev = some p → own dev ≠ .freed → w.live p
  below : ∀ dev p, Refers w own dev p → p < w.nextPtr
  exclusive : ∀ dev dev' p, Refers w own dev p → Refers w own dev' p → dev = dev'

variable {w w' : World} {own : PciDev → Own} {dev}

theorem Owned.of_refers {own' : PciDev → Own} (h : Owned w own) (hn : w.nextPtr ≤ w'.nextPtr)
    (hr : ∀ d p, Refers w' own' d p → Refers w own d p)
    (hlive : ∀ d p, own' d = .owns p → w'.live p)
    (hdrv : ∀ d p, w'.drvdata d = some p → own' d ≠ .freed → w'.live p) : Owned w' own' where
  live := hlive
  drvdata := hdrv
  below d p hp := (h.below d p (hr d p hp)).trans_le hn
  exclusive d d' p hp hp' := h.exclusive d d' p (hr d p hp) (hr d' p hp')

theorem Owned.frame (h : Owned w own) (hd : w'.drvdata = w.drvdata)
    (hl : ∀ p, w'.live p = w.live p) (hn : w.nextPtr ≤ w'.nextPtr) : Owned w' own := by
  refine h.of_refers hn (fun d p hp => by rwa [Refers, ← hd]) (fun d p hp => ?_)
    (fun d p hp hown => ?_)
  · rw [hl]
    exact h.live d p hp
  · rw [hl]
    exact h.drvdata d p (hd ▸ hp) hown

theorem live_kzalloc (w : World) (p : Ptr) :
    w.kzalloc.live p = (decide (p = w.nextPtr) || w.live p) := by
  by_cases hp : p = w.nextPtr
  · simp [World.live, World.kzalloc, hp]
  · simp [World.live, World.kzalloc, World.alloc, World.acquire, hp]

theorem live_kfree (w : World) (p q : Ptr) :
    (w.kfree p).live q = (decide (q ≠ p) && w.live q) := by
  by_cases hq : q = p
  · simp [World.live, World.kfree, hq]
  · simp [World.live, World.kfree, World.release, hq]

theorem owns_of_update {x : Own} (hx : ∀ p, x ≠ .owns p) {d : PciDev} {p : Ptr}
    (hp : Function.update own dev x d = .owns p) : d ≠ dev ∧ own d = .owns p := by
  by_cases hd : d = dev
  · subst d
    rw [Function.update_self] at hp
    exact absurd hp (hx p)
  · rw [Function.update_of_ne hd] at hp
    exact ⟨hd, hp⟩

theorem Owned.kzalloc (h : Owned w own) (hown : own dev = .nothing) :
    Owned w.kzalloc (Function.update own dev (.owns w.nextPtr)) := by
  have hrefers (d : PciDev) (p : Ptr)
      (hp : Refers w.kzalloc (Function.update own dev (.owns w.nextPtr)) d p) :
      d = dev ∧ p = w.nextPtr ∨ Refers w own d p := by
    rcases hp with hp | hp
    · by_cases hd : d = dev
      · subst d
        simp only [Function.update_self, Own.owns.injEq] at hp
        exact .inl ⟨rfl, hp.symm⟩
      · exact .inr (.inl (by simpa [hd] using hp))
    · exact .inr (.inr hp)
  refine ⟨fun d p hp => ?_, fun d p hp hf => ?_, fun d p hp => ?_, fun d d' p hp hp' => ?_⟩
  · rw [live_kzalloc]
    by_cases hd : d = dev
    · subst d
      simp only [Function.update_self, Own.owns.injEq] at hp
      simp [hp]
    · rw [h.live d p (by simpa [hd] using hp), Bool.or_true]
  · rw [live_kzalloc, h.drvdata d p hp, Bool.or_true]
    intro hfreed
    by_cases hd : d = dev
    · subst d
      exact Own.noConfusion (hown.symm.trans hfreed)
    · exact hf (by simpa [hd] using hfreed)
  · rcases hrefers d p hp with ⟨_, rfl⟩ | hp
    · exact Nat.lt_succ_self _
    · exact (h.below d p hp).trans (Nat.lt_succ_self _)
  · rcases hrefers d p hp with ⟨hd, heq⟩ | hp <;> rcases hrefers d' p hp' with ⟨hd', heq'⟩ | hp'
    · exact hd.trans hd'.symm
    · exact absurd (heq ▸ h.below d' p hp') (Nat.lt_irrefl _)
    · exact absurd (heq' ▸ h.below d p hp) (Nat.lt_irrefl _)
    · exact h.exclusive d d' p hp hp'

theorem Owned.pciGetDrvdata (h : Owned w own) (hown : own dev = .nothing) :
    Owned w (Function.update own dev (.ofReply (w.drvdata dev))) := by
  have hof (p : Ptr) (hp : Own.ofReply (w.drvdata dev) = .owns p) : w.drvdata dev = some p := by
    cases hd : w.drvdata dev with
    | none => simp [hd, Own.ofReply] at hp
    | some q => simpa [hd, Own.ofReply] using hp
  have hnot : own dev ≠ .freed := hown ▸ Own.noConfusion
  refine h.of_refers le_rfl (fun d p hp => ?_) (fun d p hp => ?_) fun d p hp hf => ?_
  · by_cases hd : d = dev
    · subst d
      rcases hp with hp | hp
      · exact .inr (hof p (by simpa using hp))
      · exact .inr hp
    · simpa [Refers, hd] using hp
  · by_cases hd : d = dev
    · subst d
      exact h.drvdata dev p (hof p (by simpa using hp)) hnot
    · exact h.live d p (by simpa [hd] using hp)
  · by_cases hd : d = dev
    · exact h.drvdata d p hp (hd ▸ hnot)
    · exact h.drvdata d p hp (by simpa [hd] using hf)

theorem Owned.setDrvdata_some (h : Owned w own) {p : Ptr} (hown : own dev = .owns p) :
    Owned (w.setDrvdata dev (some p)) own := by
  refine h.of_refers le_rfl (fun d q hq => ?_) h.live fun d q hq hf => ?_
  · rcases hq with hq | hq
    · exact .inl hq
    · by_cases hd : d = dev
      · subst d
        exact .inl (by simpa [World.setDrvdata, hown] using hq)
      · exact .inr (by simpa [World.setDrvdata, hd] using hq)
  · by_cases hd : d = dev
    · subst d
      exact h.live dev q (by simpa [World.setDrvdata, hown] using hq)
    · exact h.drvdata d q (by simpa [World.setDrvdata, hd] using hq) hf

theorem Owned.setDrvdata_none (h : Owned w own) :
    Owned (w.setDrvdata dev none) (Function.update own dev .nothing) := by
  have hne (d : PciDev) (q : Ptr) (hq : (w.setDrvdata dev none).drvdata d = some q) :
      d ≠ dev ∧ w.drvdata d = some q := by
    by_cases hd : d = dev
    · simp [World.setDrvdata, hd] at hq
    · exact ⟨hd, by simpa [World.setDrvdata, hd] using hq⟩
  have hown (d : PciDev) (q : Ptr) (hq : Function.update own dev .nothing d = .owns q) :
      own d = .owns q := (owns_of_update (fun _ => Own.noConfusion) hq).2
  refine h.of_refers le_rfl (fun d q hq => hq.imp (hown d q) fun hq => (hne d q hq).2)
    (fun d q hq => h.live d q (hown d q hq)) fun d q hq hf => ?_
  obtain ⟨hd, hq⟩ := hne d q hq
  exact h.drvdata d q hq (by simpa [hd] using hf)

/-- Freeing a context frees no other card's, as no other card refers to it. -/
theorem Owned.kfree (h : Owned w own) {p : Ptr} (hown : own dev = .owns p) :
    Owned (w.kfree p) (Function.update own dev .freed) := by
  have hne (d : PciDev) (q : Ptr) (hd : d ≠ dev) (hq : Refers w own d q) : q ≠ p := by
    rintro rfl
    exact hd (h.exclusive d dev q hq (.inl hown))
  have hown' (d : PciDev) (q : Ptr) (hq : Function.update own dev .freed d = .owns q) :
      d ≠ dev ∧ own d = .owns q := owns_of_update (fun _ => Own.noConfusion) hq
  refine h.of_refers le_rfl (fun d q hq => hq.imp (fun hq => (hown' d q hq).2) id)
    (fun d q hq => ?_) fun d q hq hf => ?_
  · obtain ⟨hd, hq⟩ := hown' d q hq
    simp [live_kfree, hne d q hd (.inl hq), h.live d q hq]
  · have hd : d ≠ dev := fun hd => hf (by simp [hd])
    have hf' : own d ≠ .freed := by simpa [hd] using hf
    simp [live_kfree, hne d q hd (.inr hq), h.drvdata d q hq hf']

theorem Owned.forget (h : Owned w own) (hown : own dev ≠ .freed) :
    Owned w (Function.update own dev .nothing) := by
  have howns (d : PciDev) (q : Ptr) (hq : Function.update own dev .nothing d = .owns q) :
      own d = .owns q := (owns_of_update (fun _ => Own.noConfusion) hq).2
  refine h.of_refers le_rfl (fun d q hq => hq.imp (howns d q) id)
    (fun d q hq => h.live d q (howns d q hq)) fun d q hq hf => h.drvdata d q hq ?_
  by_cases hd : d = dev
  · exact hd ▸ hown
  · simpa [hd] using hf

theorem Owned.keep (h : Owned w own) {x : Own} (hx : x = own dev) :
    Owned w (Function.update own dev x) := by
  rwa [hx, Function.update_eq_self]

theorem Owned.call (h : Owned w own) (pci : PciDev → PciResources) (o : Outcomes)
    {c : KernelCall} (hc : Permits dev (own dev) c) :
    Owned (handler pci o c w).2
      (Function.update own dev (next (own dev) c (handler pci o c w).1)) := by
  by_cases hmoves : MovesContexts c
  · cases c with
    | kzalloc =>
        have hcall : handler pci o .kzalloc w =
            if o.kzalloc then (some w.nextPtr, w.kzalloc) else (none, w) := rfl
        cases hok : o.kzalloc with
        | false =>
            rw [hcall, hok]
            exact h.keep hc.symm
        | true =>
            rw [hcall, hok]
            exact h.kzalloc hc
    | kfree p => exact h.kfree hc
    | pciSetDrvdata pci p =>
        cases p with
        | none =>
            obtain ⟨rfl, _⟩ := hc
            exact h.setDrvdata_none
        | some p =>
            obtain ⟨rfl, hown⟩ := hc
            exact (h.setDrvdata_some hown).keep rfl
    | _ => exact hmoves.elim
  · obtain ⟨hd, hl, hn⟩ := frame_handler pci o w hmoves
    have hframe := h.frame hd hl hn
    cases c with
    | kzalloc | kfree | pciSetDrvdata => exact absurd trivial hmoves
    | pciGetDrvdata pci =>
        obtain ⟨rfl, hown⟩ := hc
        exact h.pciGetDrvdata hown
    | _ => exact hframe.keep rfl

theorem owned_fresh : Owned .fresh fun _ => .nothing where
  live _ _ hp := Own.noConfusion hp
  drvdata _ _ hp := absurd hp (by simp [World.fresh])
  below _ _ hp := hp.elim Own.noConfusion fun hp => absurd hp (by simp [World.fresh])
  exclusive _ _ _ hp := hp.elim Own.noConfusion fun hp => absurd hp (by simp [World.fresh])

end Aiowdm.Proofs.Ownership
