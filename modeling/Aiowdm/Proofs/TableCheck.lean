import Aiowdm.Driver.ModuleRuns

/-!
# The check of the two tables

The loop of `accesio_pci_init` runs to the length of the descriptor table and
reads the id table.  A shorter id table is refused at its zero, a longer one at
the entry after the last, so where the module is loaded the two name the same
cards, and the search of probe finds each of them.
-/

namespace Aiowdm.Proofs.TableCheck

open Aiowdm.Lib Aiowdm.Driver Aiowdm.Driver.DeviceContext Aiowdm.Driver.DeviceTable
open Aiowdm.Driver.Kernel Aiowdm.Driver.Probe Aiowdm.Driver.ModuleRuns

variable {table : List DeviceDescriptor} {ids : List Nat}

/-! ## The loop -/

theorem tablesMatch_ne_none (hpids : ∀ d ∈ table, d.pid ≠ 0) :
    tablesMatch table (ids ++ [0]) ≠ none := by
  induction table generalizing ids with
  | nil => cases ids <;> simp [tablesMatch]
  | cons d ds ih =>
      obtain ⟨hd, hds⟩ := List.forall_mem_cons.mp hpids
      cases ids with
      | nil => simp [tablesMatch, hd]
      | cons id ids =>
          rw [List.cons_append, tablesMatch]
          split_ifs
          · exact Option.some_ne_none _
          · exact ih hds

private theorem tablesMatch_eq_true_iff (hpids : ∀ d ∈ table, d.pid ≠ 0)
    (hids : ∀ id ∈ ids, id ≠ 0) :
    tablesMatch table (ids ++ [0]) = some true ↔ ids = table.map (·.pid) := by
  induction table generalizing ids with
  | nil =>
      cases ids with
      | nil => simp [tablesMatch]
      | cons id ids =>
          have hid : id ≠ 0 := hids id List.mem_cons_self
          simp [tablesMatch, hid]
  | cons d ds ih =>
      obtain ⟨hd, hds⟩ := List.forall_mem_cons.mp hpids
      cases ids with
      | nil => simp [tablesMatch, hd]
      | cons id ids =>
          obtain ⟨hid, hids⟩ := List.forall_mem_cons.mp hids
          rw [List.cons_append, tablesMatch, List.map_cons, List.cons_eq_cons]
          split_ifs with hne
          · simp [Ne.symm hne]
          · rw [ih hds hids]
            simp [not_not.mp hne]

/-! ## The search -/

theorem exists_lookupDescriptor {id : Nat} (hid : id ∈ table.map (·.pid)) :
    ∃ d ∈ table, lookupDescriptor table id = some d ∧ d.pid = id := by
  obtain ⟨d, hd, hpid⟩ := List.mem_map.mp hid
  have hsome : (table.find? fun d => decide (id = d.pid)).isSome := by
    rw [List.find?_isSome]
    exact ⟨d, hd, decide_eq_true hpid.symm⟩
  obtain ⟨found, hfound⟩ := Option.isSome_iff_exists.mp hsome
  have hp := List.find?_some hfound
  have heq : id = found.pid := of_decide_eq_true hp
  exact ⟨found, List.mem_of_find?_eq_some hfound, hfound, heq.symm⟩

/-! ## Loading -/

/-- Only a check that accepts comes to a call that can fail. -/
theorem accepted_of_returned_zero {ids : List Nat} (pci : PciDev → PciResources) (o : Outcomes)
    (w : World)
    (h : ((accesioPciInit table ids).exec (handler pci o) w).1 = .returned 0) :
    tablesMatch table ids = some true := by
  cases hm : tablesMatch table ids with
  | none => simp [accesioPciInit, hm] at h
  | some ok =>
      cases ok with
      | false => simp [accesioPciInit, hm] at h
      | true => rfl

private theorem step_loaded {m : Machine} {s s' : State} {a : Action} {e : Event}
    (hs : ModuleRuns.step m s a = some (e, s')) (hloaded : s'.loaded) :
    s.loaded ∨ tablesMatch m.table m.ids = some true := by
  cases a with
  | load o =>
      simp only [ModuleRuns.step] at hs
      split at hs <;> cases hs
      exact .inr (accepted_of_returned_zero m.pci o s.world (of_decide_eq_true hloaded))
  | probe dev device o =>
      simp only [ModuleRuns.step] at hs
      split at hs <;> cases hs
      exact .inl hloaded
  | remove dev o =>
      simp only [ModuleRuns.step] at hs
      split at hs <;> cases hs
      exact .inl hloaded
  | unload o =>
      simp only [ModuleRuns.step] at hs
      split at hs <;> cases hs
      cases hloaded

private theorem accepted_of_loaded {m : Machine} {w : World} {log : List Event} {s : State}
    (h : Run (ModuleRuns.system m w) log s) (hloaded : s.loaded) :
    tablesMatch m.table m.ids = some true := by
  induction h with
  | init => cases hloaded
  | step _ _ hs ih => exact (step_loaded hs hloaded).elim ih id

/-! ## Sound and complete -/

/-- What the check of the two tables promises. -/
structure ChecksTables (table : List DeviceDescriptor) (ids : List Nat) : Prop where
  inBounds : tablesMatch table (ids ++ [0]) ≠ none
  accepts : tablesMatch table (ids ++ [0]) = some true ↔ ids = table.map (·.pid)
  found : tablesMatch table (ids ++ [0]) = some true → ∀ id ∈ ids, ∃ d ∈ table,
    lookupDescriptor table id = some d ∧ d.pid = id
  foundInRuns : ∀ (pci : PciDev → PciResources) (w : World) (log : List Event) (s : State),
    Run (ModuleRuns.system ⟨pci, table, ids ++ [0]⟩ w) log s → s.loaded → ∀ id ∈ ids,
      ∃ d ∈ table, lookupDescriptor table id = some d ∧ d.pid = id

/-- For tables of every length the check reads inside the id table, accepts exactly
the pids in order, and leaves probe no id it cannot find. -/
theorem checksTables (table : List DeviceDescriptor) (hpids : ∀ d ∈ table, d.pid ≠ 0)
    (ids : List Nat) (hids : ∀ id ∈ ids, id ≠ 0) : ChecksTables table ids := by
  have haccepts := tablesMatch_eq_true_iff hpids hids
  have hfound : tablesMatch table (ids ++ [0]) = some true → ∀ id ∈ ids, ∃ d ∈ table,
      lookupDescriptor table id = some d ∧ d.pid = id := by
    intro hok id hid
    rw [haccepts.mp hok] at hid
    exact exists_lookupDescriptor hid
  exact ⟨tablesMatch_ne_none hpids, haccepts, hfound,
    fun _ _ _ _ hrun hloaded => hfound (accepted_of_loaded hrun hloaded)⟩

theorem checksTables_accesPciIdTable :
    ChecksTables accesioPciDeviceDescriptors accesPciIdTable.dropLast :=
  checksTables accesioPciDeviceDescriptors (by decide +kernel) accesPciIdTable.dropLast
    (by decide +kernel)

end Aiowdm.Proofs.TableCheck
