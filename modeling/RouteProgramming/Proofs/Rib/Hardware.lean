import RouteProgramming.Proofs.Rib.History

/-! What is acknowledged is in hardware. In every RIB with a history the
hardware has at least the installed entries, and exactly these when no failure
was ever injected. An acknowledgment speaks of both sides at the moment it is
made: a write that is acknowledged as installed is on both, a deletion that is
so acknowledged has left both, and a failure has changed neither. -/

namespace RouteProgramming.Rib

variable {r s : Rib} {c : Context} {o : Operation} {k : EntryKey}

/-! ### Without failures -/

/-- Only a failure that was pending orphans anything. -/
theorem Stepped.pending {v : Event} {ni : String} (h : Stepped r v s) (kind : v.isRemoval)
    (ho : Orphaned r s ni k) : 0 < r.plane.failures := by
  cases h with
  | cleared _ clearing =>
    have := clearing.spent
    have := ho.refused
    omega
  | edited h | wired _ h => exact absurd kind (by simp [h])
  | failing => contradiction

theorem Stepped.same {v : Event} (h : Stepped r v s) (working : r.plane.failures = 0)
    (same : ∀ ni k, r.programmed? ni k = r.installed? ni k) (ni : String) (k : EntryKey) :
    s.programmed? ni k = s.installed? ni k := by
  rcases h.agree ni k with ⟨hi, hp⟩ | hsame | ⟨kind, horphan⟩
  · rw [hi, hp, same]
  · exact hsame.symm
  · exact absurd working (Nat.ne_of_gt (h.pending kind horphan))

theorem run_same {es : List Event} (hc : r.Coherent) (quiet : ∀ n, .failNext n ∈ es → n = 0)
    (working : r.plane.failures = 0) (same : ∀ ni k, r.programmed? ni k = r.installed? ni k) (ni : String)
    (k : EntryKey) : (r.run es).programmed? ni k = (r.run es).installed? ni k := by
  induction es generalizing r with
  | nil => exact same ni k
  | cons v es ih =>
    have hstep := step_cases hc v
    refine ih (hstep.coherent hc) (fun n hn => quiet n (List.mem_cons_of_mem _ hn)) ?_
      (hstep.same working same)
    exact hstep.failures (fun n hn => quiet n (hn ▸ List.mem_cons_self)) working

/-! ### One operation -/

/-- What the acknowledgment of an operation says of both sides before it and after it. -/
structure Faithful (o : Operation) (a : Acknowledgment) (r s : Rib) : Prop where
  about : a.id = o.id ∧ a.op = o.op ∧ a.key = o.key
  written : a.outcome.isInstalled → o.op ≠ .delete →
    s.installed? o.networkInstance o.key = some o.entry ∧
      s.programmed? o.networkInstance o.key = some o.entry
  deleted : a.outcome.isInstalled → o.op = .delete →
    s.installed? o.networkInstance o.key = none ∧ s.programmed? o.networkInstance o.key = none
  failed : a.outcome = .failed → s.instances = r.instances ∧ s.plane.instances = r.plane.instances

theorem Upserted.ok {ni : String} {e : Entry} {mustExist : Bool}
    (h : Upserted r c ni e mustExist (.ok (), s)) :
    s.installed? ni e.key = some e ∧ s.programmed? ni e.key = some e := by
  cases h with
  | done known check working sound row programmed =>
    rw [installed?_put, if_pos rfl, row, Table.get?_insert_self, programmed?_put, if_pos rfl, programmed,
      if_pos rfl]
    exact ⟨rfl, rfl⟩

theorem Deleted.ok {ni : String} (h : Deleted r ni k (.ok (), s)) :
    s.installed? ni k = none ∧ s.programmed? ni k = none := by
  cases h with
  | done known free working sound row =>
    rw [installed?_put, if_pos rfl, row, Table.get?_erase_self, programmed?_put, if_pos rfl, Fib.get?_remove,
      if_pos rfl]
    exact ⟨rfl, rfl⟩

theorem Performed.error {f : Failure} (h : Performed r c o (.error f, s)) :
    s.instances = r.instances ∧ s.plane.instances = r.plane.instances := by
  cases h with
  | barred => exact ⟨rfl, rfl⟩
  | written election op upserted => cases upserted <;> exact ⟨rfl, rfl⟩
  | deleted election op deleted => cases deleted <;> exact ⟨rfl, rfl⟩

theorem isInstalled_success (c : Context) : c.success.isInstalled := by
  rw [Context.success]
  cases c.ackType <;> rfl

theorem apply_faithful (hc : r.Coherent) (c : Context) (o : Operation) :
    Faithful o (acknowledge o (r.apply c o).1) r (r.apply c o).2.2 := by
  by_cases hid : o.id = 0 ∨ o.id ≤ c.lastOperationId
  · rw [apply_of_stale hid]
    exact ⟨⟨rfl, rfl, rfl⟩, nofun, nofun, fun _ => ⟨rfl, rfl⟩⟩
  · rw [apply_of_fresh hid]
    have h := perform_cases hc (used c o) o
    generalize r.perform (used c o) o = out at h
    rcases out with ⟨f | ⟨⟩, s⟩
    · exact ⟨⟨rfl, rfl, rfl⟩, nofun, nofun, fun _ => h.error⟩
    · refine ⟨⟨rfl, rfl, rfl⟩, fun _ hop => ?_, fun _ hop => ?_, fun hfailed => ?_⟩
      · cases h with
        | written election op upserted => exact upserted.ok
        | deleted election op deleted => exact absurd op hop
      · cases h with
        | written election op upserted => exact absurd hop op
        | deleted election op deleted => exact deleted.ok
      · have := isInstalled_success c
        rw [show c.success = .failed from hfailed] at this
        contradiction

/-! ### Batches -/

theorem applyBatch_append (r : Rib) (c : Context) (os rest : List Operation) :
    r.applyBatch c (os ++ rest) =
      ((r.applyBatch c os).1 ++ ((r.applyBatch c os).2.2.applyBatch (r.applyBatch c os).2.1 rest).1,
        ((r.applyBatch c os).2.2.applyBatch (r.applyBatch c os).2.1 rest).2) := by
  induction os generalizing r c with
  | nil => rfl
  | cons o os ih =>
    simp only [List.cons_append, applyBatch, ih]

theorem length_applyBatch (r : Rib) (c : Context) (os : List Operation) :
    (r.applyBatch c os).1.length = os.length := by
  induction os generalizing r c with
  | nil => rfl
  | cons o os ih => simp only [applyBatch, List.length_cons, ih]

/-- A batch has one acknowledgment for each operation, in order. -/
theorem map_about_applyBatch (r : Rib) (c : Context) (os : List Operation) :
    (r.applyBatch c os).1.map (fun a => (a.id, a.op, a.key)) = os.map (fun o => (o.id, o.op, o.key)) := by
  induction os generalizing r c with
  | nil => rfl
  | cons o os ih =>
    have habout (result : Except Failure Outcome) : (acknowledge o result).id = o.id ∧
        (acknowledge o result).op = o.op ∧ (acknowledge o result).key = o.key := by
      cases result <;> exact ⟨rfl, rfl, rfl⟩
    simp only [applyBatch, List.map_cons, ih, habout]

theorem getElem?_applyBatch (r : Rib) (c : Context) (os : List Operation) (o : Operation)
    (rest : List Operation) : (r.applyBatch c (os ++ o :: rest)).1[os.length]? =
      some (acknowledge o ((r.applyBatch c os).2.2.apply (r.applyBatch c os).2.1 o).1) := by
  rw [applyBatch_append, ← r.length_applyBatch c os, List.getElem?_append_right (Nat.le_refl _), Nat.sub_self]
  rfl

/-- Every operation of a batch has an acknowledgment that is faithful at its moment. -/
theorem applyBatch_faithful (hc : r.Coherent) (c : Context) (os : List Operation) (o : Operation)
    (rest : List Operation) : ∃ a, (r.applyBatch c (os ++ o :: rest)).1[os.length]? = some a ∧
      Faithful o a (r.applyBatch c os).2.2 (r.applyBatch c (os ++ [o])).2.2 := by
  have hfaithful := apply_faithful ((applyBatch_edit hc c os).coherent hc) (r.applyBatch c os).2.1 o
  refine ⟨_, r.getElem?_applyBatch c os o rest, ?_⟩
  rw [applyBatch_append]
  exact ⟨hfaithful.about, hfaithful.written, hfaithful.deleted, hfaithful.failed⟩

end RouteProgramming.Rib

namespace RouteProgramming.History

open Rib

/-- What is installed is programmed, and without failures nothing else is; every acknowledgment is
faithful; and the hardware never misses what an entry needs. -/
theorem hardware_backs (h : History) :
    (∀ ni k e, h.rib.installed? ni k = some e → h.rib.programmed? ni k = some e) ∧
    (h.Quiet → ∀ ni k, h.rib.programmed? ni k = h.rib.installed? ni k) ∧
    (∀ c os o rest, ∃ a, (h.rib.applyBatch c (os ++ o :: rest)).1[os.length]? = some a ∧
      Faithful o a (h.rib.applyBatch c os).2.2 (h.rib.applyBatch c (os ++ [o])).2.2) ∧
    ∀ c o k d, (h.rib.apply c o).1 ≠ .error (.rejected k (.missing d)) := by
  refine ⟨h.coherent.backed, fun quiet => ?_, applyBatch_faithful h.coherent, fun c o k d hf => ?_⟩
  · refine run_same (create_coherent ..) quiet rfl fun ni k => ?_
    rw [programmed?_create, installed?_create]
  · have := apply_external h.coherent hf
    contradiction

theorem hardware_backs_oneRoute : (oneRoute []).Quiet ∧
    (oneRoute []).rib.installed? "DEFAULT" (.ipv4 documentation) = some (.ipv4 ⟨documentation, 10⟩) ∧
    (oneRoute []).rib.programmed? "DEFAULT" (.ipv4 documentation) = some (.ipv4 ⟨documentation, 10⟩) ∧
    ∀ ni k, (oneRoute []).rib.programmed? ni k = (oneRoute []).rib.installed? ni k := by
  have hquiet : (oneRoute []).Quiet := fun n hn => by simp [oneRoute] at hn
  have hinstalled : (oneRoute []).rib.installed? "DEFAULT" (.ipv4 documentation) =
      some (.ipv4 ⟨documentation, 10⟩) := rfl
  have hbacks := hardware_backs (oneRoute [])
  exact ⟨hquiet, hinstalled, hbacks.1 _ _ _ hinstalled, hbacks.2.1 hquiet⟩

end RouteProgramming.History
