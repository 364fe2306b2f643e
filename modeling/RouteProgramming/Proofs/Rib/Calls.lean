import RouteProgramming.Proofs.Rib.Steps

/-! What a whole call does to each key of each network instance. A batch leaves
a key alone or leaves it the same on both sides. A bulk removal leaves a key
alone, clears it on both sides, or orphans it: the tables no longer have the
entry, and the hardware, having refused to let it go, still has. Both relations
hold of single steps, compose, and keep a RIB coherent. -/

namespace RouteProgramming.Rib

variable {r s t : Rib} {c : Context} {ni : String} {k : EntryKey}

/-- What batches and bulk removals have in common. -/
structure Advance (r s : Rib) : Prop where
  capacity : s.capacity = r.capacity
  refusals : r.stats.forwardingFailures ≤ s.stats.forwardingFailures
  /-- Every refusal uses up one of the failures that the plane has left. -/
  spent : s.stats.forwardingFailures + s.plane.failures = r.stats.forwardingFailures + r.plane.failures
  sound : ∀ ni a, s.instances.get? ni = some a → a.Sound
  bounded : ∀ ni a, s.instances.get? ni = some a → ∀ kind, a.sizeOf kind ≤ s.capacity

structure Edit (r s : Rib) : Prop extends Advance r s where
  agree : ∀ ni k, (s.installed? ni k = r.installed? ni k ∧ s.programmed? ni k = r.programmed? ni k) ∨
    s.installed? ni k = s.programmed? ni k

/-- A key that a bulk removal took from the tables although the hardware kept it. -/
structure Orphaned (r s : Rib) (ni : String) (k : EntryKey) : Prop where
  was : (r.installed? ni k).isSome
  gone : s.installed? ni k = none
  stays : s.programmed? ni k = r.programmed? ni k
  refused : r.stats.forwardingFailures < s.stats.forwardingFailures

structure Cleared (r s : Rib) (ni : String) (k : EntryKey) : Prop where
  was : (r.installed? ni k).isSome
  gone : s.installed? ni k = none
  withdrawn : s.programmed? ni k = none

structure Clearing (r s : Rib) : Prop extends Advance r s where
  agree : ∀ ni k, (s.installed? ni k = r.installed? ni k ∧ s.programmed? ni k = r.programmed? ni k) ∨
    Cleared r s ni k ∨ Orphaned r s ni k
  /-- No refusal is without a trace. -/
  orphans : r.stats.forwardingFailures < s.stats.forwardingFailures → ∃ ni k, Orphaned r s ni k

/-! ### Composition -/

theorem Advance.trans (h : Advance r s) (h' : Advance s t) : Advance r t :=
  ⟨h'.capacity.trans h.capacity, Nat.le_trans h.refusals h'.refusals, h'.spent.trans h.spent,
    h'.sound, h'.bounded⟩

theorem Edit.trans (h : Edit r s) (h' : Edit s t) : Edit r t := by
  refine ⟨h.toAdvance.trans h'.toAdvance, fun ni k => ?_⟩
  rcases h'.agree ni k with ⟨hi, hp⟩ | hsame
  · rcases h.agree ni k with ⟨hi', hp'⟩ | hsame
    · exact .inl ⟨hi.trans hi', hp.trans hp'⟩
    · exact .inr (by rw [hi, hp, hsame])
  · exact .inr hsame

/-- Nothing that is orphaned comes back. -/
theorem Orphaned.trans_clearing (ho : Orphaned r s ni k) (h' : Clearing s t) : Orphaned r t ni k := by
  rcases h'.agree ni k with ⟨hi, hp⟩ | hclear | horphan
  · exact ⟨ho.was, hi.trans ho.gone, hp.trans ho.stays, Nat.lt_of_lt_of_le ho.refused h'.refusals⟩
  · have := hclear.was
    rw [ho.gone] at this
    contradiction
  · have := horphan.was
    rw [ho.gone] at this
    contradiction

/-- What is orphaned now was installed until now, so that the calls before left it alone. -/
theorem Clearing.trans_orphaned (h : Clearing r s) (ho : Orphaned s t ni k) : Orphaned r t ni k := by
  have hwas := ho.was
  rcases h.agree ni k with ⟨hi, hp⟩ | hclear | horphan
  · exact ⟨hi ▸ hwas, ho.gone, ho.stays.trans hp, Nat.lt_of_le_of_lt h.refusals ho.refused⟩
  · rw [hclear.gone] at hwas
    contradiction
  · rw [horphan.gone] at hwas
    contradiction

theorem Clearing.trans (h : Clearing r s) (h' : Clearing s t) : Clearing r t := by
  refine ⟨h.toAdvance.trans h'.toAdvance, fun ni k => ?_, fun hgrew => ?_⟩
  · rcases h.agree ni k with ⟨hi, hp⟩ | hclear | horphan
    · rcases h'.agree ni k with ⟨hi', hp'⟩ | hclear | horphan
      · exact .inl ⟨hi'.trans hi, hp'.trans hp⟩
      · exact .inr (.inl ⟨hi ▸ hclear.was, hclear.gone, hclear.withdrawn⟩)
      · exact .inr (.inr (h.trans_orphaned horphan))
    · rcases h'.agree ni k with ⟨hi', hp'⟩ | hclear' | horphan
      · exact .inr (.inl ⟨hclear.was, hi'.trans hclear.gone, hp'.trans hclear.withdrawn⟩)
      · exact .inr (.inl ⟨hclear.was, hclear'.gone, hclear'.withdrawn⟩)
      · exact .inr (.inr (h.trans_orphaned horphan))
    · exact .inr (.inr (horphan.trans_clearing h'))
  · rcases Nat.lt_or_ge r.stats.forwardingFailures s.stats.forwardingFailures with hfirst | hfirst
    · obtain ⟨ni, k, ho⟩ := h.orphans hfirst
      exact ⟨ni, k, ho.trans_clearing h'⟩
    · obtain ⟨ni, k, ho⟩ := h'.orphans (Nat.lt_of_le_of_lt hfirst hgrew)
      exact ⟨ni, k, h.trans_orphaned ho⟩

theorem Coherent.advance (hc : r.Coherent) : Advance r r :=
  ⟨rfl, Nat.le_refl _, rfl, hc.sound, hc.bounded⟩

theorem Coherent.edit (hc : r.Coherent) : Edit r r := ⟨hc.advance, fun _ _ => .inl ⟨rfl, rfl⟩⟩

theorem Coherent.clearing (hc : r.Coherent) : Clearing r r :=
  ⟨hc.advance, fun _ _ => .inl ⟨rfl, rfl⟩, fun hgrew => absurd hgrew (Nat.lt_irrefl _)⟩

theorem Edit.coherent (h : Edit r s) (hc : r.Coherent) : s.Coherent := by
  refine ⟨h.sound, h.bounded, fun ni k e he => ?_⟩
  rcases h.agree ni k with ⟨hi, hp⟩ | hsame
  · rw [hp]
    exact hc.backed ni k e (hi ▸ he)
  · rw [← hsame, he]

theorem Clearing.coherent (h : Clearing r s) (hc : r.Coherent) : s.Coherent := by
  refine ⟨h.sound, h.bounded, fun ni k e he => ?_⟩
  rcases h.agree ni k with ⟨hi, hp⟩ | hclear | ho
  · rw [hp]
    exact hc.backed ni k e (hi ▸ he)
  · rw [hclear.gone] at he
    contradiction
  · rw [ho.gone] at he
    contradiction

/-! ### Single steps -/

theorem spent_refuse (failing : 0 < r.plane.failures) :
    r.refuse.stats.forwardingFailures + r.refuse.plane.failures =
      r.stats.forwardingFailures + r.plane.failures := by
  simp only [refuse, countRejection]
  omega

theorem Coherent.edit_refuse (hc : r.Coherent) (failing : 0 < r.plane.failures) : Edit r r.refuse :=
  ⟨⟨rfl, Nat.le_succ _, spent_refuse failing, hc.sound, hc.bounded⟩, fun _ _ => .inl ⟨rfl, rfl⟩⟩

/-- New tables for a network instance, where every key is as before or the same on both sides. -/
theorem Coherent.edit_put {a b : Aft} {f : Fib} (hc : r.Coherent) (known : r.instances.get? ni = some a)
    (sound : b.Sound) (bounded : ∀ kind, b.sizeOf kind ≤ r.capacity)
    (agree : ∀ k, (b.installed.get? k = a.installed.get? k ∧ f.get? k = (r.plane.fib ni).get? k) ∨
      (b.installed.get? k).map (·.entry) = f.get? k) : Edit r (r.put ni b f) := by
  refine ⟨⟨rfl, Nat.le_refl _, rfl, Table.forall_get?_insert hc.sound sound,
    Table.forall_get?_insert hc.bounded bounded⟩, fun ni' k => ?_⟩
  rw [installed?_put, programmed?_put]
  split
  case isTrue hni =>
    subst hni
    rcases agree k with ⟨hi, hp⟩ | hsame
    · exact .inl ⟨by rw [hi, installed?_of_get? known], hp⟩
    · exact .inr hsame
  case isFalse => exact .inl ⟨rfl, rfl⟩

theorem sizeOf_written_le {a b : Aft} {e : Entry} {i : Installed Entry} {capacity : Nat} {mustExist : Bool}
    (check : checkWrite a capacity ni e mustExist = .ok ()) (row : b.installed = a.installed.insert e.key i)
    (ha : ∀ kind, a.sizeOf kind ≤ capacity) (kind : EntryKind) : b.sizeOf kind ≤ capacity := by
  obtain ⟨-, -, hroom, -⟩ := checkWrite_ok check
  rw [Aft.sizeOf_insert row]
  split
  case isTrue h =>
    obtain ⟨rfl, hnew⟩ := h
    exact hroom.resolve_left hnew
  case isFalse => exact ha kind

theorem Upserted.edit {e : Entry} {mustExist : Bool} {out : Except Failure Unit × Rib} (hc : r.Coherent)
    (h : Upserted r c ni e mustExist out) : Edit r out.2 := by
  cases h with
  | unknown | refused => exact hc.edit
  | rejected known check failing => exact hc.edit_refuse failing
  | done known check working sound row programmed =>
    refine hc.edit_put known sound (sizeOf_written_le check row (hc.bounded ni _ known)) fun k => ?_
    rw [row, Table.get?_insert, programmed]
    split
    · exact .inr rfl
    · exact .inl ⟨rfl, rfl⟩

/-- Erasing a key on both sides. -/
theorem Coherent.edit_erase {a b : Aft} (hc : r.Coherent) (known : r.instances.get? ni = some a)
    (sound : b.Sound) (row : b.installed = a.installed.erase k) :
    Edit r (r.put ni b ((r.plane.fib ni).remove k)) := by
  refine hc.edit_put known sound (fun kind => ?_) fun k' => ?_
  · exact Nat.le_trans (Aft.sizeOf_erase_le row kind) (hc.bounded ni _ known kind)
  · rw [row, Table.get?_erase, Fib.get?_remove]
    split
    · exact .inr rfl
    · exact .inl ⟨rfl, rfl⟩

theorem Deleted.edit {out : Except Failure Unit × Rib} (hc : r.Coherent) (h : Deleted r ni k out) :
    Edit r out.2 := by
  cases h with
  | unknown | absent | held => exact hc.edit
  | rejected known free failing => exact hc.edit_refuse failing
  | done known free working sound row => exact hc.edit_erase known sound row

theorem isSome_installed? {a : Aft} {n : Nat} (known : r.instances.get? ni = some a)
    (hk : a.holders? k = some n) : (r.installed? ni k).isSome := by
  obtain ⟨h, hget, -⟩ := Option.map_eq_some_iff.1 hk
  rw [installed?, known]
  simp [hget]

/-! ### A removed key -/

section Removed

variable {a b : Aft} {ni' : String} {k' : EntryKey}

theorem installed?_erase_self (row : b.installed = a.installed.erase k) :
    (r.setAft ni b).installed? ni k = none := by
  rw [installed?_setAft, if_pos rfl, row, Table.get?_erase_self]
  rfl

theorem installed?_erase_of_ne (known : r.instances.get? ni = some a) (row : b.installed = a.installed.erase k)
    (hne : ¬(ni' = ni ∧ k' = k)) : (r.setAft ni b).installed? ni' k' = r.installed? ni' k' := by
  rw [installed?_setAft]
  split
  case isTrue hni =>
    subst hni
    rw [row, Table.get?_erase_of_ne _ (fun hk => hne ⟨rfl, hk⟩), ← installed?_of_get? known]
  case isFalse => rfl

theorem programmed?_remove_of_ne (hne : ¬(ni' = ni ∧ k' = k)) :
    (r.put ni b ((r.plane.fib ni).remove k)).programmed? ni' k' = r.programmed? ni' k' := by
  rw [programmed?_put]
  split
  case isTrue hni =>
    subst hni
    rw [Fib.get?_remove, if_neg (fun hk => hne ⟨rfl, hk⟩), programmed?]
  case isFalse => rfl

/-- An entry that leaves the tables after the hardware has refused to let it go. -/
theorem orphaned_setAft (known : r.instances.get? ni = some a) (free : a.holders? k = some 0)
    (row : b.installed = a.installed.erase k) : Orphaned r (r.refuse.setAft ni b) ni k :=
  ⟨isSome_installed? known free, installed?_erase_self row, rfl, Nat.lt_succ_self _⟩

theorem cleared_put (known : r.instances.get? ni = some a) (free : a.holders? k = some 0)
    (row : b.installed = a.installed.erase k) : Cleared r (r.put ni b ((r.plane.fib ni).remove k)) ni k := by
  refine ⟨isSome_installed? known free, installed?_erase_self row, ?_⟩
  rw [programmed?_put, if_pos rfl, Fib.get?_remove, if_pos rfl]

end Removed

theorem Discarded.clearing {out : Removal × Rib} (hc : r.Coherent) (h : Discarded r ni k out) :
    Clearing r out.2 := by
  cases h with
  | absent | held => exact hc.clearing
  | @dropped a b known free failing sound row =>
    have hsize (kind : EntryKind) : b.sizeOf kind ≤ r.capacity :=
      Nat.le_trans (Aft.sizeOf_erase_le row kind) (hc.bounded ni _ known kind)
    have horphan : Orphaned r (r.refuse.setAft ni b) ni k := orphaned_setAft known free row
    refine ⟨⟨rfl, Nat.le_succ _, spent_refuse failing, Table.forall_get?_insert hc.sound sound,
      Table.forall_get?_insert hc.bounded hsize⟩, fun ni' k' => ?_, fun _ => ⟨ni, k, horphan⟩⟩
    by_cases hkey : ni' = ni ∧ k' = k
    · obtain ⟨rfl, rfl⟩ := hkey
      exact .inr (.inr horphan)
    · exact .inl ⟨installed?_erase_of_ne (r := r.refuse) known row hkey, rfl⟩
  | done known free working sound row =>
    have hedit := hc.edit_erase known sound row
    refine ⟨hedit.toAdvance, fun ni' k' => ?_, fun hgrew => absurd hgrew (Nat.lt_irrefl _)⟩
    by_cases hkey : ni' = ni ∧ k' = k
    · obtain ⟨rfl, rfl⟩ := hkey
      exact .inr (.inl (cleared_put known free row))
    · exact .inl ⟨installed?_erase_of_ne known row hkey, programmed?_remove_of_ne hkey⟩

/-! ### Batches -/

theorem Performed.edit {o : Operation} {out : Except Failure Unit × Rib} (hc : r.Coherent)
    (h : Performed r c o out) : Edit r out.2 := by
  cases h with
  | barred => exact hc.edit
  | written election op upserted => exact upserted.edit hc
  | deleted election op deleted => exact deleted.edit hc

theorem apply_edit (hc : r.Coherent) (c : Context) (o : Operation) : Edit r (r.apply c o).2.2 := by
  by_cases h : o.id = 0 ∨ o.id ≤ c.lastOperationId
  · rw [apply_of_stale h]
    exact hc.edit
  · rw [apply_of_fresh h]
    exact (perform_cases hc ..).edit hc

/-- The statistics take no part. -/
theorem Edit.count (h : Edit r s) (result : Except Failure Outcome) : Edit r (s.count result) := by
  refine ⟨⟨h.capacity, ?_, ?_, h.sound, h.bounded⟩, h.agree⟩
  · cases result <;> exact h.refusals
  · cases result <;> exact h.spent

theorem applyBatch_edit (hc : r.Coherent) (c : Context) (os : List Operation) :
    Edit r (r.applyBatch c os).2.2 := by
  induction os generalizing r c with
  | nil => exact hc.edit
  | cons o os ih =>
    have hstep := (apply_edit hc c o).count (r.apply c o).1
    exact hstep.trans (ih (hstep.coherent hc) (r.apply c o).2.1)

/-! ### Bulk removals -/

theorem discard_clearing (hc : r.Coherent) (ni : String) (k : EntryKey) : Clearing r (r.discard ni k).2 :=
  (discard_cases hc ni k).clearing hc

theorem discardAll_clearing (hc : r.Coherent) (ni : String) (ks : List EntryKey) :
    Clearing r (r.discardAll ni ks).2 := by
  induction ks generalizing r with
  | nil => exact hc.clearing
  | cons k ks ih =>
    have hstep := discard_clearing hc ni k
    exact hstep.trans (ih (hstep.coherent hc))

theorem removeKind_clearing (hc : r.Coherent) (ni : String) (owner : Option ClientId) (kind : EntryKind) :
    Clearing r (r.removeKind ni owner kind).2 := by
  rw [removeKind]
  split
  · exact hc.clearing
  · exact discardAll_clearing hc ni _

theorem removeWhere_clearing (hc : r.Coherent) (ni : String) (owner : Option ClientId) :
    Clearing r (r.removeWhere ni owner).2 := by
  have h₁ := removeKind_clearing hc ni owner .ipv4
  have h₂ := removeKind_clearing (h₁.coherent hc) ni owner .nextHopGroup
  have h₃ := removeKind_clearing (h₂.coherent (h₁.coherent hc)) ni owner .nextHop
  exact (h₁.trans h₂).trans h₃

theorem removeOwnedIn_clearing (hc : r.Coherent) (client : ClientId) (nis : List String) :
    Clearing r (r.removeOwnedIn client nis).2 := by
  induction nis generalizing r with
  | nil => exact hc.clearing
  | cons ni nis ih =>
    have hstep := removeWhere_clearing hc ni (some client)
    exact hstep.trans (ih (hstep.coherent hc))

end RouteProgramming.Rib
