import RouteProgramming.Proofs.Rib.Hardware
import RouteProgramming.Proofs.Rib.Locality

/-! An operation that fails has no influence on the rest of its batch. It may use
up its id, and it may fail late, when the forwarding plane refuses the entry; but
with sound tables and a plane that works it leaves the tables on both sides as
they were. So a batch without it runs through the same tables, and its context
lags behind by some last operation id at most. Nothing is asked of what the plane
holds: it may lack what the tables have. Counts of holders fit 32 bits as in any
history, with a capacity below 2 ^ 32 - 1 (`Coherent.holders?_le`). -/

namespace RouteProgramming.Rib

variable {r s : Rib} {c d : Context} {ni : String} {k : EntryKey} {o : Operation}

/-! ### Sound tables -/

/-- The tables of every network instance are sound, whatever the hardware has. -/
def Sound (r : Rib) : Prop := ∀ ni a, r.instances.get? ni = some a → a.Sound

abbrev Everywhere : String → Prop := fun _ => True

theorem Sound.of_agreeOn (h : r.Sound) (same : AgreeOn Everywhere r s) : s.Sound := by
  intro ni a known
  apply h ni
  rw [same.tables ni trivial]
  exact known

theorem Sound.setAft {a : Aft} (h : r.Sound) (ha : a.Sound) (p : ForwardingPlane) :
    ({ r with plane := p }.setAft ni a).Sound := by
  intro ni' b known
  rw [Rib.setAft] at known
  dsimp only at known
  rw [Table.get?_insert] at known
  split at known
  · cases known
    exact ha
  · exact h ni' b known

/-! ### One operation -/

/-- An operation either fails and leaves the tables as they are on both sides, or is done and leaves sound tables. -/
inductive Settled (r : Rib) : Except Failure Unit × Rib → Prop
  | failed {f : Failure} {s : Rib} (same : AgreeOn Everywhere r s) : Settled r (.error f, s)
  | done {s : Rib} (sound : s.Sound) : Settled r (.ok (), s)

theorem upsert_settled (sound : r.Sound) (working : r.plane.failures = 0) (c : Context) (ni : String) (e : Entry)
    (mustExist : Bool) : Settled r (r.upsert c ni e mustExist) := by
  rw [upsert]
  split
  case h_1 => exact .failed (.refl working)
  case h_2 a known =>
    split
    case h_1 => exact .failed (.refl working)
    case h_2 check =>
      obtain ⟨valid, -, -, references⟩ := checkWrite_ok check
      obtain ⟨b, hinstall, hb, -, -⟩ := (sound ni a known).install valid references c.client c.success
      rw [ForwardingPlane.program, working]
      simp only [Nat.lt_irrefl, if_false]
      cases (r.plane.fib ni).program e with
      | error cause =>
        -- refused for what the plane holds, which costs nothing but a count
        have same : AgreeOn Everywhere r r := .refl working
        exact .failed (same.withStats _ _)
      | ok f =>
        dsimp only
        rw [hinstall]
        exact .done (sound.setAft hb _)

theorem delete_settled (sound : r.Sound) (working : r.plane.failures = 0) (ni : String) (k : EntryKey) :
    Settled r (r.delete ni k) := by
  rw [delete]
  split
  case h_1 => exact .failed (.refl working)
  case h_2 a known =>
    split
    case h_1 => exact .failed (.refl working)
    case h_2 => exact .failed (.refl working)
    case h_3 free =>
      obtain ⟨old, b, hremove, hb, -, -⟩ := (sound ni a known).remove free
      rw [ForwardingPlane.remove_of_working working]
      dsimp only
      rw [hremove]
      exact .done (sound.setAft hb _)

theorem perform_settled (sound : r.Sound) (working : r.plane.failures = 0) (c : Context) (o : Operation) :
    Settled r (r.perform c o) := by
  rw [perform]
  split
  · exact .failed (.refl working)
  · split
    · exact upsert_settled sound working c _ o.entry false
    · exact upsert_settled sound working c _ o.entry true
    · exact delete_settled sound working _ o.key

/-! ### Contexts -/

/-- The same context with a last operation id that is not later. -/
def Lags (d c : Context) : Prop := ∃ n, n ≤ c.lastOperationId ∧ d = { c with lastOperationId := n }

theorem Lags.refl (c : Context) : Lags c c := ⟨c.lastOperationId, UInt64.le_refl _, rfl⟩

/-- Once an operation has used its id the two are the same. -/
theorem Lags.used_eq (h : Lags d c) (o : Operation) : used d o = used c o := by
  obtain ⟨n, -, rfl⟩ := h
  rfl

theorem Lags.success_eq (h : Lags d c) : d.success = c.success := by
  obtain ⟨n, -, rfl⟩ := h
  rfl

/-- What is in order for the later context is in order for the other. -/
theorem Lags.fresh (h : Lags d c) (fresh : ¬(o.id = 0 ∨ o.id ≤ c.lastOperationId)) :
    ¬(o.id = 0 ∨ o.id ≤ d.lastOperationId) := by
  obtain ⟨n, hn, rfl⟩ := h
  rw [not_or] at fresh ⊢
  exact ⟨fresh.1, fun hle => fresh.2 (UInt64.le_trans hle hn)⟩

theorem Lags.apply (h : Lags d c) (r : Rib) (o : Operation) : Lags d (r.apply c o).2.1 := by
  obtain ⟨n, hn, rfl⟩ := h
  by_cases stale : o.id = 0 ∨ o.id ≤ c.lastOperationId
  · rw [apply_of_stale stale]
    exact ⟨n, hn, rfl⟩
  · rw [apply_of_fresh stale]
    rw [not_or, UInt64.le_iff_toNat_le] at stale
    rw [UInt64.le_iff_toNat_le] at hn
    refine ⟨n, ?_, rfl⟩
    rw [used, UInt64.le_iff_toNat_le]
    dsimp only
    omega

/-! ### One operation in a batch -/

/-- What an operation comes to, with its id. -/
inductive Applied (r : Rib) (c : Context) : Except Failure Outcome × Context × Rib → Prop
  | failed {f : Failure} {after : Context} {s : Rib} (same : AgreeOn Everywhere r s) : Applied r c (.error f, after, s)
  | done {after : Context} {s : Rib} (sound : s.Sound) : Applied r c (.ok c.success, after, s)

theorem apply_applied (sound : r.Sound) (working : r.plane.failures = 0) (c : Context) (o : Operation) :
    Applied r c (r.apply c o) := by
  by_cases stale : o.id = 0 ∨ o.id ≤ c.lastOperationId
  · rw [apply_of_stale stale]
    exact .failed (.refl working)
  · rw [apply_of_fresh stale]
    have hperform := perform_settled sound working (used c o) o
    generalize r.perform (used c o) o = out at hperform
    cases hperform with
    | failed same => exact .failed same
    | done sound => exact .done sound

/-- An operation that is done in one context is done alike in a context that lags behind. -/
theorem AgreeOn.apply_of_lags {outcome : Outcome} (h : AgreeOn Everywhere r s) (lags : Lags d c)
    (done : (r.apply c o).1 = .ok outcome) :
    (s.apply d o).1 = (r.apply c o).1 ∧ (s.apply d o).2.1 = (r.apply c o).2.1 ∧
      AgreeOn Everywhere (r.apply c o).2.2 (s.apply d o).2.2 := by
  by_cases stale : o.id = 0 ∨ o.id ≤ c.lastOperationId
  · rw [apply_of_stale stale] at done
    contradiction
  · obtain ⟨hresult, hafter⟩ := h.perform trivial (used c o)
    rw [apply_of_fresh stale, apply_of_fresh (lags.fresh stale), lags.used_eq, lags.success_eq, hresult]
    exact ⟨rfl, rfl, hafter⟩

/-! ### Batches -/

/-- The operations of a batch that are acknowledged as installed, in order. -/
def carriedOut (r : Rib) (c : Context) (os : List Operation) : List Operation :=
  ((os.zip (r.applyBatch c os).1).filter (·.2.outcome.isInstalled)).map (·.1)

theorem carriedOut_cons (r : Rib) (c : Context) (o : Operation) (os : List Operation) :
    r.carriedOut c (o :: os) =
      if (acknowledge o (r.apply c o).1).outcome.isInstalled then
        o :: ((r.apply c o).2.2.count (r.apply c o).1).carriedOut (r.apply c o).2.1 os
      else ((r.apply c o).2.2.count (r.apply c o).1).carriedOut (r.apply c o).2.1 os := by
  rw [carriedOut, applyBatch]
  simp only [List.zip_cons_cons, List.filter_cons]
  split <;> rfl

theorem applyBatch_cons (r : Rib) (c : Context) (o : Operation) (os : List Operation) :
    r.applyBatch c (o :: os) = (acknowledge o (r.apply c o).1 ::
      (((r.apply c o).2.2.count (r.apply c o).1).applyBatch (r.apply c o).2.1 os).1,
      (((r.apply c o).2.2.count (r.apply c o).1).applyBatch (r.apply c o).2.1 os).2) := rfl

/-- Beside the whole batch, what is left of it without the operations that fail. -/
theorem AgreeOn.applyBatch_carriedOut (h : AgreeOn Everywhere r s) (sound : r.Sound) (lags : Lags d c)
    (os : List Operation) :
    (s.applyBatch d (r.carriedOut c os)).1 = (r.applyBatch c os).1.filter (·.outcome.isInstalled) ∧
      AgreeOn Everywhere (r.applyBatch c os).2.2 (s.applyBatch d (r.carriedOut c os)).2.2 := by
  induction os generalizing r s c d with
  | nil => exact ⟨rfl, h⟩
  | cons o os ih =>
    have happlied := apply_applied sound h.plane.working c o
    have hlags := lags.apply r o
    have halike {outcome : Outcome} (done : (r.apply c o).1 = .ok outcome) := h.apply_of_lags lags done
    rw [carriedOut_cons, applyBatch_cons]
    generalize r.apply c o = x at happlied hlags halike ⊢
    cases happlied with
    | @failed f after r' same =>
      -- only the batch moves, and its tables stay as they are
      have hcounted : AgreeOn Everywhere (r'.count (.error f)) s := (same.symm.trans h).withStats _ s.stats
      have hsound : (r'.count (.error f)).Sound := sound.of_agreeOn (same.withStats r.stats _)
      exact ih hcounted hsound hlags
    | @done after r' hsound =>
      obtain ⟨hresult, hafter, hagree⟩ := halike rfl
      have hinstalled : (acknowledge o (.ok c.success)).outcome.isInstalled := isInstalled_success c
      dsimp only at hresult hafter hagree ⊢
      have hcounted : AgreeOn Everywhere (r'.count (.ok c.success)) ((s.apply d o).2.2.count (.ok c.success)) :=
        hagree.withStats _ _
      have hcountedSound : (r'.count (.ok c.success)).Sound := hsound
      obtain ⟨hacks, hend⟩ := ih hcounted hcountedSound (.refl after)
      rw [if_pos hinstalled, List.filter_cons, if_pos hinstalled, applyBatch_cons, hresult, hafter]
      exact ⟨congrArg _ hacks, hend⟩

end RouteProgramming.Rib

namespace RouteProgramming.History

open Rib

/-- Whatever the history, over any plane that works: the operations of a batch that are installed get the same
acknowledgments without the others, and end in the same tables on both sides. -/
theorem failed_without_influence (h : History) (p : ForwardingPlane) (working : p.failures = 0) (c : Context)
    (os : List Operation) :
    let r : Rib := { h.rib with plane := p }
    (r.applyBatch c (r.carriedOut c os)).1 = (r.applyBatch c os).1.filter (·.outcome.isInstalled) ∧
      (r.applyBatch c (r.carriedOut c os)).2.2.instances = (r.applyBatch c os).2.2.instances ∧
      (r.applyBatch c (r.carriedOut c os)).2.2.plane = (r.applyBatch c os).2.2.plane := by
  intro r
  have same : AgreeOn Everywhere r r := .refl working
  obtain ⟨hacks, hend⟩ := same.applyBatch_carriedOut h.coherent.sound (.refl c) os
  obtain ⟨hinstances, hplane⟩ := AgreeOn.eq fun ni => ⟨Everywhere, trivial, hend⟩
  exact ⟨hacks, hinstances.symm, hplane.symm⟩

/-- A batch in which an id comes again, a reference is missing, a group is still in use, and a next-hop is added and
replaced in between. -/
def patchwork : List Operation :=
  let nextHop : Entry := .nextHop { index := 43, address := some (.v4 ⟨0xC0000206⟩) }
  [{ id := 5, networkInstance := "DEFAULT", op := .add, entry := nextHop },
    { id := 9, networkInstance := "DEFAULT", op := .add, entry := .ipv4 ⟨documentation, 99⟩ },
    { id := 9, networkInstance := "DEFAULT", op := .delete, entry := nextHop },
    { id := 10, networkInstance := "DEFAULT", op := .delete, entry := .nextHopGroup { id := 10 } },
    { id := 11, networkInstance := "DEFAULT", op := .replace, entry := nextHop }]

theorem failed_without_influence_oneRoute : (oneRoute []).rib.plane.failures = 0 ∧
    ((oneRoute []).rib.carriedOut { client := 2 } patchwork).map (·.id) = [5, 11] ∧
    ((oneRoute []).rib.applyBatch { client := 2 } ((oneRoute []).rib.carriedOut { client := 2 } patchwork)).1 =
      ((oneRoute []).rib.applyBatch { client := 2 } patchwork).1.filter (·.outcome.isInstalled) := by
  have working : (oneRoute []).rib.plane.failures = 0 := by decide +kernel
  have halike := failed_without_influence (oneRoute []) _ working { client := 2 } patchwork
  exact ⟨working, by decide +kernel, halike.1⟩

end RouteProgramming.History
