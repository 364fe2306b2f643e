import RouteProgramming.Proofs.Rib.Ownership

/-! Operations on some network instances neither read nor write the tables of any
other, on either side. Two RIBs that agree on some network instances answer a
batch for these alike and still agree afterwards; and a batch leaves a RIB in
agreement with itself on all the others. The same goes for taking away what a
client owns, which is done for one network instance after the other. That needs
a forwarding plane without failures, for these are counted for all network
instances together. -/

namespace RouteProgramming

variable {S T : String → Prop} {ni : String}

/-! ### The hardware -/

namespace ForwardingPlane

variable {p q : ForwardingPlane}

/-- Two planes that work, with the same interfaces, and the same tables of some network instances. -/
structure AgreeOn (S : String → Prop) (p q : ForwardingPlane) : Prop where
  working : p.failures = 0
  working' : q.failures = 0
  interfaces : p.interfaces = q.interfaces
  tables : ∀ ni, S ni → p.instances.get? ni = q.instances.get? ni

theorem AgreeOn.refl (working : p.failures = 0) : AgreeOn S p p := ⟨working, working, rfl, fun _ _ => rfl⟩

theorem AgreeOn.fib (h : AgreeOn S p q) (hni : S ni) : p.fib ni = q.fib ni := by
  rw [ForwardingPlane.fib, ForwardingPlane.fib, h.tables ni hni]

theorem AgreeOn.setFib (h : AgreeOn S p q) (ni : String) (f : Fib) : AgreeOn S (p.setFib ni f) (q.setFib ni f) := by
  refine ⟨h.working, h.working', h.interfaces, fun ni' hni' => ?_⟩
  rw [ForwardingPlane.setFib, ForwardingPlane.setFib]
  dsimp only
  rw [Table.get?_insert, Table.get?_insert, h.tables ni' hni']

theorem setFib_agreeOn (working : p.failures = 0) (ni : String) (f : Fib) : AgreeOn (· ≠ ni) p (p.setFib ni f) := by
  refine ⟨working, working, rfl, fun ni' hni' => ?_⟩
  rw [setFib]
  exact (Table.get?_insert_of_ne _ _ hni').symm

theorem AgreeOn.program (h : AgreeOn S p q) (hni : S ni) (e : Entry) :
    (p.program ni e).1 = (q.program ni e).1 ∧ AgreeOn S (p.program ni e).2 (q.program ni e).2 := by
  rw [ForwardingPlane.program, ForwardingPlane.program, h.working, h.working', h.fib hni]
  simp only [Nat.lt_irrefl, if_false]
  split
  · exact ⟨rfl, h⟩
  · exact ⟨rfl, h.setFib ni _⟩

theorem program_agreeOn (working : p.failures = 0) (ni : String) (e : Entry) :
    AgreeOn (· ≠ ni) p (p.program ni e).2 := by
  rw [program, working]
  simp only [Nat.lt_irrefl, if_false]
  split
  · exact .refl working
  · exact setFib_agreeOn working ni _

theorem AgreeOn.remove (h : AgreeOn S p q) (hni : S ni) (k : EntryKey) :
    (p.remove ni k).1 = (q.remove ni k).1 ∧ AgreeOn S (p.remove ni k).2 (q.remove ni k).2 := by
  rw [remove_of_working h.working, remove_of_working h.working', h.fib hni]
  exact ⟨rfl, h.setFib ni _⟩

theorem remove_agreeOn (working : p.failures = 0) (ni : String) (k : EntryKey) :
    AgreeOn (· ≠ ni) p (p.remove ni k).2 := by
  rw [remove_of_working working]
  exact setFib_agreeOn working ni _

end ForwardingPlane

/-! ### Both sides -/

namespace Rib

variable {r s t : Rib} {c : Context} {o : Operation}

/-- Two RIBs with the same tables of some network instances, in planes that work. -/
structure AgreeOn (S : String → Prop) (r s : Rib) : Prop where
  capacity : r.capacity = s.capacity
  tables : ∀ ni, S ni → r.instances.get? ni = s.instances.get? ni
  plane : r.plane.AgreeOn S s.plane

theorem AgreeOn.refl (working : r.plane.failures = 0) : AgreeOn S r r := ⟨rfl, fun _ _ => rfl, .refl working⟩

theorem AgreeOn.symm (h : AgreeOn S r s) : AgreeOn S s r :=
  ⟨h.capacity.symm, fun ni hni => (h.tables ni hni).symm,
    ⟨h.plane.working', h.plane.working, h.plane.interfaces.symm, fun ni hni => (h.plane.tables ni hni).symm⟩⟩

theorem AgreeOn.trans (h : AgreeOn S r s) (h' : AgreeOn S s t) : AgreeOn S r t :=
  ⟨h.capacity.trans h'.capacity, fun ni hni => (h.tables ni hni).trans (h'.tables ni hni),
    ⟨h.plane.working, h'.plane.working', h.plane.interfaces.trans h'.plane.interfaces,
      fun ni hni => (h.plane.tables ni hni).trans (h'.plane.tables ni hni)⟩⟩

theorem AgreeOn.mono (h : AgreeOn S r s) (hT : ∀ ni, T ni → S ni) : AgreeOn T r s :=
  ⟨h.capacity, fun ni hni => h.tables ni (hT ni hni),
    ⟨h.plane.working, h.plane.working', h.plane.interfaces, fun ni hni => h.plane.tables ni (hT ni hni)⟩⟩

/-- RIBs that agree on three parts that are all agree on everything but the statistics. -/
theorem AgreeOn.eq (h : ∀ ni, ∃ S, S ni ∧ AgreeOn S r s) :
    r.instances = s.instances ∧ r.plane = s.plane := by
  obtain ⟨S, -, hS⟩ := h ""
  have hinstances : r.instances = s.instances := Table.ext_get? fun ni => by
    obtain ⟨S, hni, hS⟩ := h ni
    exact hS.tables ni hni
  have hplane : r.plane.instances = s.plane.instances := Table.ext_get? fun ni => by
    obtain ⟨S, hni, hS⟩ := h ni
    exact hS.plane.tables ni hni
  refine ⟨hinstances, ?_⟩
  have hinterfaces := hS.plane.interfaces
  have hfailures := hS.plane.working.trans hS.plane.working'.symm
  cases hr : r.plane
  cases hs : s.plane
  simp only [hr, hs] at hplane hinterfaces hfailures
  rw [hplane, hinterfaces, hfailures]

theorem AgreeOn.setAft (h : AgreeOn S r s) (ni : String) (a : Aft) : AgreeOn S (r.setAft ni a) (s.setAft ni a) := by
  refine ⟨h.capacity, fun ni' hni' => ?_, h.plane⟩
  rw [Rib.setAft, Rib.setAft]
  dsimp only
  rw [Table.get?_insert, Table.get?_insert, h.tables ni' hni']

theorem setAft_agreeOn (working : r.plane.failures = 0) (ni : String) (a : Aft) :
    AgreeOn (· ≠ ni) r (r.setAft ni a) := by
  refine ⟨rfl, fun ni' hni' => ?_, .refl working⟩
  rw [setAft]
  exact (Table.get?_insert_of_ne _ _ hni').symm

theorem AgreeOn.withPlane {p q : ForwardingPlane} (h : AgreeOn S r s) (hp : p.AgreeOn S q) :
    AgreeOn S { r with plane := p } { s with plane := q } := ⟨h.capacity, h.tables, hp⟩

theorem withPlane_agreeOn {p : ForwardingPlane} (hp : r.plane.AgreeOn S p) : AgreeOn S r { r with plane := p } :=
  ⟨rfl, fun _ _ => rfl, hp⟩

/-- The statistics take no part. -/
theorem AgreeOn.withStats (h : AgreeOn S r s) (x y : Stats) : AgreeOn S { r with stats := x } { s with stats := y } :=
  ⟨h.capacity, h.tables, h.plane⟩

/-! ### One operation -/

theorem AgreeOn.upsert (h : AgreeOn S r s) (hni : S ni) (c : Context) (e : Entry) (mustExist : Bool) :
    (r.upsert c ni e mustExist).1 = (s.upsert c ni e mustExist).1 ∧
      AgreeOn S (r.upsert c ni e mustExist).2 (s.upsert c ni e mustExist).2 := by
  obtain ⟨hresult, hplane⟩ := h.plane.program hni e
  rw [Rib.upsert, Rib.upsert, h.tables ni hni]
  generalize r.plane.program ni e = x at hresult hplane
  generalize s.plane.program ni e = y at hresult hplane
  obtain ⟨x, p⟩ := x
  obtain ⟨y, q⟩ := y
  obtain rfl : x = y := hresult
  cases s.instances.get? ni with
  | none => exact ⟨rfl, h⟩
  | some a =>
    have hcheck : checkWrite a r.capacity ni e mustExist = checkWrite a s.capacity ni e mustExist := by
      rw [h.capacity]
    dsimp only
    rw [hcheck]
    cases checkWrite a s.capacity ni e mustExist with
    | error f => exact ⟨rfl, h⟩
    | ok =>
      cases x with
      | error cause => exact ⟨rfl, (h.withPlane hplane).withStats _ _⟩
      | ok => exact ⟨rfl, (h.withPlane hplane).setAft ni _⟩

theorem upsert_agreeOn (working : r.plane.failures = 0) (c : Context) (ni : String) (e : Entry) (mustExist : Bool) :
    AgreeOn (· ≠ ni) r (r.upsert c ni e mustExist).2 := by
  have hplane := r.plane.program_agreeOn working ni e
  rw [upsert]
  generalize r.plane.program ni e = x at hplane
  obtain ⟨x, p⟩ := x
  cases r.instances.get? ni with
  | none => exact .refl working
  | some a =>
    dsimp only
    cases checkWrite a r.capacity ni e mustExist with
    | error f => exact .refl working
    | ok =>
      cases x with
      | error cause => exact (withPlane_agreeOn hplane).withStats _ _
      | ok => exact (withPlane_agreeOn hplane).trans (setAft_agreeOn hplane.working' ni _)

theorem AgreeOn.delete (h : AgreeOn S r s) (hni : S ni) (k : EntryKey) :
    (r.delete ni k).1 = (s.delete ni k).1 ∧ AgreeOn S (r.delete ni k).2 (s.delete ni k).2 := by
  obtain ⟨hresult, hplane⟩ := h.plane.remove hni k
  rw [Rib.delete, Rib.delete, h.tables ni hni]
  generalize r.plane.remove ni k = x at hresult hplane
  generalize s.plane.remove ni k = y at hresult hplane
  obtain ⟨x, p⟩ := x
  obtain ⟨y, q⟩ := y
  obtain rfl : x = y := hresult
  cases s.instances.get? ni with
  | none => exact ⟨rfl, h⟩
  | some a =>
    dsimp only
    split
    · exact ⟨rfl, h⟩
    · exact ⟨rfl, h⟩
    · cases x with
      | error cause => exact ⟨rfl, (h.withPlane hplane).withStats _ _⟩
      | ok => exact ⟨rfl, (h.withPlane hplane).setAft ni _⟩

theorem delete_agreeOn (working : r.plane.failures = 0) (ni : String) (k : EntryKey) :
    AgreeOn (· ≠ ni) r (r.delete ni k).2 := by
  have hplane := r.plane.remove_agreeOn working ni k
  rw [delete]
  generalize r.plane.remove ni k = x at hplane
  obtain ⟨x, p⟩ := x
  cases r.instances.get? ni with
  | none => exact .refl working
  | some a =>
    dsimp only
    split
    · exact .refl working
    · exact .refl working
    · cases x with
      | error cause => exact (withPlane_agreeOn hplane).withStats _ _
      | ok => exact (withPlane_agreeOn hplane).trans (setAft_agreeOn hplane.working' ni _)

theorem AgreeOn.perform (h : AgreeOn S r s) (ho : S o.networkInstance) (c : Context) :
    (r.perform c o).1 = (s.perform c o).1 ∧ AgreeOn S (r.perform c o).2 (s.perform c o).2 := by
  rw [Rib.perform, Rib.perform]
  split
  · exact ⟨rfl, h⟩
  · split
    · exact h.upsert ho c o.entry false
    · exact h.upsert ho c o.entry true
    · exact h.delete ho o.key

theorem perform_agreeOn (working : r.plane.failures = 0) (c : Context) (o : Operation) :
    AgreeOn (· ≠ o.networkInstance) r (r.perform c o).2 := by
  rw [perform]
  split
  · exact .refl working
  · split
    · exact upsert_agreeOn working c _ o.entry false
    · exact upsert_agreeOn working c _ o.entry true
    · exact delete_agreeOn working _ o.key

theorem AgreeOn.apply (h : AgreeOn S r s) (ho : S o.networkInstance) (c : Context) :
    (r.apply c o).1 = (s.apply c o).1 ∧ (r.apply c o).2.1 = (s.apply c o).2.1 ∧
      AgreeOn S (r.apply c o).2.2 (s.apply c o).2.2 := by
  by_cases hid : o.id = 0 ∨ o.id ≤ c.lastOperationId
  · rw [apply_of_stale hid, apply_of_stale hid]
    exact ⟨rfl, rfl, h⟩
  · obtain ⟨hresult, hafter⟩ := h.perform ho (used c o)
    rw [apply_of_fresh hid, apply_of_fresh hid, hresult]
    exact ⟨rfl, rfl, hafter⟩

theorem apply_agreeOn (working : r.plane.failures = 0) (c : Context) (o : Operation) :
    AgreeOn (· ≠ o.networkInstance) r (r.apply c o).2.2 := by
  by_cases hid : o.id = 0 ∨ o.id ≤ c.lastOperationId
  · rw [apply_of_stale hid]
    exact .refl working
  · rw [apply_of_fresh hid]
    exact perform_agreeOn working _ o

/-! ### Batches -/

/-- A batch for some network instances depends on nothing else. -/
theorem AgreeOn.applyBatch {os : List Operation} (h : AgreeOn S r s) (hos : ∀ o ∈ os, S o.networkInstance)
    (c : Context) : (r.applyBatch c os).1 = (s.applyBatch c os).1 ∧ (r.applyBatch c os).2.1 = (s.applyBatch c os).2.1 ∧
      AgreeOn S (r.applyBatch c os).2.2 (s.applyBatch c os).2.2 := by
  induction os generalizing r s c with
  | nil => exact ⟨rfl, rfl, h⟩
  | cons o os ih =>
    have hfirst := h.apply (hos o List.mem_cons_self) c
    rw [Rib.applyBatch, Rib.applyBatch]
    generalize r.apply c o = x at hfirst ⊢
    generalize s.apply c o = y at hfirst ⊢
    obtain ⟨result, d, r'⟩ := x
    obtain ⟨_, _, s'⟩ := y
    obtain ⟨rfl, rfl, hafter⟩ := hfirst
    obtain ⟨hacks, hlast, hend⟩ := ih (r := r'.count result) (s := s'.count result) (hafter.withStats _ _)
      (fun o' ho' => hos o' (List.mem_cons_of_mem o ho')) d
    exact ⟨congrArg (acknowledge o result :: ·) hacks, hlast, hend⟩

/-- A batch for some network instances leaves all others as they are. -/
theorem applyBatch_agreeOn {os : List Operation} (working : r.plane.failures = 0)
    (hos : ∀ o ∈ os, S o.networkInstance) (c : Context) : AgreeOn (¬S ·) r (r.applyBatch c os).2.2 := by
  induction os generalizing r c with
  | nil => exact .refl working
  | cons o os ih =>
    have hfirst : AgreeOn (¬S ·) r (r.apply c o).2.2 := by
      refine (apply_agreeOn working c o).mono fun ni hni heq => hni (heq ▸ hos o List.mem_cons_self)
    have hcounted : AgreeOn (¬S ·) r ((r.apply c o).2.2.count (r.apply c o).1) := hfirst.withStats r.stats _
    rw [applyBatch]
    exact hcounted.trans (ih hcounted.plane.working' (fun o' ho' => hos o' (List.mem_cons_of_mem o ho')) _)

/-! ### Taking away what a client owns -/

variable {client : ClientId} {owner : Option ClientId} {kind : EntryKind} {k : EntryKey} {nis : List String}

theorem AgreeOn.discard (h : AgreeOn S r s) (hni : S ni) (k : EntryKey) :
    AgreeOn S (r.discard ni k).2 (s.discard ni k).2 := by
  obtain ⟨hresult, hafter⟩ := h.delete hni k
  rw [Rib.discard, Rib.discard]
  generalize r.delete ni k = x at hresult hafter
  generalize s.delete ni k = y at hresult hafter
  obtain ⟨result, r'⟩ := x
  obtain ⟨_, s'⟩ := y
  obtain rfl : result = _ := hresult
  cases result with
  | ok => exact hafter
  | error f =>
    cases f with
    | stillReferenced => exact hafter
    | _ =>
      dsimp only
      rw [← show r'.instances.get? ni = s'.instances.get? ni from hafter.tables ni hni]
      cases r'.instances.get? ni with
      | none => exact hafter
      | some a =>
        dsimp only
        split
        · exact hafter.setAft ni _
        · exact hafter.setAft ni _

theorem discard_agreeOn (working : r.plane.failures = 0) (ni : String) (k : EntryKey) :
    AgreeOn (· ≠ ni) r (r.discard ni k).2 := by
  have hafter := delete_agreeOn working ni k
  rw [discard]
  generalize r.delete ni k = x at hafter
  obtain ⟨result, r'⟩ := x
  cases result with
  | ok => exact hafter
  | error f =>
    cases f with
    | stillReferenced => exact hafter
    | _ =>
      dsimp only
      cases r'.instances.get? ni with
      | none => exact hafter
      | some a =>
        dsimp only
        split
        · exact hafter.trans (setAft_agreeOn hafter.plane.working' ni _)
        · exact hafter.trans (setAft_agreeOn hafter.plane.working' ni _)

theorem AgreeOn.discardAll {ks : List EntryKey} (h : AgreeOn S r s) (hni : S ni) :
    AgreeOn S (r.discardAll ni ks).2 (s.discardAll ni ks).2 := by
  induction ks generalizing r s with
  | nil => exact h
  | cons k ks ih => exact ih (h.discard hni k)

theorem discardAll_agreeOn {ks : List EntryKey} (working : r.plane.failures = 0) :
    AgreeOn (· ≠ ni) r (r.discardAll ni ks).2 := by
  induction ks generalizing r with
  | nil => exact .refl working
  | cons k ks ih =>
    have hfirst := discard_agreeOn working ni k
    exact hfirst.trans (ih hfirst.plane.working')

theorem AgreeOn.removeKind (h : AgreeOn S r s) (hni : S ni) :
    AgreeOn S (r.removeKind ni owner kind).2 (s.removeKind ni owner kind).2 := by
  rw [Rib.removeKind, Rib.removeKind, h.tables ni hni]
  cases s.instances.get? ni with
  | none => exact h
  | some a => exact h.discardAll hni

theorem removeKind_agreeOn (working : r.plane.failures = 0) : AgreeOn (· ≠ ni) r (r.removeKind ni owner kind).2 := by
  rw [removeKind]
  cases r.instances.get? ni with
  | none => exact .refl working
  | some a => exact discardAll_agreeOn working

theorem AgreeOn.removeWhere (h : AgreeOn S r s) (hni : S ni) :
    AgreeOn S (r.removeWhere ni owner).2 (s.removeWhere ni owner).2 :=
  ((h.removeKind hni).removeKind hni).removeKind hni

theorem removeWhere_agreeOn (working : r.plane.failures = 0) : AgreeOn (· ≠ ni) r (r.removeWhere ni owner).2 := by
  have hroutes : AgreeOn (· ≠ ni) r (r.removeKind ni owner .ipv4).2 := removeKind_agreeOn working
  have hgroups : AgreeOn (· ≠ ni) r ((r.removeKind ni owner .ipv4).2.removeKind ni owner .nextHopGroup).2 :=
    hroutes.trans (removeKind_agreeOn hroutes.plane.working')
  exact hgroups.trans (removeKind_agreeOn hgroups.plane.working')

theorem removeOwnedIn_agreeOn (working : r.plane.failures = 0) :
    AgreeOn (· ∉ nis) r (r.removeOwnedIn client nis).2 := by
  induction nis generalizing r with
  | nil => exact .refl working
  | cons ni nis ih =>
    have hfirst : AgreeOn (· ≠ ni) r (r.removeWhere ni (some client)).2 := removeWhere_agreeOn working
    have hrest := ih hfirst.plane.working'
    exact (hfirst.mono fun ni' hni' => List.ne_of_not_mem_cons hni').trans
      (hrest.mono fun ni' hni' => List.not_mem_of_not_mem_cons hni')

theorem removeWhere_agreeOn_removeOwnedIn (working : r.plane.failures = 0) (nodup : nis.Nodup) (hni : ni ∈ nis) :
    AgreeOn (· = ni) (r.removeWhere ni (some client)).2 (r.removeOwnedIn client nis).2 := by
  induction nis generalizing r with
  | nil => contradiction
  | cons ni' nis ih =>
    obtain ⟨hnew, hnodup⟩ := List.nodup_cons.1 nodup
    have hfirst : AgreeOn (· ≠ ni') r (r.removeWhere ni' (some client)).2 := removeWhere_agreeOn working
    rw [removeOwnedIn]
    rcases List.mem_cons.1 hni with rfl | hlater
    · -- the others do not come back to it
      exact (removeOwnedIn_agreeOn hfirst.plane.working').mono fun _ heq hmem => hnew (heq ▸ hmem)
    · have hne : ni ≠ ni' := fun heq => hnew (heq ▸ hlater)
      have hsame : AgreeOn (· = ni) r (r.removeWhere ni' (some client)).2 := hfirst.mono fun _ heq => heq ▸ hne
      exact (hsame.removeWhere rfl).trans (ih hfirst.plane.working' hnodup hlater)

/-- In any one network instance a client loses what it would lose if that were the only one. -/
theorem removeWhere_agreeOn_removeOwnedBy (working : r.plane.failures = 0) (ni : String) (client : ClientId) :
    AgreeOn (· = ni) (r.removeWhere ni (some client)).2 (r.removeOwnedBy client).2 := by
  by_cases hknown : ni ∈ r.networkInstances
  · exact removeWhere_agreeOn_removeOwnedIn working r.instances.keys_nodup hknown
  · have hnone : r.instances.get? ni = none := by
      rwa [networkInstances, Table.mem_keys_iff, Table.contains, Bool.not_eq_true, Option.isSome_eq_false_iff,
        Option.isNone_iff_eq_none] at hknown
    have hsame : (r.removeWhere ni (some client)).2 = r := by
      simp only [removeWhere, removeKind, hnone]
    rw [hsame]
    exact (removeOwnedIn_agreeOn working).mono fun _ heq => heq ▸ hknown

theorem AgreeOn.of_each (h : AgreeOn (fun _ => False) r s) (each : ∀ ni, S ni → AgreeOn (· = ni) r s) :
    AgreeOn S r s :=
  ⟨h.capacity, fun ni hni => (each ni hni).tables ni rfl,
    ⟨h.plane.working, h.plane.working', h.plane.interfaces, fun ni hni => (each ni hni).plane.tables ni rfl⟩⟩

/-- What a client loses in some network instances depends on nothing else. -/
theorem AgreeOn.removeOwnedBy (h : AgreeOn S r s) (client : ClientId) :
    AgreeOn S (r.removeOwnedBy client).2 (s.removeOwnedBy client).2 := by
  have hr : AgreeOn (· ∉ r.networkInstances) r (r.removeOwnedBy client).2 := removeOwnedIn_agreeOn h.plane.working
  have hs : AgreeOn (· ∉ s.networkInstances) s (s.removeOwnedBy client).2 := removeOwnedIn_agreeOn h.plane.working'
  refine .of_each ((hr.mono nofun).symm.trans ((h.mono nofun).trans (hs.mono nofun))) fun ni hni => ?_
  have hone : AgreeOn (· = ni) r s := h.mono fun _ heq => heq ▸ hni
  exact (removeWhere_agreeOn_removeOwnedBy h.plane.working ni client).symm.trans
    ((hone.removeWhere rfl).trans (removeWhere_agreeOn_removeOwnedBy h.plane.working' ni client))

/-- The entries of a client are all in some network instances. -/
def OwnedWithin (r : Rib) (S : String → Prop) (client : ClientId) : Prop :=
  ∀ ni k i, r.row? ni k = some i → i.owner = client → S ni

theorem removeKind_of_unowned (unowned : ∀ k i, r.row? ni k = some i → i.owner ≠ client) :
    (r.removeKind ni (some client) kind).2 = r := by
  rw [removeKind]
  cases known : r.instances.get? ni with
  | none => rfl
  | some a =>
    have hnone : a.keysOf kind (some client) = [] := by
      refine List.eq_nil_iff_forall_not_mem.2 fun k hk => ?_
      obtain ⟨-, i, hi, selected⟩ := Aft.mem_keysOf.1 hk
      exact unowned k i ((row?_of_get? known k).trans hi) (selected client rfl)
    dsimp only
    rw [hnone]
    rfl

theorem removeWhere_of_unowned (unowned : ∀ k i, r.row? ni k = some i → i.owner ≠ client) :
    (r.removeWhere ni (some client)).2 = r := by
  rw [removeWhere]
  dsimp only
  rw [removeKind_of_unowned unowned, removeKind_of_unowned unowned, removeKind_of_unowned unowned]

/-- A client loses nothing where it owns nothing. -/
theorem removeOwnedBy_agreeOn (working : r.plane.failures = 0) (owned : r.OwnedWithin S client) :
    AgreeOn (¬S ·) r (r.removeOwnedBy client).2 := by
  have hr : AgreeOn (· ∉ r.networkInstances) r (r.removeOwnedBy client).2 := removeOwnedIn_agreeOn working
  refine .of_each (hr.mono nofun) fun ni hni => ?_
  have hsame := removeWhere_agreeOn_removeOwnedBy working ni client
  rwa [removeWhere_of_unowned fun k i hi howner => hni (owned ni k i hi howner)] at hsame

end Rib

end RouteProgramming
