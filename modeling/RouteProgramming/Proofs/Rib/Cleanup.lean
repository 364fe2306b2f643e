import RouteProgramming.Proofs.Rib.Clearance

/-! What is left when the entries of one client are removed. Owners change with
every write and references cross owners, so what stays is a closure: an entry of
the client stays if an entry that is still there refers to it. The keys are taken
up front, and each of them is counted once, as removed or as remaining, whether
the hardware lets it go or not. So the counts come out right, in one go or one
removal at a time with failures injected in between. What still refers to an
entry is told by its holders, of which 32 bits can count all with a capacity
below 2 ^ 32 - 1 (`Coherent.holders?_le`). -/

namespace RouteProgramming

namespace Aft

variable {a b : Aft}

/-! ### Counting entries -/

theorem countP_entries (a : Aft) (p : Installed Entry → Bool) :
    a.entries.countP (fun h => p h.value) = a.installed.rows.countP (fun r => p r.2) := by
  rw [entries_eq, installed, Table.countP_mapValues, Table.values, List.countP_map]
  rfl

/-- Tables that have the same rows among those that pass a test have as many of them. -/
theorem countP_entries_congr {p : Installed Entry → Bool}
    (h : ∀ k i, p i → (a.installed.get? k = some i ↔ b.installed.get? k = some i)) :
    a.entries.countP (fun h => p h.value) = b.entries.countP (fun h => p h.value) := by
  have hsame : a.installed.filter (fun _ i => p i) = b.installed.filter (fun _ i => p i) := by
    refine Table.ext_get? fun k => Option.ext fun i => ?_
    rw [Table.get?_filter_eq_some_iff, Table.get?_filter_eq_some_iff]
    exact and_congr_left fun hi => h k i hi
  have hrows := congrArg Table.size hsame
  simp only [Table.size, Table.filter, ← List.countP_eq_length_filter] at hrows
  rw [countP_entries, countP_entries, hrows]

end Aft

namespace Rib

open Aft

variable {r s : Rib} {client : ClientId} {ni : String} {k : EntryKey} {i : Installed Entry}

/-! ### The keys of a client -/

theorem row_of_mem_removalKeys {a : Aft} (h : k ∈ removalKeys a (some client)) :
    ∃ i, a.installed.get? k = some i ∧ i.owner = client := by
  rw [removalKeys, List.mem_append, List.mem_append] at h
  obtain ⟨i, hi, selected⟩ : ∃ i, a.installed.get? k = some i ∧ Selected (some client) i := by
    rcases h with (h | h) | h <;> exact (mem_keysOf.1 h).2
  exact ⟨i, hi, selected client rfl⟩

theorem nodup_removalKeys (a : Aft) (owner : Option ClientId) : (removalKeys a owner).Nodup := by
  have hkind (kind : EntryKind) : (a.keysOf kind owner).Nodup := by
    cases kind <;> exact List.Pairwise.map _ (fun i j hne heq => hne (by cases heq; rfl)) (Table.keys_nodup _)
  have hapart {kind other : EntryKind} (hne : kind ≠ other) {j k : EntryKey} (hj : j ∈ a.keysOf kind owner)
      (hk : k ∈ a.keysOf other owner) : j ≠ k := by
    intro heq
    rw [heq] at hj
    exact hne ((mem_keysOf.1 hj).1.symm.trans (mem_keysOf.1 hk).1)
  rw [removalKeys, List.nodup_append, List.nodup_append]
  refine ⟨⟨hkind _, hkind _, fun j hj k hk => hapart (by decide) hj hk⟩, hkind _, fun j hj k hk => ?_⟩
  rcases List.mem_append.1 hj with hj | hj
  · exact hapart (by decide) hj hk
  · exact hapart (by decide) hj hk

theorem length_removalKeys (a : Aft) (client : ClientId) :
    (removalKeys a (some client)).length = a.entries.countP (fun h => h.value.owner == client) := by
  have howned {κ ε : Type} [Ord κ] (t : HeldTable κ (Installed ε)) (f : ε → Entry) :
      (ownedKeys t (some client)).length = (t.values.map (view f)).countP (fun h => h.value.owner == client) := by
    rw [ownedKeys, Table.keys, List.length_map, Table.filter, ← List.countP_eq_length_filter, Table.values,
      List.countP_map, List.countP_map]
    refine List.countP_congr fun row _ => ?_
    simpa [view, Installed.map] using eq_comm
  simp only [removalKeys, keysOf, Aft.entries, List.length_append, List.length_map, List.countP_append, ← howned]
  omega

/-! ### The tables of a network instance -/

/-- The tables of a network instance, empty if it is unknown. -/
def aft (r : Rib) (ni : String) : Aft := (r.instances.get? ni).getD {}

theorem row?_eq_aft (r : Rib) (ni : String) (k : EntryKey) : r.row? ni k = (r.aft ni).installed.get? k := by
  rw [row?, aft]
  cases r.instances.get? ni <;> rfl

theorem entries_eq_aft (r : Rib) (ni : String) : r.entries ni = (r.aft ni).entries := by
  rw [entries, aft]
  cases r.instances.get? ni <;> rfl

theorem removeWhere_eq_aft (hc : r.Coherent) (ni : String) (owner : Option ClientId) :
    r.removeWhere ni owner = r.discardAll ni (removalKeys (r.aft ni) owner) := by
  cases known : r.instances.get? ni with
  | none =>
    simp only [removeWhere, removeKind, aft, known]
    rfl
  | some a => rw [removeWhere_eq_discardAll hc known, aft, known, Option.getD_some]

/-- How many entries of a network instance belong to a client. -/
def ownedIn (r : Rib) (client : ClientId) (ni : String) : Nat :=
  (r.entries ni).countP (fun h => h.value.owner == client)

/-- How many entries of some network instances belong to a client. -/
def ownedAmong (r : Rib) (client : ClientId) (nis : List String) : Nat :=
  (nis.map (r.ownedIn client)).foldr (· + ·) 0

/-- How many entries belong to a client. -/
def ownedBy (r : Rib) (client : ClientId) : Nat := r.ownedAmong client r.networkInstances

theorem ownedAmong_cons (r : Rib) (client : ClientId) (ni : String) (nis : List String) :
    r.ownedAmong client (ni :: nis) = r.ownedIn client ni + r.ownedAmong client nis := rfl

theorem ownedAmong_congr {nis : List String} (h : ∀ ni ∈ nis, r.ownedIn client ni = s.ownedIn client ni) :
    r.ownedAmong client nis = s.ownedAmong client nis := by
  rw [ownedAmong, ownedAmong, List.map_congr_left h]

theorem ownedIn_congr (h : ∀ k, r.row? ni k = s.row? ni k) (client : ClientId) :
    r.ownedIn client ni = s.ownedIn client ni := by
  rw [ownedIn, ownedIn, entries_eq_aft, entries_eq_aft]
  refine countP_entries_congr (p := fun i => i.owner == client) fun k i _ => ?_
  rw [← row?_eq_aft, ← row?_eq_aft, h k]

/-- Where only rows of the client have gone, as many entries have gone as the client has lost. -/
theorem ownedIn_add_length (others : ∀ k i, i.owner ≠ client → (s.row? ni k = some i ↔ r.row? ni k = some i)) :
    s.ownedIn client ni + (r.entries ni).length = r.ownedIn client ni + (s.entries ni).length := by
  have hothers : (s.entries ni).countP (fun h => h.value.owner != client) =
      (r.entries ni).countP (fun h => h.value.owner != client) := by
    rw [entries_eq_aft, entries_eq_aft]
    refine countP_entries_congr (p := fun i => i.owner != client) fun k i hi => ?_
    rw [← row?_eq_aft, ← row?_eq_aft]
    exact others k i (by simpa using hi)
  have hsplit (u : Rib) : (u.entries ni).length = u.ownedIn client ni +
      (u.entries ni).countP (fun h => h.value.owner != client) := by
    rw [ownedIn, List.length_eq_countP_add_countP (fun h => h.value.owner == client)]
    simp only [bne, decide_not, Bool.decide_eq_true]
  rw [hsplit r, hsplit s, hothers]
  omega

/-! ### One network instance -/

theorem Counted.total {x : Removal} (h : Counted r ni k x) (row : r.row? ni k ≠ none) : x.removed + x.remaining = 1 := by
  cases h with
  | absent absent => exact absurd absent row
  | held | free => rfl

/-- Every key that is installed counts once. -/
theorem total_discardAll {ks : List EntryKey} (hc : r.Coherent) (nodup : ks.Nodup)
    (rows : ∀ k ∈ ks, r.row? ni k ≠ none) :
    (r.discardAll ni ks).1.removed + (r.discardAll ni ks).1.remaining = ks.length := by
  induction ks generalizing r with
  | nil => rfl
  | cons k ks ih =>
    obtain ⟨hnew, hnodup⟩ := List.nodup_cons.1 nodup
    have hfirst := (counted_discard hc ni k).total (rows k (.head _))
    have hrest := ih ((discard_clearing hc ni k).coherent hc) hnodup fun j hj => by
      obtain ⟨i, hi⟩ := Option.ne_none_iff_exists'.1 (rows j (.tail _ hj))
      have hstays : (r.discard ni k).2.row? ni j = some i :=
        (row?_discard_iff hc).2 ⟨hi, fun _ heq => absurd (heq ▸ hj) hnew⟩
      rw [hstays]
      exact Option.some_ne_none i
    rw [discardAll_cons, Removal.removed_add, Removal.remaining_add, List.length_cons]
    omega

/-- What a client had is counted as removed or as remaining, and as much as remains it still has. -/
theorem removeWhere_accounts (hc : r.Coherent) (ni : String) (client : ClientId) :
    (r.removeWhere ni (some client)).1.removed + (r.removeWhere ni (some client)).1.remaining =
        r.ownedIn client ni ∧
      (r.removeWhere ni (some client)).1.remaining = (r.removeWhere ni (some client)).2.ownedIn client ni := by
  have htotal : (r.removeWhere ni (some client)).1.removed + (r.removeWhere ni (some client)).1.remaining =
      r.ownedIn client ni := by
    rw [removeWhere_eq_aft hc, ownedIn, entries_eq_aft, ← length_removalKeys]
    apply total_discardAll hc (nodup_removalKeys _ _)
    intro k hk
    obtain ⟨i, hi, -⟩ := row_of_mem_removalKeys hk
    rw [row?_eq_aft, hi]
    exact Option.some_ne_none i
  have hlost := (removeWhere_removes hc ni (some client)).counted
  have hothers : (r.removeWhere ni (some client)).2.ownedIn client ni + (r.entries ni).length =
      r.ownedIn client ni + ((r.removeWhere ni (some client)).2.entries ni).length := by
    refine ownedIn_add_length fun k i hi => ?_
    rw [row?_removeWhere_iff hc]
    exact and_iff_left fun _ hsel => absurd (hsel client rfl) hi
  exact ⟨htotal, by omega⟩

/-! ### All network instances -/

theorem removeOwnedIn_cons (r : Rib) (client : ClientId) (ni : String) (nis : List String) :
    r.removeOwnedIn client (ni :: nis) = ((r.removeWhere ni (some client)).1 +
      ((r.removeWhere ni (some client)).2.removeOwnedIn client nis).1,
      ((r.removeWhere ni (some client)).2.removeOwnedIn client nis).2) := rfl

theorem get?_removeOwnedIn {nis : List String} (hc : r.Coherent) (client : ClientId) (hni : ni ∉ nis) :
    (r.removeOwnedIn client nis).2.instances.get? ni = r.instances.get? ni := by
  induction nis generalizing r with
  | nil => rfl
  | cons first rest ih =>
    rw [List.mem_cons, not_or] at hni
    have hfirst := (removeWhere_removes hc first (some client)).tables ni hni.1
    exact (ih ((removeWhere_clearing hc first (some client)).coherent hc) hni.2).trans hfirst

theorem ownedIn_of_get? (h : r.instances.get? ni = s.instances.get? ni) (client : ClientId) :
    r.ownedIn client ni = s.ownedIn client ni := by
  rw [ownedIn, ownedIn, entries_eq_aft, entries_eq_aft, aft, aft, h]

theorem removeOwnedIn_accounts {nis : List String} (hc : r.Coherent) (nodup : nis.Nodup) (client : ClientId) :
    (r.removeOwnedIn client nis).1.removed + (r.removeOwnedIn client nis).1.remaining = r.ownedAmong client nis ∧
      (r.removeOwnedIn client nis).1.remaining = (r.removeOwnedIn client nis).2.ownedAmong client nis := by
  induction nis generalizing r with
  | nil => exact ⟨rfl, rfl⟩
  | cons first rest ih =>
    obtain ⟨hnew, hnodup⟩ := List.nodup_cons.1 nodup
    have hc' := (removeWhere_clearing hc first (some client)).coherent hc
    have hremoves := removeWhere_removes hc first (some client)
    obtain ⟨htotal, hremain⟩ := removeWhere_accounts hc first client
    obtain ⟨htotals, hremains⟩ := ih hc' hnodup
    -- the other network instances are as they were, and the first one stays as it is now
    have hbefore : (r.removeWhere first (some client)).2.ownedAmong client rest = r.ownedAmong client rest := by
      refine ownedAmong_congr fun ni hni => ownedIn_of_get? (hremoves.tables ni ?_) client
      exact fun heq => hnew (heq ▸ hni)
    have hafter := ownedIn_of_get? (get?_removeOwnedIn hc' client hnew) client
    rw [removeOwnedIn_cons, Removal.removed_add, Removal.remaining_add, ownedAmong_cons, ownedAmong_cons, hafter,
      ← hremain, ← hremains, ← hbefore]
    omega

/-! ### Who refers to what -/

/-- Only IPv4 entries refer to groups. -/
theorem inUse_nextHopGroup_iff (hc : r.Coherent) {id : UInt64} : r.InUse ni (.nextHopGroup id) ↔
    ∃ p i, r.row? ni (.ipv4 p) = some i ∧ i.entry = .ipv4 ⟨p, id⟩ := by
  constructor
  · rintro ⟨j, i, hi, hrefers⟩
    have hkey := hc.row_key hi
    cases hentry : i.entry with
    | nextHop e => simp [hentry, Entry.references] at hrefers
    | nextHopGroup e => simp [hentry, Entry.references] at hrefers
    | ipv4 e =>
      rw [hentry] at hrefers hkey
      obtain rfl : .ipv4 e.destination = j := hkey
      obtain rfl : id = e.group := by simpa [Entry.references] using hrefers
      exact ⟨_, i, hi, hentry⟩
  · rintro ⟨p, i, hi, hentry⟩
    exact ⟨_, i, hi, by simp [hentry, Entry.references]⟩

/-- Only groups refer to next-hops. -/
theorem inUse_nextHop_iff (hc : r.Coherent) {index : UInt64} : r.InUse ni (.nextHop index) ↔
    ∃ id i g, r.row? ni (.nextHopGroup id) = some i ∧ i.entry = .nextHopGroup g ∧ index ∈ g.members.keys := by
  constructor
  · rintro ⟨j, i, hi, hrefers⟩
    have hkey := hc.row_key hi
    cases hentry : i.entry with
    | nextHop e => simp [hentry, Entry.references] at hrefers
    | nextHopGroup e =>
      rw [hentry] at hkey
      obtain rfl : .nextHopGroup e.id = j := hkey
      exact ⟨_, i, e, hi, hentry, by simpa [hentry, Entry.references] using hrefers⟩
    | ipv4 e => simp [hentry, Entry.references] at hrefers
  · rintro ⟨id, i, g, hi, hentry, hmem⟩
    exact ⟨_, i, hi, by simpa [hentry, Entry.references] using hmem⟩

/-! ### What is left -/

/-- What the removal of a client's entries leaves, and what it counts. -/
structure Cleaned (r : Rib) (client : ClientId) (out : Removal × Rib) : Prop where
  others : ∀ ni k i, i.owner ≠ client → (out.2.row? ni k = some i ↔ r.row? ni k = some i)
  /-- An entry of the client stays, as it is, exactly if an entry that is still there refers to it. -/
  owned : ∀ ni k i, i.owner = client → (out.2.row? ni k = some i ↔ r.row? ni k = some i ∧ out.2.InUse ni k)
  routes : ∀ ni p i, out.2.row? ni (.ipv4 p) = some i → i.owner ≠ client
  groups : ∀ ni id i, r.row? ni (.nextHopGroup id) = some i → i.owner = client →
    (out.2.row? ni (.nextHopGroup id) = some i ↔
      ∃ p j, out.2.row? ni (.ipv4 p) = some j ∧ j.owner ≠ client ∧ j.entry = .ipv4 ⟨p, id⟩)
  nextHops : ∀ ni index i, r.row? ni (.nextHop index) = some i → i.owner = client →
    (out.2.row? ni (.nextHop index) = some i ↔
      ∃ id j g, out.2.row? ni (.nextHopGroup id) = some j ∧ j.entry = .nextHopGroup g ∧ index ∈ g.members.keys)
  /-- In particular the holders of every entry are counted exactly. -/
  sound : ∀ ni a, out.2.instances.get? ni = some a → a.Sound
  accounted : out.1.removed + out.1.remaining = r.ownedBy client
  remaining : out.1.remaining = out.2.ownedBy client

/-- What is in use afterwards is what was left in place. -/
theorem inUse_iff_of_rows (rows : ∀ j i, s.row? ni j = some i ↔
    r.row? ni j = some i ∧ (i.owner = client → r.Retained (some client) ni j)) :
    s.InUse ni k ↔ r.Retained (some client) ni k := by
  refine inUse_iff_retained (fun j i hj => ((rows j i).1 hj).1) fun j i hj _ => ?_
  have hsel : Selected (some client) i ↔ i.owner = client := by simp [Selected]
  rw [hsel]
  exact (rows j i).trans (and_iff_right hj)

theorem Cleaned.of_rows {out : Removal × Rib} (hout : out.2.Coherent)
    (rows : ∀ ni k i, out.2.row? ni k = some i ↔
      r.row? ni k = some i ∧ (i.owner = client → r.Retained (some client) ni k))
    (accounted : out.1.removed + out.1.remaining = r.ownedBy client)
    (remaining : out.1.remaining = out.2.ownedBy client) : Cleaned r client out := by
  have huse (ni : String) (k : EntryKey) : out.2.InUse ni k ↔ r.Retained (some client) ni k :=
    inUse_iff_of_rows (rows ni)
  have owned (ni : String) (k : EntryKey) (i : Installed Entry) (howner : i.owner = client) :
      out.2.row? ni k = some i ↔ r.row? ni k = some i ∧ out.2.InUse ni k := by
    rw [rows, huse]
    exact and_congr_right fun _ => forall_prop_of_true howner
  have routes (ni : String) (p : Cidr) (i : Installed Entry) (hi : out.2.row? ni (.ipv4 p) = some i) :
      i.owner ≠ client := by
    intro howner
    exact not_retained_ipv4 (((rows ni _ i).1 hi).2 howner)
  constructor
  case others =>
    intro ni k i hother
    rw [rows]
    exact and_iff_left fun howner => absurd howner hother
  case owned => exact owned
  case routes => exact routes
  case groups =>
    intro ni id i hi howner
    rw [owned ni _ i howner, and_iff_right hi, inUse_nextHopGroup_iff hout]
    refine exists_congr fun p => exists_congr fun j => ?_
    exact ⟨fun ⟨hj, hentry⟩ => ⟨hj, routes ni p j hj, hentry⟩, fun ⟨hj, _, hentry⟩ => ⟨hj, hentry⟩⟩
  case nextHops =>
    intro ni index i hi howner
    rw [owned ni _ i howner, and_iff_right hi, inUse_nextHop_iff hout]
  case sound => exact hout.sound
  case accounted => exact accounted
  case remaining => exact remaining

/-! ### In one go -/

theorem Removes.networkInstances {out : Removal × Rib} (h : Removes r ni out) :
    out.2.networkInstances = r.networkInstances := by
  refine Table.keys_congr fun ni' => ?_
  rw [Table.contains, Table.contains]
  by_cases hni : ni' = ni
  · have hknown := congrArg Option.isSome h.numbers
    rw [Option.isSome_map, Option.isSome_map] at hknown
    rw [hni, hknown]
  · rw [h.tables ni' hni]

theorem networkInstances_removeOwnedIn (hc : r.Coherent) (client : ClientId) (nis : List String) :
    (r.removeOwnedIn client nis).2.networkInstances = r.networkInstances := by
  induction nis generalizing r with
  | nil => rfl
  | cons first rest ih =>
    have hfirst := (removeWhere_removes hc first (some client)).networkInstances
    exact (ih ((removeWhere_clearing hc first (some client)).coherent hc)).trans hfirst

theorem cleaned_removeOwnedBy (hc : r.Coherent) (client : ClientId) : Cleaned r client (r.removeOwnedBy client) := by
  obtain ⟨accounted, remaining⟩ := removeOwnedIn_accounts hc r.instances.keys_nodup client
  have hnames : (r.removeOwnedBy client).2.networkInstances = r.networkInstances :=
    networkInstances_removeOwnedIn hc client _
  refine .of_rows ((removeOwnedIn_clearing hc client _).coherent hc) (fun ni k i => row?_removeOwnedBy_iff hc)
    accounted ?_
  rw [ownedBy, hnames]
  exact remaining

/-! ### One removal at a time -/

/-- The keys of a client in the order in which they are removed. -/
def withdrawals (r : Rib) (client : ClientId) : List (String × EntryKey) :=
  r.networkInstances.flatMap fun ni => (removalKeys (r.aft ni) (some client)).map (ni, ·)

/-- The removals of a client's entries one by one, with failures injected at any time before, between and after
them. -/
structure Disturbed (r : Rib) (client : ClientId) (es : List Event) : Prop where
  inOrder : es.filter Event.isRemoval = (r.withdrawals client).map (fun w => .discard w.1 w.2)
  injections : ∀ v ∈ es, v.isRemoval = false → ∃ n, v = .failNext n

theorem removals_append (r : Rib) (es fs : List Event) :
    r.removals (es ++ fs) = r.removals es + (r.run es).removals fs := by
  induction es generalizing r with
  | nil => exact (Removal.zero_add _).symm
  | cons v es ih =>
    rw [List.cons_append, removals, removals, ih, Removal.add_assoc]
    rfl

theorem map_withdrawals (r : Rib) (client : ClientId) :
    (r.withdrawals client).map (fun w => Event.discard w.1 w.2) =
      r.networkInstances.flatMap fun ni => (removalKeys (r.aft ni) (some client)).map (.discard ni) := by
  rw [withdrawals, List.map_flatMap]
  simp only [List.map_map]
  rfl

/-- The keys of the network instances that come later are still the same. -/
theorem flatMap_removalKeys {nis : List String} (hc : r.Coherent) (hni : ni ∉ nis) :
    nis.flatMap (fun ni' => (removalKeys ((r.removeWhere ni (some client)).2.aft ni') (some client)).map
      (Event.discard ni')) =
      nis.flatMap fun ni' => (removalKeys (r.aft ni') (some client)).map (.discard ni') := by
  rw [List.flatMap_def, List.flatMap_def]
  refine congrArg List.flatten (List.map_congr_left fun ni' hmem => ?_)
  have hother : ni' ≠ ni := fun heq => hni (heq ▸ hmem)
  rw [aft, aft, (removeWhere_removes hc ni (some client)).tables ni' hother]

theorem discardAll_eq_run (r : Rib) (ni : String) (ks : List EntryKey) :
    r.discardAll ni ks = (r.removals (ks.map (.discard ni)), r.run (ks.map (.discard ni))) := by
  induction ks generalizing r with
  | nil => rfl
  | cons k ks ih =>
    rw [discardAll_cons, ih]
    rfl

theorem removeOwnedIn_eq_run {nis : List String} (hc : r.Coherent) (nodup : nis.Nodup) :
    let es := nis.flatMap fun ni => (removalKeys (r.aft ni) (some client)).map (Event.discard ni)
    r.removeOwnedIn client nis = (r.removals es, r.run es) := by
  induction nis generalizing r with
  | nil => rfl
  | cons first rest ih =>
    obtain ⟨hnew, hnodup⟩ := List.nodup_cons.1 nodup
    have hrest := ih ((removeWhere_clearing hc first (some client)).coherent hc) hnodup
    rw [flatMap_removalKeys hc hnew] at hrest
    dsimp only at hrest ⊢
    rw [removeOwnedIn_cons, hrest, removeWhere_eq_aft hc, discardAll_eq_run, List.flatMap_cons, removals_append,
      run_append]

/-- Taking away what a client owns is removing its keys one after the other. -/
theorem removeOwnedBy_eq_run (hc : r.Coherent) (client : ClientId) :
    r.removeOwnedBy client = (r.removals ((r.withdrawals client).map fun w => .discard w.1 w.2),
      r.run ((r.withdrawals client).map fun w => .discard w.1 w.2)) := by
  rw [map_withdrawals]
  exact removeOwnedIn_eq_run hc r.instances.keys_nodup

/-- Injections change neither what is counted nor what becomes of the rows. -/
theorem run_disturbed {nis : List String} {es : List Event} (hr : r.Coherent) (hs : s.Coherent) (alike : Alike r s)
    (nodup : nis.Nodup)
    (inOrder : es.filter Event.isRemoval =
      nis.flatMap fun ni => (removalKeys (s.aft ni) (some client)).map (.discard ni))
    (injections : ∀ v ∈ es, v.isRemoval = false → ∃ n, v = .failNext n) :
    r.removals es = (s.removeOwnedIn client nis).1 ∧ Alike (r.run es) (s.removeOwnedIn client nis).2 ∧
      (r.run es).networkInstances = r.networkInstances := by
  induction nis generalizing r s es with
  | nil =>
    have interrupted : Interrupted "" [] es := ⟨inOrder, injections⟩
    obtain ⟨hremoves, hcount, hrows⟩ := interrupted.run hr hs alike
    exact ⟨hcount, hrows, hremoves.networkInstances⟩
  | cons first rest ih =>
    obtain ⟨hnew, hnodup⟩ := List.nodup_cons.1 nodup
    rw [List.flatMap_cons] at inOrder
    obtain ⟨now, later, rfl, hnow, hlater⟩ := List.filter_eq_append_iff.1 inOrder
    have interrupted : Interrupted first (removalKeys (s.aft first) (some client)) now :=
      ⟨hnow, fun v hv => injections v (List.mem_append_left _ hv)⟩
    obtain ⟨hremoves, hcount, hrows⟩ := interrupted.run hr hs alike
    rw [← removeWhere_eq_aft hs] at hcount hrows
    rw [← flatMap_removalKeys hs hnew] at hlater
    obtain ⟨hcounts, hend, hnames⟩ := ih (run_coherent hr now)
      ((removeWhere_clearing hs first (some client)).coherent hs) hrows hnodup hlater
      fun v hv => injections v (List.mem_append_right _ hv)
    refine ⟨?_, ?_, ?_⟩
    · rw [removals_append, hcount, hcounts]
      rfl
    · rw [run_append]
      exact hend
    · rw [run_append, hnames]
      exact hremoves.networkInstances

theorem Disturbed.cleaned {es : List Event} (h : Disturbed r client es) (hc : r.Coherent) :
    Cleaned r client (r.removals es, r.run es) := by
  have inOrder := h.inOrder
  rw [map_withdrawals] at inOrder
  obtain ⟨hcount, hrows, hnames⟩ := run_disturbed hc hc (fun _ _ => rfl) r.instances.keys_nodup inOrder h.injections
  have hclean := cleaned_removeOwnedBy hc client
  refine .of_rows (run_coherent hc es) (fun ni k i => ?_) ?_ ?_
  · exact (hrows ni k).symm ▸ row?_removeOwnedBy_iff hc
  · rw [hcount]
    exact hclean.accounted
  · have hlast : (r.removeOwnedBy client).2.networkInstances = r.networkInstances :=
      networkInstances_removeOwnedIn hc client _
    rw [hcount]
    refine hclean.remaining.trans ?_
    rw [ownedBy, ownedBy, hnames, hlast]
    exact ownedAmong_congr fun ni _ => ownedIn_congr (fun k => (hrows ni k).symm) client

end Rib

namespace History

open Rib

/-- Whatever the history, taking away what a client owns removes exactly what nothing left in place refers to, in one
go, and one removal at a time with failures injected in between. -/
theorem cleanup_exact (h : History) (client : ClientId) :
    Cleaned h.rib client (h.rib.removeOwnedBy client) ∧
      h.rib.removeOwnedBy client =
        (h.rib.removals ((h.rib.withdrawals client).map fun w => .discard w.1 w.2),
          h.rib.run ((h.rib.withdrawals client).map fun w => .discard w.1 w.2)) ∧
      ∀ es, Disturbed h.rib client es → Cleaned h.rib client (h.rib.removals es, h.rib.run es) :=
  ⟨cleaned_removeOwnedBy h.coherent client, removeOwnedBy_eq_run h.coherent client,
    fun _ disturbed => disturbed.cleaned h.coherent⟩

/-- 198.51.100.0/24 -/
def neighbouring : Cidr := ⟨.v4 ⟨0xC6336400⟩, 24, by decide⟩

/-- A second client binds a prefix of its own to the group of the first one. -/
def sharedGroup : History :=
  oneRoute [.batch { client := 2 }
    [{ id := 1, networkInstance := "DEFAULT", op := .add, entry := .ipv4 ⟨neighbouring, 10⟩ }]]

/-- The removals of what the first client has, with the first one and the last one refused. -/
def refusals : List Event :=
  [.failNext 1, .discard "DEFAULT" (.ipv4 documentation), .discard "DEFAULT" (.nextHopGroup 10), .failNext 2,
    .discard "DEFAULT" (.nextHop 42)]

/-- The first client loses its prefix, whatever the hardware does, and keeps its group and its next-hop. -/
theorem cleanup_exact_sharedGroup : Disturbed sharedGroup.rib 1 refusals ∧
    sharedGroup.rib.removals refusals = ⟨1, 2⟩ ∧ sharedGroup.rib.ownedBy 1 = 3 ∧
    (sharedGroup.rib.run refusals).ownedBy 1 = 2 ∧
    Cleaned sharedGroup.rib 1 (sharedGroup.rib.removals refusals, sharedGroup.rib.run refusals) := by
  have disturbed : Disturbed sharedGroup.rib 1 refusals := by
    have hkeys : sharedGroup.rib.withdrawals 1 =
        [("DEFAULT", .ipv4 documentation), ("DEFAULT", .nextHopGroup 10), ("DEFAULT", .nextHop 42)] := by
      decide +kernel
    constructor
    case inOrder => rw [hkeys]; rfl
    case injections => simp [refusals, Event.isRemoval]
  exact ⟨disturbed, by decide +kernel, by decide +kernel, by decide +kernel,
    (cleanup_exact sharedGroup 1).2.2 _ disturbed⟩

end History

end RouteProgramming
