import Mathlib.Data.List.Induction
import Mathlib.Data.List.Nodup
import RouteProgramming.Proofs.Address.Prefix
import RouteProgramming.Proofs.Forwarding.Programmed
import RouteProgramming.Proofs.Table.Rows

/-! Where a lookup goes. A destination takes the longest programmed route unless
a connected subnet is at least as long; a group with weights always has a
member for it; and a next-hop leads out of the interface that it names, or of
the one whose connected subnet is the longest around its address. -/

namespace RouteProgramming

/-! ### The last longest of a list -/

section Longest

variable {α : Type} {measure : α → Nat} {xs : List α} {x : α}

theorem lastLongest?_concat (measure : α → Nat) (xs : List α) (x : α) :
    lastLongest? measure (xs ++ [x]) =
      some (match lastLongest? measure xs with
        | none => x
        | some b => if measure b ≤ measure x then x else b) := by
  rw [lastLongest?, List.foldl_append, List.foldl_cons, List.foldl_nil, ← lastLongest?]
  cases lastLongest? measure xs with
  | none => rfl
  | some b =>
    dsimp only
    split <;> rfl

theorem lastLongest?_eq_none : lastLongest? measure xs = none ↔ xs = [] := by
  induction xs using List.reverseRecOn with
  | nil => exact iff_of_true rfl rfl
  | append_singleton ys y => rw [lastLongest?_concat]; simp

/-- No element is longer than the one that is chosen, and none behind it is as long. -/
theorem lastLongest?_split (h : lastLongest? measure xs = some x) :
    ∃ before after, xs = before ++ x :: after ∧ (∀ y ∈ before, measure y ≤ measure x) ∧
      ∀ y ∈ after, measure y < measure x := by
  induction xs using List.reverseRecOn generalizing x with
  | nil => contradiction
  | append_singleton ys y ih =>
    rw [lastLongest?_concat] at h
    cases hys : lastLongest? measure ys with
    | none =>
      rw [hys] at h
      cases h
      exact ⟨ys, [], rfl, fun z hz => absurd (lastLongest?_eq_none.1 hys ▸ hz) List.not_mem_nil, nofun⟩
    | some b =>
      rw [hys] at h
      obtain ⟨before, after, rfl, hbefore, hafter⟩ := ih hys
      dsimp only at h
      split at h
      case isTrue hle =>
        cases h
        refine ⟨before ++ b :: after, [], rfl, fun z hz => ?_, nofun⟩
        rcases List.mem_append.1 hz with hz | hz
        · exact Nat.le_trans (hbefore z hz) hle
        · rcases List.mem_cons.1 hz with rfl | hz
          · exact hle
          · exact Nat.le_trans (Nat.le_of_lt (hafter z hz)) hle
      case isFalse hlt =>
        cases h
        refine ⟨before, after ++ [y], by simp, hbefore, fun z hz => ?_⟩
        rcases List.mem_append.1 hz with hz | hz
        · exact hafter z hz
        · rw [List.mem_singleton.1 hz]
          exact Nat.lt_of_not_le hlt

/-- Among elements in the order of their keys the choice is the longest, and of several as long the last. -/
theorem lastLongest?_eq_some_iff {κ : Type} [Ord κ] [Std.TransOrd κ] [Std.LawfulEqOrd κ] {key : α → κ}
    (ordered : xs.Pairwise (fun y z => compare (key y) (key z) = .lt)) : lastLongest? measure xs = some x ↔
      x ∈ xs ∧ ∀ y ∈ xs, measure y < measure x ∨ measure y = measure x ∧ (compare (key y) (key x)).isLE := by
  have hchosen {b : α} (hb : lastLongest? measure xs = some b) : b ∈ xs ∧
      ∀ y ∈ xs, measure y < measure b ∨ measure y = measure b ∧ (compare (key y) (key b)).isLE := by
    obtain ⟨before, after, rfl, hbefore, hafter⟩ := lastLongest?_split hb
    have hpairs := (List.pairwise_append.1 ordered).2.2
    refine ⟨by simp, fun y hy => ?_⟩
    rcases List.mem_append.1 hy with hy | hy
    · have hle := hbefore y hy
      have hlt := hpairs y hy b (.head _)
      rcases Nat.lt_or_eq_of_le hle with hshort | hsame
      · exact .inl hshort
      · exact .inr ⟨hsame, by rw [hlt]; rfl⟩
    · rcases List.mem_cons.1 hy with rfl | hy
      · exact .inr ⟨rfl, Std.ReflCmp.isLE_rfl⟩
      · exact .inl (hafter y hy)
  constructor
  · exact hchosen
  · rintro ⟨hx, hall⟩
    cases hb : lastLongest? measure xs with
    | none => exact absurd (lastLongest?_eq_none.1 hb ▸ hx) List.not_mem_nil
    | some b =>
      -- the two are as long as each other and neither comes before the other
      obtain ⟨hmem, hbest⟩ := hchosen hb
      have hkey : key b = key x := by
        rcases hall b hmem with hlt | ⟨-, hle⟩
        · rcases hbest x hx with hlt' | ⟨heq, -⟩ <;> omega
        · rcases hbest x hx with hlt' | ⟨-, hle'⟩
          · have := hall b hmem
            omega
          · exact Std.LawfulEqOrd.eq_of_compare (Std.OrientedCmp.isLE_antisymm hle hle')
      have hnodup : (xs.map key).Nodup := by
        refine List.pairwise_map.2 (ordered.imp fun {y z} hlt heq => ?_)
        rw [heq, Std.ReflOrd.compare_self] at hlt
        contradiction
      rw [List.inj_on_of_nodup_map hnodup hmem hx hkey]

end Longest

/-! ### Members of a group -/

namespace NextHopGroup

theorem memberAt_mem {rows : List (UInt64 × UInt64)} {point : Nat}
    (h : point < (rows.map (fun r => r.2.toNat)).foldr (· + ·) 0) : ∃ r ∈ rows, memberAt rows point = some r.1 := by
  induction rows generalizing point with
  | nil => contradiction
  | cons r rows ih =>
    rw [List.map_cons, List.foldr_cons] at h
    rw [memberAt]
    split
    case isTrue => exact ⟨r, .head _, rfl⟩
    case isFalse hge =>
      obtain ⟨s, hs, hmember⟩ := ih (show point - r.2.toNat < _ by omega)
      exact ⟨s, .tail _ hs, hmember⟩

theorem mem_of_memberAt {rows : List (UInt64 × UInt64)} {point : Nat} {index : UInt64}
    (h : memberAt rows point = some index) : index ∈ rows.map (·.1) := by
  induction rows generalizing point with
  | nil => contradiction
  | cons r rows ih =>
    rw [memberAt] at h
    rw [List.map_cons, List.mem_cons]
    split at h
    · exact .inl (Option.some.inj h).symm
    · exact .inr (ih h)

theorem mem_keys_of_pick {g : NextHopGroup} {destination : Ipv4} {index : UInt64}
    (h : g.pick destination = some index) : index ∈ g.members.keys := by
  rw [pick] at h
  split at h
  · contradiction
  · exact mem_of_memberAt h

/-- A group with weights has a member for every destination. -/
theorem pick_mem {g : NextHopGroup} (h : 0 < g.totalWeight) (destination : Ipv4) :
    ∃ index ∈ g.members.keys, g.pick destination = some index := by
  have hsum : g.totalWeight = (g.members.rows.map (fun r => r.2.toNat)).foldr (· + ·) 0 := by
    rw [totalWeight, Table.values, List.map_map]
    rfl
  have hlt := Nat.mod_lt (hash destination) h
  obtain ⟨r, hr, hmember⟩ := memberAt_mem (Nat.lt_of_lt_of_eq hlt hsum)
  exact ⟨r.1, List.mem_map.2 ⟨r, hr, rfl⟩, by rw [pick, if_neg (Nat.ne_of_gt h), hmember]⟩

/-- A valid group has weights. -/
theorem totalWeight_pos {g : NextHopGroup} (h : g.check = .ok ()) : 0 < g.totalWeight := by
  rw [check] at h
  split at h
  case isTrue => contradiction
  case isFalse =>
    split at h
    case isTrue => contradiction
    case isFalse hmembers =>
      split at h
      case h_1 => contradiction
      case h_2 hweights =>
        rw [totalWeight, Table.values]
        cases hrows : g.members.rows with
        | nil => simp [Table.isEmpty, hrows] at hmembers
        | cons r rows =>
          have hr := List.find?_eq_none.1 hweights r (hrows ▸ List.mem_cons_self)
          have hpos : 0 < r.2.toNat := by
            refine Nat.pos_of_ne_zero fun hz => hr ?_
            rw [beq_iff_eq]
            exact UInt64.toNat_inj.1 hz
          simp only [List.map_cons, List.foldr_cons]
          omega

end NextHopGroup

/-! ### Ways out -/

namespace ForwardingPlane

variable {p : ForwardingPlane}

/-- Every interface is filed under its name. -/
def Keyed (p : ForwardingPlane) : Prop := ∀ name i, p.interfaces.get? name = some i → i.name = name

/-- An enabled interface whose subnet is the longest around an address; of several the last by name. -/
structure Nearest (p : ForwardingPlane) (a : Address) (i : Interface) : Prop where
  known : i ∈ p.interfaces.values
  enabled : i.enabled
  around : i.subnet.contains a
  longest : ∀ j ∈ p.interfaces.values, j.enabled → j.subnet.contains a →
    j.subnet.length < i.subnet.length ∨ j.subnet.length = i.subnet.length ∧ (compare j.name i.name).isLE

/-- The interface by which a next-hop leaves the device. -/
inductive Egress (p : ForwardingPlane) (e : NextHop) : Interface → Prop
  | named {name : String} {i : Interface} (names : e.interface = some name) (known : p.interfaces.get? name = some i)
    (enabled : i.enabled) : Egress p e i
  | addressed {a : Address} {i : Interface} (unnamed : e.interface = none) (address : e.address = some a)
    (nearest : p.Nearest a i) : Egress p e i

theorem Keyed.of_interfaces {q : ForwardingPlane} (h : p.Keyed) (same : q.interfaces = p.interfaces) : q.Keyed := by
  rw [Keyed, same]
  exact h

theorem Keyed.configure {q : ForwardingPlane} {name : String} {address : Ipv4} {length : Nat} {enabled : Bool}
    (h : p.Keyed) (hq : p.configure name address length enabled = .ok q) : q.Keyed := by
  rw [ForwardingPlane.configure] at hq
  split at hq
  · contradiction
  · cases hq
    intro name' i hi
    dsimp only at hi
    rw [Table.get?_insert] at hi
    split at hi
    case isTrue hname => cases hi; exact hname.symm
    case isFalse => exact h name' i hi

theorem Keyed.removeInterface (h : p.Keyed) (name : String) : (p.removeInterface name).2.Keyed := by
  intro name' i hi
  rw [ForwardingPlane.removeInterface] at hi
  dsimp only at hi
  rw [Table.get?_erase] at hi
  split at hi
  · contradiction
  · exact h name' i hi

theorem Keyed.values_increasing (h : p.Keyed) :
    p.interfaces.values.Pairwise (fun i j => compare i.name j.name = .lt) := by
  refine List.pairwise_map.2 (p.interfaces.increasing.imp_of_mem fun {r s} hr hs hlt => ?_)
  rwa [h r.1 r.2 (Table.get?_eq_some_iff.2 hr), h s.1 s.2 (Table.get?_eq_some_iff.2 hs)]

theorem connected?_eq_none {a : Address} :
    p.connected? a = none ↔ ∀ i ∈ p.interfaces.values, i.enabled → i.subnet.contains a = false := by
  rw [connected?, lastLongest?_eq_none, List.filter_eq_nil_iff]
  simp

theorem mem_of_connected? {a : Address} {i : Interface} (h : p.connected? a = some i) :
    i ∈ p.interfaces.values ∧ i.enabled ∧ i.subnet.contains a := by
  obtain ⟨hmem, hpass⟩ := List.mem_filter.1 (mem_of_lastLongest? h)
  exact ⟨hmem, by simpa using hpass⟩

theorem connected?_eq_some_iff (hp : p.Keyed) {a : Address} {i : Interface} :
    p.connected? a = some i ↔ p.Nearest a i := by
  have hordered := hp.values_increasing.filter (fun i => i.enabled && i.subnet.contains a)
  rw [connected?, lastLongest?_eq_some_iff hordered]
  simp only [List.mem_filter, Bool.and_eq_true]
  constructor
  · rintro ⟨⟨known, enabled, around⟩, hall⟩
    exact ⟨known, enabled, around, fun j hj henabled haround => hall j ⟨hj, henabled, haround⟩⟩
  · rintro ⟨known, enabled, around, hall⟩
    exact ⟨⟨known, enabled, around⟩, fun j ⟨hj, henabled, haround⟩ => hall j hj henabled haround⟩

theorem resolve_of_egress (hp : p.Keyed) {e : NextHop} {i : Interface} (h : p.Egress e i) (destination : Address) :
    p.resolve e destination = some (i.name, e.address.getD destination) := by
  cases h with
  | named names known enabled =>
    rw [resolve, names]
    simp [known, enabled]
  | addressed unnamed address nearest =>
    rw [resolve, unnamed, address]
    simp [(connected?_eq_some_iff hp).2 nearest]

/-! ### Lookups -/

variable {ni : String} {route : Cidr} {group : UInt64} {dst : Ipv4}

/-- The longest route around an address; of several the last in order. -/
structure Foremost (f : Fib) (a : Address) (route : Cidr) (group : UInt64) : Prop where
  programmed : f.routes.get? route = some group
  around : route.contains a
  longest : ∀ other id, f.routes.get? other = some id → other.contains a →
    other.length < route.length ∨ other.length = route.length ∧ (compare other route).isLE

theorem foremost_iff {f : Fib} {a : Address} :
    lastLongest? (·.1.length) (f.matching a) = some (route, group) ↔ Foremost f a route group := by
  have hordered := f.routes.increasing.filter (fun r => r.1.contains a)
  rw [Fib.matching, lastLongest?_eq_some_iff hordered]
  simp only [List.mem_filter, Prod.forall, ← Table.get?_eq_some_iff]
  constructor
  · rintro ⟨⟨programmed, around⟩, hall⟩
    exact ⟨programmed, around, fun other id hother hin => hall other id ⟨hother, hin⟩⟩
  · rintro ⟨programmed, around, hall⟩
    exact ⟨⟨programmed, around⟩, fun other id ⟨hother, hin⟩ => hall other id hother hin⟩

/-- The programmed route that wins: the longest one, and longer than every enabled connected subnet. -/
structure Wins (p : ForwardingPlane) (ni : String) (dst : Ipv4) (route : Cidr) (group : UInt64) : Prop where
  foremost : Foremost (p.fib ni) (.v4 dst) route group
  longer : ∀ i ∈ p.interfaces.values, i.enabled → i.subnet.contains (.v4 dst) → i.subnet.length < route.length

/-- A route that wins is followed. -/
theorem Wins.lookup (h : p.Wins ni dst route group) : p.lookup ni dst = p.follow (p.fib ni) route group dst := by
  rw [ForwardingPlane.lookup, foremost_iff.2 h.foremost]
  cases hc : p.connected? (.v4 dst) with
  | none => rfl
  | some i =>
    obtain ⟨hknown, henabled, hin⟩ := mem_of_connected? hc
    exact if_pos (h.longer i hknown henabled hin)

/-- The longest route around a destination is followed if no connected subnet around it is as long. -/
theorem lookup_of_route (hroute : (p.fib ni).routes.get? route = some group) (haround : route.contains (.v4 dst))
    (hlongest : ∀ other id, (p.fib ni).routes.get? other = some id → other.contains (.v4 dst) → other ≠ route →
      other.length < route.length)
    (hconnected : ∀ i ∈ p.interfaces.values, i.enabled → i.subnet.contains (.v4 dst) →
      i.subnet.length < route.length) :
    p.lookup ni dst = p.follow (p.fib ni) route group dst := by
  have foremost : Foremost (p.fib ni) (.v4 dst) route group := by
    refine ⟨hroute, haround, fun other id hother hin => ?_⟩
    by_cases hsame : other = route
    · exact .inr ⟨by rw [hsame], by rw [hsame]; exact Std.ReflCmp.isLE_rfl⟩
    · exact .inl (hlongest other id hother hin hsame)
  exact Wins.lookup ⟨foremost, hconnected⟩

/-- A route is followed to the next-hop that its group picks. -/
theorem follow_of_egress (hp : p.Keyed) {f : Fib} {g : NextHopGroup} {index : UInt64} {e : NextHop} {i : Interface}
    (hgroup : f.groups.get? group = some g) (hpick : g.pick dst = some index) (hnext : f.nextHops.get? index = some e)
    (he : p.Egress e i) :
    p.follow f route group dst = some ⟨i.name, e.address.getD (.v4 dst), route, true⟩ := by
  simp [follow, hgroup, hpick, hnext, resolve_of_egress hp he]

end ForwardingPlane

end RouteProgramming
