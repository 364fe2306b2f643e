import RouteProgramming.Forwarding
import RouteProgramming.Proofs.Aft.Contents

/-! The hardware tables of one network instance read as a map from keys to
entries. An entry whose references are there is programmed under its key and
nothing else changes; removing a key empties it. A lookup that follows a
programmed route has found that route in the map. -/

namespace RouteProgramming

namespace Fib

variable {f : Fib} {e : Entry} {k : EntryKey}

/-- The entry that the hardware holds under a key. -/
def get? (f : Fib) : EntryKey → Option Entry
  | .nextHop index => (f.nextHops.get? index).map .nextHop
  | .nextHopGroup id => (f.groups.get? id).map .nextHopGroup
  | .ipv4 destination => (f.routes.get? destination).map (fun group => .ipv4 ⟨destination, group⟩)

theorem ext_get? {f g : Fib} (h : ∀ k, f.get? k = g.get? k) : f = g := by
  have hnextHops : f.nextHops = g.nextHops := Table.ext_get? fun i =>
    (Option.map_inj_right fun _ _ => Entry.nextHop.inj).1 (h (.nextHop i))
  have hgroups : f.groups = g.groups := Table.ext_get? fun i =>
    (Option.map_inj_right fun _ _ => Entry.nextHopGroup.inj).1 (h (.nextHopGroup i))
  have hroutes : f.routes = g.routes := Table.ext_get? fun p =>
    (Option.map_inj_right fun _ _ he => congrArg Ipv4Entry.group (Entry.ipv4.inj he)).1 (h (.ipv4 p))
  cases f
  cases g
  simp only at hnextHops hgroups hroutes
  rw [hnextHops, hgroups, hroutes]

theorem program_ok (hr : ∀ k ∈ e.references, (f.get? k).isSome) :
    ∃ g, f.program e = .ok g ∧ ∀ k, g.get? k = if k = e.key then some e else f.get? k := by
  cases e with
  | nextHop e =>
    refine ⟨_, rfl, fun k => ?_⟩
    cases k with
    | nextHop i =>
      simp only [get?, Table.get?_insert, Entry.key, EntryKey.nextHop.injEq]
      split <;> rfl
    | nextHopGroup i => rfl
    | ipv4 p => rfl
  | nextHopGroup e =>
    have hfind : e.members.keys.find? (fun index => !f.nextHops.contains index) = none := by
      refine List.find?_eq_none.2 fun i hi => ?_
      have := hr (.nextHop i) (List.mem_map.2 ⟨i, hi, rfl⟩)
      rw [get?, Option.isSome_map] at this
      simp [Table.contains, this]
    refine ⟨_, by rw [program, hfind], fun k => ?_⟩
    cases k with
    | nextHop i => rfl
    | nextHopGroup i =>
      simp only [get?, Table.get?_insert, Entry.key, EntryKey.nextHopGroup.injEq]
      split <;> rfl
    | ipv4 p => rfl
  | ipv4 e =>
    have hgroup : f.groups.contains e.group := by
      have := hr (.nextHopGroup e.group) (List.mem_singleton.2 rfl)
      rwa [get?, Option.isSome_map] at this
    refine ⟨_, by rw [program, if_pos hgroup], fun k => ?_⟩
    cases k with
    | nextHop i => rfl
    | nextHopGroup i => rfl
    | ipv4 p =>
      simp only [get?, Table.get?_insert, Entry.key, EntryKey.ipv4.injEq]
      split
      case isTrue hp => rw [hp]; rfl
      case isFalse => rfl

theorem get?_remove (f : Fib) (k k' : EntryKey) :
    (f.remove k).get? k' = if k' = k then none else f.get? k' := by
  cases k <;> cases k' <;>
    simp only [remove, get?, Table.get?_erase, EntryKey.nextHop.injEq, EntryKey.nextHopGroup.injEq,
      EntryKey.ipv4.injEq, reduceCtorEq, if_false] <;> split <;> rfl

end Fib

namespace ForwardingPlane

variable {p q : ForwardingPlane}

theorem fib_setFib (p : ForwardingPlane) (ni ni' : String) (f : Fib) :
    (p.setFib ni f).fib ni' = if ni' = ni then f else p.fib ni' := by
  simp only [fib, setFib, Table.get?_insert]
  split <;> rfl

/-- A plane that is to fail refuses any entry and is then one failure closer to working. -/
theorem program_of_failing (h : 0 < p.failures) (ni : String) (e : Entry) :
    p.program ni e = (.error .injected, { p with failures := p.failures - 1 }) := if_pos h

theorem remove_of_failing (h : 0 < p.failures) (ni : String) (k : EntryKey) :
    p.remove ni k = (.error .injected, { p with failures := p.failures - 1 }) := if_pos h

theorem remove_of_working (h : p.failures = 0) (ni : String) (k : EntryKey) :
    p.remove ni k = (.ok (), p.setFib ni ((p.fib ni).remove k)) := if_neg (by omega)

theorem program_of_working {f : Fib} (h : p.failures = 0) {ni : String} {e : Entry}
    (hf : (p.fib ni).program e = .ok f) : p.program ni e = (.ok (), p.setFib ni f) := by
  rw [program, if_neg (by omega), hf]

/-! ### Lookups -/

/-- A fold that keeps what it has or takes the next element ends with an element or with its start. -/
theorem mem_of_foldl {α : Type} {f : Option α → α → Option α}
    (hf : ∀ best x, f best x = best ∨ f best x = some x) (xs : List α) (best : Option α) {x : α}
    (h : xs.foldl f best = some x) : x ∈ xs ∨ best = some x := by
  induction xs generalizing best with
  | nil => exact .inr h
  | cons y ys ih =>
    rcases ih _ h with hmem | hbest
    · exact .inl (.tail _ hmem)
    · rcases hf best y with hkeep | htake
      · exact .inr (hkeep ▸ hbest)
      · rw [htake] at hbest
        cases hbest
        exact .inl (.head _)

theorem mem_of_lastLongest? {α : Type} {measure : α → Nat} {xs : List α} {x : α}
    (h : lastLongest? measure xs = some x) : x ∈ xs := by
  refine (mem_of_foldl (fun best y => ?_) xs none h).resolve_right (by simp)
  cases best with
  | none => exact .inr rfl
  | some b =>
    dsimp only
    split
    · exact .inr rfl
    · exact .inl rfl

/-- A programmed decision follows a route that the hardware holds. -/
theorem route_of_lookup {ni : String} {dst : Ipv4} {d : Decision} (h : p.lookup ni dst = some d)
    (hd : d.programmed) : ∃ group, (p.fib ni).get? (.ipv4 d.route) = some (.ipv4 ⟨d.route, group⟩) := by
  have hroute {route : Cidr} {group : UInt64}
      (hl : lastLongest? (·.1.length) ((p.fib ni).matching (.v4 dst)) = some (route, group))
      (hf : p.follow (p.fib ni) route group dst = some d) :
      ∃ group, (p.fib ni).get? (.ipv4 d.route) = some (.ipv4 ⟨d.route, group⟩) := by
    obtain ⟨hmem, -⟩ := List.mem_filter.1 (mem_of_lastLongest? hl)
    simp only [follow, bind, Option.bind_eq_some_iff, pure, Option.some.injEq] at hf
    obtain ⟨_, -, _, -, _, -, _, -, rfl⟩ := hf
    exact ⟨group, by rw [Fib.get?, Table.get?_eq_some_iff.2 hmem]; rfl⟩
  rw [lookup] at h
  split at h
  case h_1 => contradiction
  case h_2 => cases h; contradiction
  case h_3 hl _ => exact hroute hl h
  case h_4 hl _ =>
    split at h
    · exact hroute hl h
    · cases h; contradiction

end ForwardingPlane

end RouteProgramming
