import Mathlib.Data.List.Chain
import Mathlib.Data.List.Nodup
import Mathlib.Logic.Relation
import RouteProgramming.Profile.Registry
import RouteProgramming.Table.Lookup

/-! The resolution of a profile against the graph of dependencies. A search that
succeeds has listed what it was asked for and what that reaches, every profile
once and after all that it depends on; a search that fails names a profile that
is not loaded or a cycle, and both can be reached from where it started. So a
profile can be resolved exactly when neither is in reach. -/

namespace RouteProgramming.Registry

open Relation (ReflTransGen TransGen)

variable {r : Registry} {a b id root : FeatureId} {path done starts order : List FeatureId}

/-! ### The graph -/

/-- A profile lists another one among its dependencies. -/
def DependsOn (r : Registry) (a b : FeatureId) : Prop := ∃ p, r.get? a = some p ∧ b ∈ p.dependencies

/-- Found by following dependencies, in any number of steps. -/
def Reaches (r : Registry) : FeatureId → FeatureId → Prop := ReflTransGen r.DependsOn

/-- All that can be reached is loaded, and nothing that can be reached depends on itself. -/
structure Resolvable (r : Registry) (id : FeatureId) : Prop where
  loaded : r.contains id
  closed : ∀ a b, r.Reaches id a → r.DependsOn a b → r.contains b
  acyclic : ∀ a, r.Reaches id a → ¬TransGen r.DependsOn a a

/-- Profiles that are loaded, each of them once and after all that it depends on. -/
structure Ordered (r : Registry) (order : List FeatureId) : Prop where
  nodup : order.Nodup
  loaded : ∀ a ∈ order, r.contains a
  after : ∀ before a rest, order = before ++ a :: rest → ∀ b, r.DependsOn a b → b ∈ before

/-- What stands in the way of a resolution: a profile in reach that is not loaded, or a cycle, which is named from
one of its profiles around to the same one. -/
inductive Obstacle (r : Registry) (id : FeatureId) : ProfileError → Prop
  | absent (absent : ¬r.contains id) : Obstacle r id (.notFound id)
  | missing {a b : FeatureId} (reached : r.Reaches id a) (depends : r.DependsOn a b) (missing : ¬r.contains b) :
    Obstacle r id (.missingDependency a b)
  | cycle {c : FeatureId} {between : List FeatureId} (reached : r.Reaches id c)
    (chain : (c :: between ++ [c]).IsChain r.DependsOn) : Obstacle r id (.dependencyCycle (c :: between ++ [c]))

/-- Only the dependencies of its profile are those of an id. -/
theorem dependsOn_iff {p : Profile} (hp : r.get? a = some p) : r.DependsOn a b ↔ b ∈ p.dependencies := by
  simp [DependsOn, hp]

/-! ### Orders -/

theorem ordered_nil : r.Ordered [] := ⟨.nil, nofun, fun before a rest h => absurd h (by simp)⟩

theorem Ordered.concat (h : r.Ordered order) (new : id ∉ order) (loaded : r.contains id)
    (depends : ∀ b, r.DependsOn id b → b ∈ order) : r.Ordered (order ++ [id]) := by
  constructor
  · rw [← List.concat_eq_append]
    exact h.nodup.concat new
  · intro a ha
    rcases List.mem_append.1 ha with ha | ha
    · exact h.loaded a ha
    · rw [List.mem_singleton.1 ha]
      exact loaded
  · intro before a rest hsplit b hb
    rcases rest.eq_nil_or_concat with rfl | ⟨rest, z, rfl⟩
    · obtain ⟨rfl, ha⟩ := List.append_inj' hsplit rfl
      rw [← List.singleton_inj.1 ha] at hb
      exact depends b hb
    · rw [List.concat_eq_append, ← List.cons_append, ← List.append_assoc] at hsplit
      exact h.after before a rest (List.append_inj' hsplit rfl).1 b hb

/-- A dependency of a listed profile is listed before it. -/
theorem Ordered.idxOf_lt (h : r.Ordered order) (ha : a ∈ order) (hab : r.DependsOn a b) :
    b ∈ order ∧ order.idxOf b < order.idxOf a := by
  obtain ⟨before, rest, rfl⟩ := List.append_of_mem ha
  have hb : b ∈ before := h.after before a rest rfl b hab
  have hnew : a ∉ before := fun hmem => (List.disjoint_of_nodup_append h.nodup) hmem (.head _)
  refine ⟨List.mem_append_left _ hb, ?_⟩
  rw [List.idxOf_append_of_mem hb, List.idxOf_append_of_notMem hnew, List.idxOf_cons_self, Nat.add_zero]
  exact List.idxOf_lt_length_of_mem hb

theorem Ordered.mem_of_reaches (h : r.Ordered order) (ha : a ∈ order) (hab : r.Reaches a b) : b ∈ order := by
  induction hab with
  | refl => exact ha
  | tail _ hbc ih => exact (h.idxOf_lt ih hbc).1

theorem Ordered.acyclic (h : r.Ordered order) (ha : a ∈ order) : ¬TransGen r.DependsOn a a := by
  have hdown {b : FeatureId} (hab : TransGen r.DependsOn a b) : b ∈ order ∧ order.idxOf b < order.idxOf a := by
    induction hab with
    | single hab => exact h.idxOf_lt ha hab
    | tail _ hbc ih =>
      obtain ⟨hmem, hlt⟩ := h.idxOf_lt ih.1 hbc
      exact ⟨hmem, Nat.lt_trans hlt ih.2⟩
  exact fun hself => Nat.lt_irrefl _ (hdown hself).2

/-! ### A search that succeeds -/

theorem visit_of_get?_none (hnone : r.get? id = none) (new : id ∉ done) (off : id ∉ path) :
    r.visit path done id = .error (.notFound id) := by
  rw [visit, if_neg (by simpa using new), dif_neg (by simpa using off)]
  split
  case h_1 => rfl
  case h_2 p hp =>
    rw [hnone] at hp
    contradiction

/-- The visit of a loaded profile that is neither done nor on the path. -/
theorem visit_of_get? {p : Profile} (hp : r.get? id = some p) (new : id ∉ done) (off : id ∉ path) :
    r.visit path done id = (r.visitAll (path ++ [id]) done id p.dependencies).map (· ++ [id]) := by
  rw [visit, if_neg (by simpa using new), dif_neg (by simpa using off)]
  split
  case h_1 hnone =>
    rw [hp] at hnone
    contradiction
  case h_2 q hq =>
    rw [Option.some.inj (hp.symm.trans hq)]

/-- The list of those done after visits from `starts` on: it is in order, it has what it had and the starts, and all
that is new is in reach of a start and not on the path. -/
structure Extends (r : Registry) (path done starts order : List FeatureId) : Prop where
  ordered : r.Ordered order
  kept : ∀ a ∈ done, a ∈ order
  visited : ∀ a ∈ starts, a ∈ order
  new : ∀ a ∈ order, a ∈ done ∨ a ∉ path ∧ ∃ s ∈ starts, r.Reaches s a

theorem Extends.cons {d : FeatureId} {ds mid : List FeatureId} (h : r.Extends path done [d] mid)
    (h' : r.Extends path mid ds order) : r.Extends path done (d :: ds) order := by
  constructor
  · exact h'.ordered
  · exact fun a ha => h'.kept a (h.kept a ha)
  · intro a ha
    rcases List.mem_cons.1 ha with rfl | ha
    · exact h'.kept a (h.visited a (.head _))
    · exact h'.visited a ha
  · intro a ha
    rcases h'.new a ha with hmid | ⟨hpath, s, hs, hreach⟩
    · refine (h.new a hmid).imp_right fun ⟨hpath, s, hs, hreach⟩ => ⟨hpath, d, .head _, ?_⟩
      rwa [List.mem_singleton.1 hs] at hreach
    · exact .inr ⟨hpath, s, .tail _ hs, hreach⟩

/-- A profile is done after its dependencies, which were visited with it on the path. -/
theorem Extends.concat {p : Profile} (hp : r.get? id = some p) (new : id ∉ done) (off : id ∉ path)
    (h : r.Extends (path ++ [id]) done p.dependencies order) : r.Extends path done [id] (order ++ [id]) := by
  have hnew : id ∉ order := by
    intro hmem
    rcases h.new id hmem with hdone | ⟨hpath, -⟩
    · exact new hdone
    · exact hpath (List.mem_append_right _ (.head _))
  constructor
  · exact h.ordered.concat hnew (Option.isSome_iff_exists.2 ⟨p, hp⟩) fun b hb =>
      h.visited b ((dependsOn_iff hp).1 hb)
  · exact fun a ha => List.mem_append_left _ (h.kept a ha)
  · exact fun a ha => List.mem_append_right _ ha
  · intro a ha
    rcases List.mem_append.1 ha with ha | ha
    · refine (h.new a ha).imp_right fun ⟨hpath, s, hs, hreach⟩ => ?_
      have hstep : r.DependsOn id s := (dependsOn_iff hp).2 hs
      exact ⟨fun hmem => hpath (List.mem_append_left _ hmem), id, .head _, .head hstep hreach⟩
    · rw [List.mem_singleton.1 ha]
      exact .inr ⟨off, id, .head _, .refl⟩

/-! ### The way to where the search is -/

/-- The path from the profile asked for: each profile depends on the next one. -/
structure Trail (r : Registry) (root : FeatureId) (path : List FeatureId) : Prop where
  chain : path.IsChain r.DependsOn
  reached : ∀ a ∈ path, r.Reaches root a

theorem Trail.concat {owner d : FeatureId} (h : r.Trail root path) (last : path.getLast? = some owner)
    (hd : r.DependsOn owner d) : r.Trail root (path ++ [d]) := by
  have howner : r.Reaches root owner := h.reached owner (List.mem_of_getLast? last)
  constructor
  · refine List.isChain_append.2 ⟨h.chain, .singleton d, fun a ha b hb => ?_⟩
    rw [last] at ha
    cases ha
    cases hb
    exact hd
  · intro a ha
    rcases List.mem_append.1 ha with ha | ha
    · exact h.reached a ha
    · rw [List.mem_singleton.1 ha]
      exact howner.tail hd

/-- A path that comes back to one of its profiles has gone around a cycle. -/
theorem Trail.obstacle (h : r.Trail root (path ++ [id])) (back : id ∈ path) :
    r.Obstacle root (.dependencyCycle (path.dropWhile (· != id) ++ [id])) := by
  have hfrom : ∃ between, path.dropWhile (· != id) = id :: between := by
    clear h
    induction path with
    | nil => contradiction
    | cons a path ih =>
      by_cases ha : a = id
      · exact ⟨path, by simp [ha]⟩
      · obtain ⟨between, hbetween⟩ := ih ((List.mem_cons.1 back).resolve_left (Ne.symm ha))
        exact ⟨between, by simpa [ha] using hbetween⟩
  obtain ⟨between, hbetween⟩ := hfrom
  have hchain : (path.takeWhile (· != id) ++ (path.dropWhile (· != id) ++ [id])).IsChain r.DependsOn := by
    rw [← List.append_assoc, List.takeWhile_append_dropWhile]
    exact h.chain
  rw [hbetween] at hchain ⊢
  exact .cycle (h.reached id (List.mem_append_right _ (.head _))) hchain.right_of_append

/-! ### Every outcome of a search -/

/-- What visits from `starts` on come to. -/
inductive Visited (r : Registry) (root : FeatureId) (path done starts : List FeatureId) :
    Except ProfileError (List FeatureId) → Prop
  | listed {order : List FeatureId} (added : r.Extends path done starts order) :
    Visited r root path done starts (.ok order)
  | stopped {e : ProfileError} (obstacle : r.Obstacle root e) : Visited r root path done starts (.error e)

/-- The visit of one profile, at the end of a path that leads to it. -/
def VisitsOne (r : Registry) (root : FeatureId) (path done : List FeatureId) (id : FeatureId) : Prop :=
  r.Ordered done → r.Trail root (path ++ [id]) → (r.contains id ∨ id = root) →
    r.Visited root path done [id] (r.visit path done id)

/-- The visits of dependencies of the last profile on the path. -/
def VisitsAll (r : Registry) (root : FeatureId) (path done : List FeatureId) (owner : FeatureId)
    (ds : List FeatureId) : Prop :=
  r.Ordered done → r.Trail root path → path.getLast? = some owner → (∀ d ∈ ds, r.DependsOn owner d) →
    r.Visited root path done ds (r.visitAll path done owner ds)

theorem visits (r : Registry) (root : FeatureId) :
    (∀ path done id, r.VisitsOne root path done id) ∧
      ∀ path done owner ds, r.VisitsAll root path done owner ds := by
  refine visit.mutual_induct r (r.VisitsOne root) (r.VisitsAll root) ?_ ?_ ?_ ?_ ?_ ?_ ?_ ?_
  -- one profile: done, on the path, not loaded, new
  · intro path done id hmem hdone _ _
    rw [visit, if_pos hmem]
    have hid : id ∈ done := by simpa using hmem
    exact .listed ⟨hdone, fun _ ha => ha, fun a ha => List.mem_singleton.1 ha ▸ hid, fun _ ha => .inl ha⟩
  · intro path done id hnew hback _ trail _
    rw [visit, if_neg hnew, dif_pos hback]
    exact .stopped (trail.obstacle (by simpa using hback))
  · intro path done id hnew hoff hnone _ trail known
    have habsent : ¬r.contains id := by
      intro hloaded
      obtain ⟨p, hp⟩ := Option.isSome_iff_exists.1 hloaded
      exact absurd (hnone.symm.trans hp) nofun
    obtain rfl := known.resolve_left habsent
    rw [visit_of_get?_none hnone (by simpa using hnew) (by simpa using hoff)]
    exact .stopped (.absent habsent)
  · intro path done id hnew hoff p hp ih hdone trail _
    have hrest := ih hdone trail List.getLast?_concat fun d hd => (dependsOn_iff hp).2 hd
    have new : id ∉ done := by simpa using hnew
    have off : id ∉ path := by simpa using hoff
    rw [visit_of_get? hp new off]
    generalize r.visitAll (path ++ [id]) done id p.dependencies = out at hrest
    cases hrest with
    | listed added => exact .listed (added.concat hp new off)
    | stopped obstacle => exact .stopped obstacle
  -- dependencies: none left, not loaded, a visit that fails, a visit that succeeds
  · intro path done owner hdone _ _ _
    rw [visitAll]
    exact .listed ⟨hdone, fun _ ha => ha, nofun, fun _ ha => .inl ha⟩
  · intro path done owner d ds hmissing _ trail last hds
    rw [visitAll, if_pos hmissing]
    have howner : r.Reaches root owner := trail.reached owner (List.mem_of_getLast? last)
    exact .stopped (.missing howner (hds d (.head _)) (by simpa using hmissing))
  · intro path done owner d ds hloaded e herror ih hdone trail last hds
    have hfirst := ih hdone (trail.concat last (hds d (.head _))) (.inl (by simpa using hloaded))
    rw [visitAll, if_neg hloaded]
    rw [herror] at hfirst ⊢
    cases hfirst with
    | stopped obstacle => exact .stopped obstacle
  · intro path done owner d ds hloaded mid hmid ih ih' hdone trail last hds
    have hfirst := ih hdone (trail.concat last (hds d (.head _))) (.inl (by simpa using hloaded))
    rw [visitAll, if_neg hloaded]
    rw [hmid] at hfirst ⊢
    cases hfirst with
    | listed added =>
      have hrest := ih' added.ordered trail last fun e he => hds e (.tail _ he)
      dsimp only
      generalize r.visitAll path mid owner ds = out at hrest
      cases hrest with
      | listed more => exact .listed (added.cons more)
      | stopped obstacle => exact .stopped obstacle

/-! ### Resolution -/

theorem resolve_visited (r : Registry) (id : FeatureId) : r.Visited id [] [] [id] (r.resolve id) := by
  refine (r.visits id).1 [] [] id ordered_nil ⟨.singleton id, fun a ha => ?_⟩ (.inr rfl)
  rw [List.mem_singleton.1 ha]
  exact .refl

/-- An order that is closed under dependencies leaves no obstacle. -/
theorem Extends.resolvable (h : r.Extends [] [] [id] order) : r.Resolvable id := by
  have hid : id ∈ order := h.visited id (.head _)
  constructor
  · exact h.ordered.loaded id hid
  · intro a b hreach hdep
    exact h.ordered.loaded b (h.ordered.mem_of_reaches hid (hreach.tail hdep))
  · intro a hreach
    exact h.ordered.acyclic (h.ordered.mem_of_reaches hid hreach)

theorem Extends.mem_iff (h : r.Extends [] [] [id] order) (a : FeatureId) : a ∈ order ↔ r.Reaches id a := by
  constructor
  · intro ha
    obtain ⟨-, s, hs, hreach⟩ := (h.new a ha).resolve_left nofun
    rwa [List.mem_singleton.1 hs] at hreach
  · exact h.ordered.mem_of_reaches (h.visited id (.head _))

theorem Obstacle.not_resolvable {e : ProfileError} (h : r.Obstacle id e) : ¬r.Resolvable id := by
  intro resolvable
  cases h with
  | absent absent => exact absent resolvable.loaded
  | missing reached depends missing => exact missing (resolvable.closed _ _ reached depends)
  | @cycle c between reached chain =>
    refine resolvable.acyclic c reached ?_
    have hchain : (c :: (between ++ [c])).IsChain (TransGen r.DependsOn) := chain.imp fun _ _ => .single
    exact hchain.rel_cons (List.mem_append_right _ (.head _))

/-- The search from the profile asked for ends with that profile. -/
theorem getLast?_resolve (h : r.resolve id = .ok order) : order.getLast? = some id := by
  have hnil : id ∉ [] := List.not_mem_nil
  cases hp : r.get? id with
  | none =>
    rw [resolve, visit_of_get?_none hp hnil hnil] at h
    contradiction
  | some p =>
    rw [resolve, visit_of_get? hp hnil hnil] at h
    cases hdeps : r.visitAll ([] ++ [id]) [] id p.dependencies with
    | error e => rw [hdeps] at h; contradiction
    | ok deps =>
      rw [hdeps] at h
      cases h
      exact List.getLast?_concat

/-- A profile can be resolved exactly when all that it reaches is loaded and without cycles. Then the list has what
it reaches and nothing else, each profile once and after its dependencies, and itself last; otherwise the error names
a profile in reach that is not loaded, or a cycle in reach. -/
theorem resolve_orders (r : Registry) (id : FeatureId) :
    ((∃ order, r.resolve id = .ok order) ↔ r.Resolvable id) ∧
    (∀ order, r.resolve id = .ok order →
      order.Nodup ∧ (∀ a, a ∈ order ↔ r.Reaches id a) ∧
      (∀ before a rest, order = before ++ a :: rest → ∀ b, r.DependsOn a b → b ∈ before) ∧
      order.getLast? = some id) ∧
    ∀ e, r.resolve id = .error e → r.Obstacle id e := by
  have hvisited := r.resolve_visited id
  have hlast (order : List FeatureId) (h : r.resolve id = .ok order) := getLast?_resolve h
  generalize r.resolve id = out at hvisited hlast ⊢
  cases hvisited with
  | @listed order added =>
    refine ⟨iff_of_true ⟨order, rfl⟩ added.resolvable, fun order' h => ?_, nofun⟩
    cases h
    exact ⟨added.ordered.nodup, added.mem_iff, added.ordered.after, hlast order rfl⟩
  | @stopped e obstacle =>
    refine ⟨iff_of_false nofun obstacle.not_resolvable, nofun, fun e' h => ?_⟩
    cases h
    exact obstacle

/-! ### An example -/

/-- A feature without paths. -/
def feature (name : String) (dependencies : List String) : Profile :=
  { id := ⟨name, 1⟩, configPaths := [], telemetryPaths := [], dependencies := dependencies.map (⟨·, 1⟩) }

/-- A feature above two others that share a fourth. -/
def diamond : Registry :=
  let features := [feature "top" ["left", "right"], feature "left" ["base"], feature "right" ["base"],
    feature "base" []]
  ⟨Table.ofList (features.map fun p => (p.id, p))⟩

theorem resolve_orders_diamond :
    diamond.resolve ⟨"top", 1⟩ = .ok [⟨"base", 1⟩, ⟨"left", 1⟩, ⟨"right", 1⟩, ⟨"top", 1⟩] ∧
    diamond.Resolvable ⟨"top", 1⟩ ∧ diamond.Reaches ⟨"top", 1⟩ ⟨"base", 1⟩ := by
  have hresolve : diamond.resolve ⟨"top", 1⟩ =
      .ok [⟨"base", 1⟩, ⟨"left", 1⟩, ⟨"right", 1⟩, ⟨"top", 1⟩] := by
    have htop : diamond.get? ⟨"top", 1⟩ = some (feature "top" ["left", "right"]) := rfl
    have hleft : diamond.get? ⟨"left", 1⟩ = some (feature "left" ["base"]) := rfl
    have hright : diamond.get? ⟨"right", 1⟩ = some (feature "right" ["base"]) := rfl
    have hbase : diamond.get? ⟨"base", 1⟩ = some (feature "base" []) := rfl
    have hloaded : diamond.contains ⟨"left", 1⟩ ∧ diamond.contains ⟨"right", 1⟩ ∧
        diamond.contains ⟨"base", 1⟩ := by decide
    simp [resolve, visit, visit_of_get?, visitAll, htop, hleft, hright, hbase, hloaded, feature, Except.map]
  obtain ⟨hiff, hlist, -⟩ := resolve_orders diamond ⟨"top", 1⟩
  exact ⟨hresolve, hiff.1 ⟨_, hresolve⟩, ((hlist _ hresolve).2.1 _).1 (.head _)⟩

end RouteProgramming.Registry
