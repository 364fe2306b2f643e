import RouteProgramming.Proofs.Profile.Resolution

/-! What the errors of a registry say. An error of a resolution names profiles that
can be reached and that are as it says: a dependency that is not loaded, or a way
through dependencies that comes back to where it began. A check of the registry has
the error of each loaded profile that cannot be resolved, in the order of the ids;
so it finds nothing exactly when no dependency is missing and none leads back. -/

namespace RouteProgramming.Registry

open Relation (ReflTransGen TransGen)

variable {r : Registry} {a b c id : FeatureId} {e : ProfileError} {order between : List FeatureId}

/-! ### One resolution -/

/-- What an error claims of the profiles that can be reached. -/
def Warranted (r : Registry) (id : FeatureId) : ProfileError → Prop
  | .notFound absent => absent = id ∧ ¬r.contains id
  | .missingDependency owner missing =>
    r.Reaches id owner ∧ r.DependsOn owner missing ∧ ¬r.contains missing
  | .dependencyCycle cycle =>
    2 ≤ cycle.length ∧ cycle.head? = cycle.getLast? ∧
      ∀ a b, [a, b] <:+: cycle → r.Reaches id a ∧ r.DependsOn a b
  | _ => False

theorem obstacle_of_resolve (h : r.resolve id = .error e) : r.Obstacle id e := by
  have hvisited := r.resolve_visited id
  rw [h] at hvisited
  cases hvisited with
  | stopped obstacle => exact obstacle

theorem resolvable_of_resolve (h : r.resolve id = .ok order) : r.Resolvable id := by
  have hvisited := r.resolve_visited id
  rw [h] at hvisited
  cases hvisited with
  | listed added => exact added.resolvable

/-- All that lies on a way through dependencies is reached from its beginning. -/
theorem reaches_of_isChain (chain : (a :: between).IsChain r.DependsOn) (hb : b ∈ a :: between) : r.Reaches a b := by
  induction between generalizing a with
  | nil =>
    rw [List.mem_singleton.1 hb]
    exact .refl
  | cons c between ih =>
    rw [List.isChain_cons_cons] at chain
    rcases List.mem_cons.1 hb with rfl | hb
    · exact .refl
    · exact (ih chain.2 hb).head chain.1

theorem Obstacle.warranted (h : r.Obstacle id e) : r.Warranted id e := by
  cases h with
  | absent absent => exact ⟨rfl, absent⟩
  | missing reached depends missing => exact ⟨reached, depends, missing⟩
  | @cycle c between reached chain =>
    refine ⟨by simp, by rw [List.getLast?_concat]; rfl, fun a b hab => ⟨?_, ?_⟩⟩
    · have ha : a ∈ c :: (between ++ [c]) := hab.subset (.head _)
      exact reached.trans (reaches_of_isChain chain ha)
    · have hpair := List.IsChain.infix chain hab
      exact List.isChain_pair.1 hpair

/-! ### All profiles -/

theorem error?_eq_some_iff : r.error? id = some e ↔ r.resolve id = .error e := by
  unfold error?
  cases r.resolve id <;> simp

/-- What a partial function makes of a list are its values where it has one, in order. -/
theorem forall₂_filterMap {α β : Type} (f : α → Option β) (xs : List α) :
    List.Forall₂ (fun x y => f x = some y) (xs.filter (fun x => (f x).isSome)) (xs.filterMap f) := by
  induction xs with
  | nil => exact .nil
  | cons x xs ih =>
    cases h : f x with
    | none => simpa [h] using ih
    | some y => simpa [h] using ih

/-- The loaded profiles can all be resolved exactly when nothing is missing and nothing leads back to itself. -/
theorem resolvable_all_iff : (∀ id, r.contains id → r.Resolvable id) ↔
    (∀ a b, r.DependsOn a b → r.contains b) ∧ ∀ a, ¬TransGen r.DependsOn a a := by
  have loaded {a b : FeatureId} (h : r.DependsOn a b) : r.contains a := by
    obtain ⟨p, hp, -⟩ := h
    exact Option.isSome_iff_exists.2 ⟨p, hp⟩
  constructor
  · intro hall
    constructor
    · intro a b hab
      exact (hall a (loaded hab)).closed a b .refl hab
    · intro a haa
      obtain ⟨b, hab, -⟩ := TransGen.head'_iff.1 haa
      exact (hall a (loaded hab)).acyclic a .refl haa
  · intro ⟨hclosed, hacyclic⟩ id hid
    exact ⟨hid, fun a b _ hab => hclosed a b hab, fun a _ => hacyclic a⟩

/-- The errors of resolutions are warranted, and a check has one for each loaded profile whose resolution fails, in
the order of the ids; it has none exactly when every dependency is loaded and there is no cycle. -/
theorem errors_warranted (r : Registry) :
    (∀ id e, r.resolve id = .error e → r.Warranted id e) ∧
    (r.problems = [] ↔ (∀ a b, r.DependsOn a b → r.contains b) ∧ ∀ a, ¬TransGen r.DependsOn a a) ∧
    ∃ failing : List FeatureId, failing.Pairwise (fun a b => compare a b = .lt) ∧
      (∀ id, id ∈ failing ↔ r.contains id ∧ ∃ e, r.resolve id = .error e) ∧
      List.Forall₂ (fun id e => r.resolve id = .error e) failing r.problems := by
  have hproblems : List.Forall₂ (fun id e => r.resolve id = .error e)
      (r.ids.filter (fun id => (r.error? id).isSome)) r.problems := by
    rw [problems]
    exact (forall₂_filterMap r.error? r.ids).imp fun _ _ => error?_eq_some_iff.1
  have hmem (id : FeatureId) : id ∈ r.ids.filter (fun id => (r.error? id).isSome) ↔
      r.contains id ∧ ∃ e, r.resolve id = .error e := by
    simp only [List.mem_filter, Option.isSome_iff_exists, error?_eq_some_iff]
    exact and_congr_left' Table.mem_keys_iff
  refine ⟨fun id e h => (obstacle_of_resolve h).warranted, ?_, _, ?_, hmem, hproblems⟩
  · rw [← resolvable_all_iff, ← List.length_eq_zero_iff, ← hproblems.length_eq, List.length_eq_zero_iff,
      List.eq_nil_iff_forall_not_mem]
    refine forall_congr' fun id => ?_
    rw [hmem, not_and, not_exists]
    refine imp_congr_right fun _ => ⟨fun hnone => ?_, fun h e he => (obstacle_of_resolve he).not_resolvable h⟩
    cases hresolve : r.resolve id with
    | ok order => exact resolvable_of_resolve hresolve
    | error e => exact absurd hresolve (hnone e)
  · have hids : r.ids.Pairwise (fun a b => compare a b = .lt) := List.pairwise_map.2 r.profiles.increasing
    exact hids.filter _

/-- Two features that need each other, one that needs the first of them, and one that needs what is not there. -/
def knotted : Registry :=
  let features := [feature "a" ["b"], feature "b" ["a"], feature "c" ["d", "a"], feature "e" ["f"], feature "f" []]
  ⟨Table.ofList (features.map fun p => (p.id, p))⟩

theorem errors_warranted_knotted :
    knotted.resolve ⟨"a", 1⟩ = .error (.dependencyCycle [⟨"a", 1⟩, ⟨"b", 1⟩, ⟨"a", 1⟩]) ∧
    knotted.resolve ⟨"c", 1⟩ = .error (.missingDependency ⟨"c", 1⟩ ⟨"d", 1⟩) ∧
    knotted.Warranted ⟨"a", 1⟩ (.dependencyCycle [⟨"a", 1⟩, ⟨"b", 1⟩, ⟨"a", 1⟩]) ∧
    knotted.Warranted ⟨"c", 1⟩ (.missingDependency ⟨"c", 1⟩ ⟨"d", 1⟩) ∧ knotted.problems ≠ [] := by
  have ha : knotted.get? ⟨"a", 1⟩ = some (feature "a" ["b"]) := rfl
  have hb : knotted.get? ⟨"b", 1⟩ = some (feature "b" ["a"]) := rfl
  have hc : knotted.get? ⟨"c", 1⟩ = some (feature "c" ["d", "a"]) := rfl
  have hloaded : knotted.contains ⟨"a", 1⟩ ∧ knotted.contains ⟨"b", 1⟩ ∧ ¬knotted.contains ⟨"d", 1⟩ := by decide
  have hring : knotted.resolve ⟨"a", 1⟩ = .error (.dependencyCycle [⟨"a", 1⟩, ⟨"b", 1⟩, ⟨"a", 1⟩]) := by
    simp [resolve, visit, visit_of_get?, visitAll, ha, hb, hloaded, feature, Except.map, List.dropWhile]
  have hmissing : knotted.resolve ⟨"c", 1⟩ = .error (.missingDependency ⟨"c", 1⟩ ⟨"d", 1⟩) := by
    simp [resolve, visit_of_get?, visitAll, hc, hloaded, feature, Except.map]
  obtain ⟨hwarranted, hnone, -⟩ := errors_warranted knotted
  refine ⟨hring, hmissing, hwarranted _ _ hring, hwarranted _ _ hmissing, fun hnil => ?_⟩
  have hab : knotted.DependsOn ⟨"c", 1⟩ ⟨"d", 1⟩ := (dependsOn_iff hc).2 (.head _)
  exact hloaded.2.2 ((hnone.1 hnil).1 _ _ hab)

end RouteProgramming.Registry
