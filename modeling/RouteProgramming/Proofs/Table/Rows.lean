import RouteProgramming.Table.Lookup

/-! The rows of a table as a multiset. Up to order, inserting a key puts one row
before the rows of all other keys, and erasing it takes that row away; so every
count over the rows changes by what one row contributes. A change of a row that
exists is an insertion, and a map of the values goes through both operations. -/

namespace RouteProgramming.Table

open Std

variable {κ ν μ : Type} [Ord κ] [LawfulEqOrd κ]

/-! ### Look-ups by cases -/

theorem get?_erase [DecidableEq κ] (t : Table κ ν) (k k' : κ) :
    (t.erase k).get? k' = if k' = k then none else t.get? k' := by
  split
  case isTrue h => rw [h, get?_erase_self]
  case isFalse h => exact get?_erase_of_ne t h

theorem get?_modify [DecidableEq κ] (t : Table κ ν) (k : κ) (f : ν → ν) (k' : κ) :
    (t.modify k f).get? k' = if k' = k then (t.get? k).map f else t.get? k' := by
  split
  case isTrue h => rw [h, get?_modify_self]
  case isFalse h => exact get?_modify_of_ne t f h

omit [LawfulEqOrd κ] in
theorem contains_iff {t : Table κ ν} {k : κ} : t.contains k ↔ ∃ v, t.get? k = some v :=
  Option.isSome_iff_exists

theorem get?_mapValues (t : Table κ ν) (f : ν → μ) (k : κ) : (t.mapValues f).get? k = (t.get? k).map f := by
  refine Option.ext fun w => ?_
  rw [get?_eq_some_iff, Option.map_eq_some_iff]
  simp only [mapValues, List.mem_map, Prod.mk.injEq, get?_eq_some_iff]
  constructor
  · rintro ⟨⟨a, v⟩, hr, rfl, rfl⟩
    exact ⟨v, hr, rfl⟩
  · rintro ⟨v, hr, rfl⟩
    exact ⟨(k, v), hr, rfl, rfl⟩

theorem erase_of_get?_none {t : Table κ ν} {k : κ} (h : t.get? k = none) : t.erase k = t := by
  refine eq_of_rows_eq (List.filter_eq_self.2 fun r hr => ?_)
  rw [bne_iff_ne]
  intro he
  obtain rfl := LawfulEqOrd.eq_of_compare he
  exact get?_eq_none_iff.1 h r.2 hr

variable [TransOrd κ]

theorem get?_insert [DecidableEq κ] (t : Table κ ν) (k : κ) (v : ν) (k' : κ) :
    (t.insert k v).get? k' = if k' = k then some v else t.get? k' := by
  split
  case isTrue h => rw [h, get?_insert_self]
  case isFalse h => exact get?_insert_of_ne t v h

/-- What holds of all values and of a new one holds after the insertion. -/
theorem forall_get?_insert [DecidableEq κ] {P : ν → Prop} {t : Table κ ν} {k : κ} {v : ν}
    (ht : ∀ k v, t.get? k = some v → P v) (hv : P v) (k' : κ) (v' : ν)
    (h : (t.insert k v).get? k' = some v') : P v' := by
  rw [get?_insert] at h
  split at h
  · cases h; exact hv
  · exact ht k' v' h

theorem mem_of_foldl_insert [DecidableEq κ] {rows : List (κ × ν)} {t : Table κ ν} {k : κ} {v : ν}
    (h : (rows.foldl (fun t r => t.insert r.1 r.2) t).get? k = some v) :
    (k, v) ∈ rows ∨ t.get? k = some v := by
  induction rows generalizing t with
  | nil => exact .inr h
  | cons r rows ih =>
    rcases ih h with hmem | hget
    · exact .inl (.tail _ hmem)
    · rw [get?_insert] at hget
      split at hget
      case isTrue hk => cases hget; rw [hk]; exact .inl (.head _)
      case isFalse => exact .inr hget

theorem mem_of_get?_ofList [DecidableEq κ] {rows : List (κ × ν)} {k : κ} {v : ν}
    (h : (ofList rows).get? k = some v) : (k, v) ∈ rows :=
  (mem_of_foldl_insert h).resolve_right nofun

theorem get?_foldl_insert_of_notMem [DecidableEq κ] {rows : List (κ × ν)} (t : Table κ ν) {k : κ}
    (hk : k ∉ rows.map (·.1)) : (rows.foldl (fun t r => t.insert r.1 r.2) t).get? k = t.get? k := by
  induction rows generalizing t with
  | nil => rfl
  | cons r rows ih =>
    rw [List.map_cons, List.mem_cons, not_or] at hk
    rw [List.foldl_cons, ih _ hk.2, get?_insert, if_neg hk.1]

/-- With different keys every row counts. -/
theorem get?_foldl_insert_of_mem [DecidableEq κ] {rows : List (κ × ν)} (t : Table κ ν) {k : κ} {v : ν}
    (hnodup : (rows.map (·.1)).Nodup) (hmem : (k, v) ∈ rows) :
    (rows.foldl (fun t r => t.insert r.1 r.2) t).get? k = some v := by
  induction rows generalizing t with
  | nil => contradiction
  | cons r rows ih =>
    rw [List.map_cons, List.nodup_cons] at hnodup
    rcases List.mem_cons.1 hmem with rfl | hmem
    · rw [List.foldl_cons, get?_foldl_insert_of_notMem _ hnodup.1, get?_insert_self]
    · exact ih _ hnodup.2 hmem

/-! ### Operations that come to the same -/

variable [DecidableEq κ]

omit [DecidableEq κ] in
/-- The keys of a table are in order, so that they depend on its look-ups only. -/
theorem keys_congr {s : Table κ ν} {t : Table κ μ} (h : ∀ k, s.contains k = t.contains k) : s.keys = t.keys := by
  have hunit : s.mapValues (fun _ => ()) = t.mapValues (fun _ => ()) := by
    refine ext_get? fun k => ?_
    have hk := h k
    rw [contains, contains] at hk
    rw [get?_mapValues, get?_mapValues]
    cases hs : s.get? k <;> cases ht : t.get? k <;> simp_all
  have hrows := congrArg keys hunit
  simpa [keys, mapValues, Function.comp_def] using hrows

theorem modify_eq_insert {t : Table κ ν} {k : κ} {v : ν} (h : t.get? k = some v) (f : ν → ν) :
    t.modify k f = t.insert k (f v) := by
  refine ext_get? fun k' => ?_
  rw [get?_modify, get?_insert, h, Option.map_some]

theorem insert_eq_self {t : Table κ ν} {k : κ} {v : ν} (h : t.get? k = some v) : t.insert k v = t := by
  refine ext_get? fun k' => ?_
  rw [get?_insert]
  split
  case isTrue hk => rw [hk, h]
  case isFalse => rfl

theorem insert_insert (t : Table κ ν) (k : κ) (v w : ν) : (t.insert k v).insert k w = t.insert k w := by
  refine ext_get? fun k' => ?_
  rw [get?_insert, get?_insert, get?_insert]
  split <;> rfl

theorem erase_insert {t : Table κ ν} {k : κ} (h : t.get? k = none) (v : ν) : (t.insert k v).erase k = t := by
  refine ext_get? fun k' => ?_
  rw [get?_erase, get?_insert]
  split
  case isTrue hk => rw [hk, h]
  case isFalse => rfl

theorem mapValues_insert (t : Table κ ν) (f : ν → μ) (k : κ) (v : ν) :
    (t.insert k v).mapValues f = (t.mapValues f).insert k (f v) := by
  refine ext_get? fun k' => ?_
  rw [get?_mapValues, get?_insert, get?_insert, get?_mapValues]
  split <;> rfl

theorem mapValues_erase (t : Table κ ν) (f : ν → μ) (k : κ) :
    (t.erase k).mapValues f = (t.mapValues f).erase k := by
  refine ext_get? fun k' => ?_
  rw [get?_mapValues, get?_erase, get?_erase, get?_mapValues]
  split <;> rfl

omit [TransOrd κ] [DecidableEq κ] in
theorem get?_filter_eq_some_iff {t : Table κ ν} {p : κ → ν → Bool} {k : κ} {v : ν} :
    (t.filter p).get? k = some v ↔ t.get? k = some v ∧ p k v := by
  simp only [get?_eq_some_iff, filter, List.mem_filter]

/-! ### Counting rows -/

omit [LawfulEqOrd κ] [TransOrd κ] [DecidableEq κ] in
theorem countP_mapValues (t : Table κ ν) (f : ν → μ) (p : κ × μ → Bool) :
    (t.mapValues f).rows.countP p = t.rows.countP (fun r => p (r.1, f r.2)) := by
  simp only [mapValues, List.countP_map]
  rfl

omit [TransOrd κ] [DecidableEq κ] in
theorem rows_nodup (t : Table κ ν) : t.rows.Nodup := by
  refine t.increasing.imp fun {a b} h he => ?_
  rw [he, ReflOrd.compare_self] at h
  contradiction

omit [TransOrd κ] [DecidableEq κ] in
/-- A test that no other key passes picks out one row. -/
theorem filter_rows_eq_singleton {t : Table κ ν} {k : κ} {v : ν} {q : κ × ν → Bool} (h : t.get? k = some v)
    (hq : ∀ k' v', t.get? k' = some v' → (q (k', v') ↔ k' = k)) : t.rows.filter q = [(k, v)] := by
  have hself : q (k, v) := (hq k v h).2 rfl
  apply List.perm_singleton.1
  have hnodup : (t.rows.filter q).Nodup := (rows_nodup t).filter q
  refine (List.perm_ext_iff_of_nodup hnodup (List.pairwise_singleton ..)).2 ?_
  rintro ⟨k', v'⟩
  rw [List.mem_filter, List.mem_singleton, ← get?_eq_some_iff]
  constructor
  · rintro ⟨hrow, hpass⟩
    obtain rfl := (hq k' v' hrow).1 hpass
    rw [Option.some.inj (hrow.symm.trans h)]
  · intro heq
    cases heq
    exact ⟨h, hself⟩

omit [TransOrd κ] [DecidableEq κ] in
theorem filter_values_eq_singleton {t : Table κ ν} {k : κ} {v : ν} {q : ν → Bool} (h : t.get? k = some v)
    (hq : ∀ k' v', t.get? k' = some v' → (q v' ↔ k' = k)) : t.values.filter q = [v] := by
  have hrow : t.rows.filter (q ∘ (·.2)) = [(k, v)] := filter_rows_eq_singleton h hq
  rw [values, List.filter_map, hrow, List.map_singleton]

omit [TransOrd κ] [DecidableEq κ] in
theorem mem_values_iff {t : Table κ ν} {v : ν} : v ∈ t.values ↔ ∃ k, t.get? k = some v := by
  rw [values, List.mem_map]
  constructor
  · rintro ⟨⟨k, w⟩, hrow, rfl⟩
    exact ⟨k, get?_eq_some_iff.2 hrow⟩
  · rintro ⟨k, hk⟩
    exact ⟨(k, v), get?_eq_some_iff.1 hk, rfl⟩

/-- A value under a new key joins those that are there. -/
theorem mem_values_insert {t : Table κ ν} {k : κ} {v w : ν} (fresh : t.get? k = none) :
    w ∈ (t.insert k v).values ↔ w = v ∨ w ∈ t.values := by
  simp only [mem_values_iff, get?_insert]
  constructor
  · rintro ⟨k', hk'⟩
    split at hk'
    case isTrue => exact .inl (Option.some.inj hk').symm
    case isFalse => exact .inr ⟨k', hk'⟩
  · rintro (rfl | ⟨k', hk'⟩)
    · exact ⟨k, if_pos rfl⟩
    · refine ⟨k', ?_⟩
      rw [if_neg, hk']
      rintro rfl
      rw [fresh] at hk'
      contradiction

omit [TransOrd κ] [DecidableEq κ] in
theorem keys_nodup (t : Table κ ν) : t.keys.Nodup := by
  refine List.pairwise_map.2 (t.increasing.imp fun {a b} h he => ?_)
  rw [he, ReflOrd.compare_self] at h
  contradiction

omit [DecidableEq κ] in
theorem perm_insert (t : Table κ ν) (k : κ) (v : ν) :
    (t.insert k v).rows.Perm ((k, v) :: (t.erase k).rows) := by
  have hnew : (k, v) ∉ (t.erase k).rows := fun h => (mem_erase_iff.1 h).2 rfl
  refine (List.perm_ext_iff_of_nodup (rows_nodup _) (List.nodup_cons.2 ⟨hnew, rows_nodup _⟩)).2 fun a => ?_
  rw [List.mem_cons, mem_erase_iff]
  exact mem_insertRow_iff t.increasing

omit [DecidableEq κ] in
theorem countP_insert (t : Table κ ν) (k : κ) (v : ν) (p : κ × ν → Bool) :
    (t.insert k v).rows.countP p = (t.erase k).rows.countP p + if p (k, v) then 1 else 0 := by
  rw [(perm_insert t k v).countP_eq p, List.countP_cons]

theorem countP_of_get? {t : Table κ ν} {k : κ} {v : ν} (h : t.get? k = some v) (p : κ × ν → Bool) :
    t.rows.countP p = (t.erase k).rows.countP p + if p (k, v) then 1 else 0 := by
  rw [← countP_insert, insert_eq_self h]

omit [TransOrd κ] [DecidableEq κ] in
theorem countP_of_get?_none {t : Table κ ν} {k : κ} (h : t.get? k = none) (p : κ × ν → Bool) :
    t.rows.countP p = (t.erase k).rows.countP p := by
  rw [erase_of_get?_none h]

/-! ### Tables made up of rows -/

/-- A table is the one that its rows make up. -/
theorem ofList_rows (t : Table κ ν) : ofList t.rows = t := by
  refine ext_get? fun k => ?_
  cases hk : t.get? k with
  | some v => exact get?_foldl_insert_of_mem _ t.keys_nodup (get?_eq_some_iff.1 hk)
  | none =>
    refine Option.eq_none_iff_forall_ne_some.2 fun v hv => ?_
    rw [get?_eq_some_iff.2 (mem_of_get?_ofList hv)] at hk
    contradiction

omit [DecidableEq κ] in
theorem get?_singleton {k k' : κ} {v v' : ν} : (ofList [(k, v)]).get? k' = some v' ↔ k' = k ∧ v' = v := by
  rw [get?_eq_some_iff]
  change (k', v') ∈ [(k, v)] ↔ _
  rw [List.mem_singleton, Prod.mk.injEq]

omit [DecidableEq κ] in
theorem get?_singleton_self (k : κ) (v : ν) : (ofList [(k, v)]).get? k = some v := get?_singleton.2 ⟨rfl, rfl⟩

omit [DecidableEq κ] in
theorem modify_singleton (k : κ) (v : ν) (f : ν → ν) : (ofList [(k, v)]).modify k f = ofList [(k, f v)] := by
  refine eq_of_rows_eq ?_
  change [(k, v)].map _ = [(k, f v)]
  simp [ReflOrd.compare_self]

omit [DecidableEq κ] in
theorem erase_singleton (k : κ) (v : ν) : (ofList [(k, v)]).erase k = ∅ := by
  refine eq_of_rows_eq ?_
  change [(k, v)].filter (fun r => compare r.1 k != .eq) = []
  simp [ReflOrd.compare_self]

end RouteProgramming.Table
