import RouteProgramming.Table

/-!
What a look-up sees of each operation on tables. A row and a look-up say the same (`get?_eq_some_iff`),
so tables that agree on all look-ups are equal (`ext_get?`).
-/

namespace RouteProgramming.Table

open Std

variable {κ ν : Type} [Ord κ] [LawfulEqOrd κ]

/-! ### Rows -/

theorem find?_eq_some_iff {k : κ} {r : κ × ν} {rs : List (κ × ν)}
    (h : rs.Pairwise (fun a b => compare a.1 b.1 = .lt)) :
    rs.find? (fun r => compare r.1 k == .eq) = some r ↔ r ∈ rs ∧ r.1 = k := by
  induction rs with
  | nil => simp
  | cons s rs ih =>
    obtain ⟨hs, hrs⟩ := List.pairwise_cons.1 h
    rw [List.find?_cons]
    split
    case h_1 heq =>
      have hk : s.1 = k := LawfulEqOrd.eq_of_compare (by simpa using heq)
      constructor
      · rintro ⟨⟩
        exact ⟨.head _, hk⟩
      · rintro ⟨hr, hrk⟩
        rcases List.mem_cons.1 hr with rfl | hr
        · rfl
        · have := hs r hr
          rw [hk, hrk, ReflOrd.compare_self] at this
          contradiction
    case h_2 hne =>
      rw [ih hrs]
      constructor
      · exact fun ⟨hr, hrk⟩ => ⟨.tail _ hr, hrk⟩
      · rintro ⟨hr, hrk⟩
        rcases List.mem_cons.1 hr with rfl | hr
        · simp [hrk, ReflOrd.compare_self] at hne
        · exact ⟨hr, hrk⟩

theorem get?_eq_some_iff {t : Table κ ν} {k : κ} {v : ν} : t.get? k = some v ↔ (k, v) ∈ t.rows := by
  rw [get?, Option.map_eq_some_iff]
  constructor
  · rintro ⟨r, hr, rfl⟩
    obtain ⟨hmem, rfl⟩ := (find?_eq_some_iff t.increasing).1 hr
    exact hmem
  · exact fun h => ⟨(k, v), (find?_eq_some_iff t.increasing).2 ⟨h, rfl⟩, rfl⟩

theorem get?_eq_none_iff {t : Table κ ν} {k : κ} : t.get? k = none ↔ ∀ v, (k, v) ∉ t.rows := by
  rw [Option.eq_none_iff_forall_ne_some]
  exact forall_congr' fun v => not_congr get?_eq_some_iff

theorem mem_keys_iff {t : Table κ ν} {k : κ} : k ∈ t.keys ↔ t.contains k := by
  rw [contains, Option.isSome_iff_exists, keys, List.mem_map]
  constructor
  · rintro ⟨r, hr, rfl⟩
    exact ⟨r.2, get?_eq_some_iff.2 hr⟩
  · rintro ⟨v, hv⟩
    exact ⟨(k, v), get?_eq_some_iff.1 hv, rfl⟩

/-! ### Taking away and changing -/

theorem mem_erase_iff {t : Table κ ν} {k : κ} {a : κ × ν} : a ∈ (t.erase k).rows ↔ a ∈ t.rows ∧ a.1 ≠ k := by
  refine List.mem_filter.trans (and_congr_right fun _ => ?_)
  rw [bne_iff_ne]
  exact not_congr compare_eq_iff_eq

theorem get?_erase_self (t : Table κ ν) (k : κ) : (t.erase k).get? k = none :=
  get?_eq_none_iff.2 fun _ h => (mem_erase_iff.1 h).2 rfl

theorem get?_erase_of_ne (t : Table κ ν) {k k' : κ} (h : k' ≠ k) : (t.erase k).get? k' = t.get? k' := by
  refine Option.ext fun w => ?_
  rw [get?_eq_some_iff, get?_eq_some_iff]
  exact mem_erase_iff.trans (and_iff_left h)

theorem mem_modify_iff {t : Table κ ν} {k : κ} {f : ν → ν} {k' : κ} {v : ν} :
    (k', v) ∈ (t.modify k f).rows ↔ (k' ≠ k ∧ (k', v) ∈ t.rows) ∨ (k' = k ∧ ∃ w, (k, w) ∈ t.rows ∧ f w = v) := by
  refine List.mem_map.trans ⟨?_, ?_⟩
  · rintro ⟨⟨a, w⟩, hr, he⟩
    split at he
    case isTrue heq =>
      obtain rfl : a = k := compare_eq_iff_eq.1 (by simpa using heq)
      cases he
      exact .inr ⟨rfl, w, hr, rfl⟩
    case isFalse hne =>
      cases he
      refine .inl ⟨?_, hr⟩
      rintro rfl
      simp [ReflOrd.compare_self] at hne
  · rintro (⟨hk, hv⟩ | ⟨rfl, w, hw, rfl⟩)
    · refine ⟨(k', v), hv, if_neg ?_⟩
      simpa using hk
    · exact ⟨(k', w), hw, if_pos (by simp [ReflOrd.compare_self])⟩

theorem get?_modify_self (t : Table κ ν) (k : κ) (f : ν → ν) : (t.modify k f).get? k = (t.get? k).map f := by
  refine Option.ext fun v => ?_
  rw [get?_eq_some_iff, mem_modify_iff, Option.map_eq_some_iff]
  simp [get?_eq_some_iff]

theorem get?_modify_of_ne (t : Table κ ν) {k k' : κ} (f : ν → ν) (h : k' ≠ k) :
    (t.modify k f).get? k' = t.get? k' := by
  refine Option.ext fun v => ?_
  rw [get?_eq_some_iff, mem_modify_iff, get?_eq_some_iff]
  simp [h]

/-! ### Extensionality -/

variable [TransOrd κ]

theorem rows_ext {rs ss : List (κ × ν)} (hr : rs.Pairwise (fun a b => compare a.1 b.1 = .lt))
    (hs : ss.Pairwise (fun a b => compare a.1 b.1 = .lt)) (h : ∀ r, r ∈ rs ↔ r ∈ ss) : rs = ss := by
  have irrefl {r : κ × ν} : compare r.1 r.1 ≠ .lt := by rw [ReflOrd.compare_self]; nofun
  induction rs generalizing ss with
  | nil =>
    cases ss with
    | nil => rfl
    | cons s ss => exact absurd ((h s).2 (.head _)) List.not_mem_nil
  | cons r rs ih =>
    cases ss with
    | nil => exact absurd ((h r).1 (.head _)) List.not_mem_nil
    | cons s ss =>
      obtain ⟨hr', hrs⟩ := List.pairwise_cons.1 hr
      obtain ⟨hs', hss⟩ := List.pairwise_cons.1 hs
      have hrs_eq : r = s := by
        rcases List.mem_cons.1 ((h r).1 (.head _)) with hrs | hrs
        · exact hrs
        · rcases List.mem_cons.1 ((h s).2 (.head _)) with hsr | hsr
          · exact hsr.symm
          · exact absurd (TransCmp.lt_trans (hs' r hrs) (hr' s hsr)) irrefl
      subst hrs_eq
      refine congrArg (r :: ·) (ih hrs hss fun x => ?_)
      constructor
      · intro hx
        rcases List.mem_cons.1 ((h x).1 (.tail _ hx)) with rfl | hx'
        · exact absurd (hr' x hx) irrefl
        · exact hx'
      · intro hx
        rcases List.mem_cons.1 ((h x).2 (.tail _ hx)) with rfl | hx'
        · exact absurd (hs' x hx) irrefl
        · exact hx'

theorem ext_get? {s t : Table κ ν} (h : ∀ k, s.get? k = t.get? k) : s = t :=
  eq_of_rows_eq <| rows_ext s.increasing t.increasing fun r => by
    rw [show r = (r.1, r.2) from rfl, ← get?_eq_some_iff, ← get?_eq_some_iff, h]

/-! ### Inserting -/

theorem mem_insertRow_iff {k : κ} {v : ν} {a : κ × ν} {rs : List (κ × ν)}
    (h : rs.Pairwise (fun a b => compare a.1 b.1 = .lt)) :
    a ∈ insertRow k v rs ↔ a = (k, v) ∨ a ∈ rs ∧ a.1 ≠ k := by
  induction rs with
  | nil => simp [insertRow]
  | cons r rs ih =>
    obtain ⟨hr, hrs⟩ := List.pairwise_cons.1 h
    have above {x : κ × ν} (hx : x ∈ rs) : compare r.1 x.1 = .lt := hr x hx
    rw [insertRow]
    split
    case h_1 hlt =>
      have apart {x : κ × ν} (hx : x ∈ r :: rs) : x.1 ≠ k := by
        rintro rfl
        rcases List.mem_cons.1 hx with rfl | hx
        · rw [ReflOrd.compare_self] at hlt; contradiction
        · have := TransCmp.lt_trans hlt (above hx)
          rw [ReflOrd.compare_self] at this; contradiction
      rw [List.mem_cons]
      exact or_congr_right ⟨fun hx => ⟨hx, apart hx⟩, And.left⟩
    case h_2 heq =>
      obtain rfl := LawfulEqOrd.eq_of_compare heq
      rw [List.mem_cons, List.mem_cons]
      refine or_congr_right ⟨fun hx => ⟨.inr hx, ?_⟩, ?_⟩
      · intro hk
        have := above hx
        rw [hk, ReflOrd.compare_self] at this; contradiction
      · rintro ⟨rfl | hx, hk⟩
        · exact absurd rfl hk
        · exact hx
    case h_3 hgt =>
      have hne : r.1 ≠ k := by rintro rfl; rw [ReflOrd.compare_self] at hgt; contradiction
      rw [List.mem_cons, ih hrs, List.mem_cons]
      constructor
      · rintro (rfl | rfl | ⟨hx, hk⟩)
        · exact .inr ⟨.inl rfl, hne⟩
        · exact .inl rfl
        · exact .inr ⟨.inr hx, hk⟩
      · rintro (rfl | ⟨rfl | hx, hk⟩)
        · exact .inr (.inl rfl)
        · exact .inl rfl
        · exact .inr (.inr ⟨hx, hk⟩)

theorem get?_insert_self (t : Table κ ν) (k : κ) (v : ν) : (t.insert k v).get? k = some v :=
  get?_eq_some_iff.2 ((mem_insertRow_iff t.increasing).2 (.inl rfl))

theorem get?_insert_of_ne (t : Table κ ν) {k k' : κ} (v : ν) (h : k' ≠ k) : (t.insert k v).get? k' = t.get? k' := by
  refine Option.ext fun w => ?_
  rw [get?_eq_some_iff, get?_eq_some_iff]
  refine (mem_insertRow_iff t.increasing).trans ⟨?_, fun hw => .inr ⟨hw, h⟩⟩
  rintro (hw | hw)
  · exact absurd (congrArg Prod.fst hw) h
  · exact hw.1

end RouteProgramming.Table
