/-!
Finite maps kept as rows in strictly increasing key order, so that tables with the same contents are
equal and `rows` lists a table in key order.
-/

namespace RouteProgramming

open Std

/-- A finite map from `κ` to `ν`: one row per key, in increasing key order. -/
structure Table (κ ν : Type) [Ord κ] where
  rows : List (κ × ν)
  increasing : rows.Pairwise (fun a b => compare a.1 b.1 = .lt)

namespace Table

variable {κ ν : Type} [Ord κ]

def empty : Table κ ν := ⟨[], .nil⟩

instance : EmptyCollection (Table κ ν) := ⟨empty⟩

instance : Inhabited (Table κ ν) := ⟨empty⟩

theorem eq_of_rows_eq {s t : Table κ ν} (h : s.rows = t.rows) : s = t := by
  cases s; cases t; cases h; rfl

instance [DecidableEq κ] [DecidableEq ν] : DecidableEq (Table κ ν) := fun s t =>
  if h : s.rows = t.rows then isTrue (eq_of_rows_eq h) else isFalse (fun e => h (e ▸ rfl))

instance [Repr κ] [Repr ν] : Repr (Table κ ν) := ⟨fun t n => reprPrec t.rows n⟩

def size (t : Table κ ν) : Nat := t.rows.length

def isEmpty (t : Table κ ν) : Bool := t.rows.isEmpty

def keys (t : Table κ ν) : List κ := t.rows.map (·.1)

def values (t : Table κ ν) : List ν := t.rows.map (·.2)

def get? (t : Table κ ν) (k : κ) : Option ν := (t.rows.find? (fun r => compare r.1 k == .eq)).map (·.2)

def contains (t : Table κ ν) (k : κ) : Bool := (t.get? k).isSome

def erase (t : Table κ ν) (k : κ) : Table κ ν :=
  ⟨t.rows.filter (fun r => compare r.1 k != .eq), t.increasing.filter _⟩

/-- Applies `f` to the value of `k`; nothing happens when `k` has no row. -/
def modify (t : Table κ ν) (k : κ) (f : ν → ν) : Table κ ν :=
  ⟨t.rows.map (fun r => if compare r.1 k == .eq then (r.1, f r.2) else r), by
    refine List.pairwise_map.2 (t.increasing.imp ?_)
    intro a b h
    split <;> split <;> exact h⟩

def mapValues {μ : Type} (t : Table κ ν) (f : ν → μ) : Table κ μ :=
  ⟨t.rows.map (fun r => (r.1, f r.2)), List.pairwise_map.2 (t.increasing.imp (fun h => h))⟩

def filter (t : Table κ ν) (p : κ → ν → Bool) : Table κ ν :=
  ⟨t.rows.filter (fun r => p r.1 r.2), t.increasing.filter _⟩

def insertRow (k : κ) (v : ν) : List (κ × ν) → List (κ × ν)
  | [] => [(k, v)]
  | r :: rs =>
    match compare k r.1 with
    | .lt => (k, v) :: r :: rs
    | .eq => (k, v) :: rs
    | .gt => r :: insertRow k v rs

theorem mem_insertRow {k : κ} {v : ν} {a : κ × ν} {rs : List (κ × ν)} (h : a ∈ insertRow k v rs) :
    a = (k, v) ∨ a ∈ rs := by
  induction rs with
  | nil => simpa [insertRow] using h
  | cons r rs ih =>
    rw [insertRow] at h
    split at h <;> grind

variable [TransOrd κ]

theorem insertRow_increasing (k : κ) (v : ν) {rs : List (κ × ν)}
    (h : rs.Pairwise (fun a b => compare a.1 b.1 = .lt)) :
    (insertRow k v rs).Pairwise (fun a b => compare a.1 b.1 = .lt) := by
  induction rs with
  | nil => simp [insertRow]
  | cons r rs ih =>
    obtain ⟨hr, hrs⟩ := List.pairwise_cons.1 h
    rw [insertRow]
    split
    case h_1 hlt =>
      refine List.pairwise_cons.2 ⟨fun a ha => ?_, h⟩
      rcases List.mem_cons.1 ha with rfl | ha
      · exact hlt
      · exact TransCmp.lt_trans hlt (hr a ha)
    case h_2 heq =>
      exact List.pairwise_cons.2 ⟨fun a ha => TransCmp.lt_of_eq_of_lt heq (hr a ha), hrs⟩
    case h_3 hgt =>
      refine List.pairwise_cons.2 ⟨fun a ha => ?_, ih hrs⟩
      rcases mem_insertRow ha with rfl | ha
      · exact OrientedCmp.lt_of_gt hgt
      · exact hr a ha

/-- Gives `k` the value `v`, whether or not it had one. -/
def insert (t : Table κ ν) (k : κ) (v : ν) : Table κ ν :=
  ⟨insertRow k v t.rows, insertRow_increasing k v t.increasing⟩

/-- Of two rows with one key the later counts. -/
def ofList (rows : List (κ × ν)) : Table κ ν := rows.foldl (fun t r => t.insert r.1 r.2) empty

end Table

/-- A set of keys is a table without values. -/
abbrev KeySet (κ : Type) [Ord κ] := Table κ Unit

def KeySet.ofList {κ : Type} [Ord κ] [TransOrd κ] (keys : List κ) : KeySet κ :=
  Table.ofList (keys.map (·, ()))

end RouteProgramming
