import RouteProgramming.FileTree
import RouteProgramming.Profile

/-!
A set of profiles, at most one for each id. `resolve` lists a profile after everything it depends
on; it follows the dependencies in order, depth first, and stops at the first that is missing or
that leads back to a profile on the way.
-/

namespace RouteProgramming

structure Registry where
  profiles : Table FeatureId Profile := ∅
deriving DecidableEq, Repr, Inhabited

namespace Registry

def get? (r : Registry) (id : FeatureId) : Option Profile := r.profiles.get? id

def contains (r : Registry) (id : FeatureId) : Bool := r.profiles.contains id

def ids (r : Registry) : List FeatureId := r.profiles.keys

def size (r : Registry) : Nat := r.profiles.size

def insert (r : Registry) (p : Profile) : Except ProfileError Registry :=
  if r.contains p.id then .error (.duplicate p.id) else .ok ⟨r.profiles.insert p.id p⟩

def ofList (ps : List Profile) : Except ProfileError Registry := ps.foldlM insert {}

/-- The profile of a name with the highest version. -/
def latest (r : Registry) (name : String) : Option Profile :=
  (r.profiles.values.filter (·.id.name == name)).getLast?

/-! ### Resolution -/

/-- The loaded ids that are not on the path. -/
def offPath (r : Registry) (path : List FeatureId) : List FeatureId := r.ids.filter (fun i => !path.contains i)

theorem mem_ids {r : Registry} {id : FeatureId} {p : Profile} (h : r.get? id = some p) : id ∈ r.ids := by
  obtain ⟨row, hrow, -⟩ := Option.map_eq_some_iff.1 h
  have heq : compare row.1 id = .eq := by simpa using List.find?_some hrow
  exact Std.LawfulEqOrd.eq_of_compare heq ▸ List.mem_map_of_mem (List.mem_of_find?_eq_some hrow)

theorem offPath_lt {r : Registry} {path : List FeatureId} {id : FeatureId} {p : Profile}
    (hp : r.get? id = some p) (h : ¬path.contains id) :
    (r.offPath (path ++ [id])).length < (r.offPath path).length := by
  have sub : r.offPath (path ++ [id]) = (r.offPath path).filter (fun i => i != id) := by
    simp only [offPath, List.filter_filter]
    refine List.filter_congr (fun i _ => ?_)
    by_cases hi : i = id <;> simp [hi]
  have here : id ∈ r.offPath path := by
    simp only [offPath, List.mem_filter]
    exact ⟨mem_ids hp, by simpa using h⟩
  rw [sub]
  refine Nat.lt_of_le_of_ne (List.length_filter_le _ _) (fun e => ?_)
  simpa using List.length_filter_eq_length_iff.1 e id here

mutual

/-- Adds a profile and all it depends on to the list of those done, unless it is done already.
`path` leads from the profile asked for to this one. -/
def visit (r : Registry) (path done : List FeatureId) (id : FeatureId) : Except ProfileError (List FeatureId) :=
  if done.contains id then .ok done
  else if _h : path.contains id then .error (.dependencyCycle (path.dropWhile (· != id) ++ [id]))
  else
    match _hp : r.get? id with
    | none => .error (.notFound id)
    | some p => (visitAll r (path ++ [id]) done id p.dependencies).map (· ++ [id])
termination_by ((r.offPath path).length, 0)
decreasing_by exact .left _ _ (offPath_lt _hp _h)

/-- Visits the dependencies of `owner` in turn; each must be loaded. -/
def visitAll (r : Registry) (path done : List FeatureId) (owner : FeatureId) :
    List FeatureId → Except ProfileError (List FeatureId)
  | [] => .ok done
  | d :: ds =>
    if !r.contains d then .error (.missingDependency owner d)
    else
      match visit r path done d with
      | .error e => .error e
      | .ok done => visitAll r path done owner ds
termination_by ds => ((r.offPath path).length, ds.length + 1)

end

/-- A profile and everything it depends on, dependencies first. -/
def resolve (r : Registry) (id : FeatureId) : Except ProfileError (List FeatureId) := r.visit [] [] id

/-- The error of a profile that cannot be resolved. -/
def error? (r : Registry) (id : FeatureId) : Option ProfileError :=
  match r.resolve id with
  | .error e => some e
  | .ok _ => none

/-- The errors of all profiles that cannot be resolved, in the order of their ids. -/
def problems (r : Registry) : List ProfileError := r.ids.filterMap r.error?

def support (r : Registry) (supported : List String) : List SupportReport :=
  r.profiles.values.map (·.support supported)

/-! ### Loading -/

def fileName : String := "feature.textproto"

mutual

/-- Loads every profile file of a folder and the folders in it, in the order of their names. -/
def loadEntries (r : Registry) : List (String × FileTree) → Except ProfileError Registry
  | [] => .ok r
  | (name, t) :: rest =>
    match loadEntry r name t with
    | .error e => .error e
    | .ok r => loadEntries r rest

def loadEntry (r : Registry) (name : String) : FileTree → Except ProfileError Registry
  | .folder entries => loadEntries r entries
  | .file text =>
    if name ≠ fileName then .ok r
    else
      match text with
      | none => .error (.unreadable name)
      | some text => (Profile.parse text).bind r.insert

end

/-- Loads the profiles below a folder. -/
def load (root : Option FileTree) : Except ProfileError Registry :=
  match root with
  | some (.folder entries) => loadEntries {} entries
  | _ => .error (.unreadable "")

end Registry

end RouteProgramming
