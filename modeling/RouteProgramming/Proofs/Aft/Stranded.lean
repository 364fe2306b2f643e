import RouteProgramming.Proofs.Aft.Integrity

/-! Installs that fail halfway. An install holds its references one by one and
stops at the first that is not installed; those before it stay held, although no
entry came of it. Such a holder is never released: over any run of installs and
removals every row counts its referrers and the holders stranded on it, and a row
with a stranded holder can never be removed. A removal that fails changes nothing.
No count is above the number of calls, so that 32 bits are enough for every count
of a run of fewer than 2 ^ 32 calls. -/

namespace RouteProgramming.Aft

variable {a b : Aft} {e : Entry} {k : EntryKey} {extra : EntryKey → Nat}

/-! ### Installing -/

/-- The references that an install holds before it comes to one that is not installed; none if there is no such one. -/
def stranded (a : Aft) (e : Entry) : List EntryKey :=
  if e.references.all a.contains then [] else e.references.takeWhile a.contains

theorem hold_of_get?_none (hk : a.get? k = none) : a.hold k = .error .absent := by
  cases k with
  | nextHop i => rw [hold, HeldTable.hold, HeldTable.holders?, Option.map_eq_none_iff.1 hk]; rfl
  | nextHopGroup i => rw [hold, HeldTable.hold, HeldTable.holders?, Option.map_eq_none_iff.1 hk]; rfl
  | ipv4 p => rw [hold, HeldTable.hold, HeldTable.holders?, Option.map_eq_none_iff.1 hk]; rfl

theorem forEach_append {step : Aft → EntryKey → Except HoldError Aft} {js : List EntryKey}
    (h : forEach step a js = (.ok (), b)) (ks : List EntryKey) : forEach step a (js ++ ks) = forEach step b ks := by
  induction js generalizing a with
  | nil => cases h; rfl
  | cons j js ih =>
    rw [forEach] at h
    rw [List.cons_append, forEach]
    cases hj : step a j with
    | error err => rw [hj] at h; cases h
    | ok c => rw [hj] at h; exact ih h

/-- A run of holding that comes to a key that is not installed leaves those before it held. -/
theorem holdAll_missing {js : List EntryKey} (hjs : ∀ j ∈ js, a.contains j) (hk : a.get? k = none)
    (ks : List EntryKey) :
    ∃ b, a.holdAll (js ++ k :: ks) = (.error .absent, b) ∧ b.lastDeviceId = a.lastDeviceId ∧
      ∀ j, b.get? j = (a.get? j).map (fun h => ⟨h.value, h.holders + js.count j⟩) := by
  obtain ⟨b, hrun, hlast, hget⟩ := holdAll_ok hjs
  have hkb : b.get? k = none := by rw [hget, hk]; rfl
  refine ⟨b, ?_, hlast, hget⟩
  rw [holdAll, forEach_append hrun, forEach, hold_of_get?_none hkb]

/-- An install that was given up: it holds the references before the missing one, and nothing else has changed. -/
structure Abandoned (a : Aft) (e : Entry) (b : Aft) : Prop where
  missing : ∃ k ∈ e.references, ¬a.contains k
  last : b.lastDeviceId = a.lastDeviceId
  rows : ∀ k, b.get? k = (a.get? k).map (fun h => ⟨h.value, h.holders + (a.stranded e).count k⟩)

/-- What an install comes to. -/
inductive Installs (a : Aft) (e : Entry) (owner : ClientId) (outcome : Outcome) (extra : EntryKey → Nat) :
    Except HoldError Unit × Aft → Prop
  | done {b : Aft} (present : ∀ k ∈ e.references, a.contains k) (counted : b.Counted extra)
    (row : b.installed = a.installed.insert e.key ⟨e, owner, a.numberFor e.key, outcome⟩) :
    Installs a e owner outcome extra (.ok (), b)
  | failed {b : Aft} (abandoned : a.Abandoned e b) : Installs a e owner outcome extra (.error .absent, b)

theorem stranded_of_all (h : ∀ k ∈ e.references, a.contains k) : a.stranded e = [] :=
  if_pos (List.all_eq_true.2 h)

theorem install_cases (hc : a.Counted extra) (e : Entry) (owner : ClientId) (outcome : Outcome) :
    Installs a e owner outcome extra (a.install e owner outcome) := by
  by_cases hall : ∀ k ∈ e.references, a.contains k
  · obtain ⟨b, hrun, hb, row, -⟩ := hc.install hall owner outcome
    rw [hrun]
    exact .done hall hb row
  · have hmissing : ∃ k ∈ e.references, ¬a.contains k := by simpa using hall
    obtain ⟨k, hfind⟩ : ∃ k, e.references.find? (fun k => !a.contains k) = some k := by
      simpa [← Option.isSome_iff_exists] using hmissing
    obtain ⟨habsent, js, ks, hsplit, hjs⟩ := List.find?_eq_some_iff_append.1 hfind
    have hpresent : ∀ j ∈ js, a.contains j := by simpa using hjs
    have hk : a.get? k = none := by simpa [contains] using habsent
    have hstranded : a.stranded e = js := by
      have hstop : ¬a.contains k := by simpa using habsent
      rw [stranded, if_neg (by simpa using hmissing), hsplit, List.takeWhile_append_of_pos hpresent,
        List.takeWhile_cons_of_neg hstop, List.append_nil]
    obtain ⟨b, hrun, hlast, hget⟩ := holdAll_missing hpresent hk ks
    rw [install, hsplit, hrun]
    exact .failed ⟨hmissing, hlast, hstranded ▸ hget⟩

/-- What an install strands is installed. -/
theorem contains_of_mem_stranded (hk : k ∈ a.stranded e) : a.contains k := by
  rw [stranded] at hk
  split at hk
  · contradiction
  · exact List.all_eq_true.1 List.all_takeWhile k hk

theorem Abandoned.installed (h : a.Abandoned e b) : b.installed = a.installed := by
  refine Table.ext_get? fun k => ?_
  rw [get?_installed, get?_installed, h.rows, Option.map_map]
  rfl

/-- An install that was given up leaves everything as it was exactly when it stranded nothing. -/
theorem Abandoned.eq_iff_stranded (h : a.Abandoned e b) : b = a ↔ a.stranded e = [] := by
  constructor
  · rintro rfl
    refine List.eq_nil_iff_forall_not_mem.2 fun k hk => ?_
    obtain ⟨i, hget⟩ := contains_iff.1 (contains_of_mem_stranded hk)
    have hsame := h.rows k
    rw [hget, Option.map_some, Option.some.injEq] at hsame
    have hholders : i.holders = i.holders + (b.stranded e).count k := congrArg (·.holders) hsame
    have := List.count_pos_iff.2 hk
    omega
  · intro hnil
    refine ext_get? (fun k => ?_) h.last
    rw [h.rows, hnil]
    cases a.get? k <;> rfl

/-- That is so exactly when the missing reference is the first. -/
theorem Abandoned.eq_iff (h : a.Abandoned e b) : b = a ↔ ∃ k, e.references.head? = some k ∧ ¬a.contains k := by
  have hmissing := h.missing
  rw [h.eq_iff_stranded, stranded, if_neg (by simpa using hmissing)]
  cases href : e.references with
  | nil => simp [href] at hmissing
  | cons k ks => by_cases hk : a.contains k <;> simp [hk]

/-! ### Removing -/

theorem take_of_held {h : InstalledEntry} {n : Nat} (hk : a.get? k = some h) (hn : h.holders = n + 1) :
    a.take k = .error (.stillHeld (n + 1)) := by
  cases k with
  | nextHop i =>
    obtain ⟨⟨v, m⟩, hv, rfl⟩ := Option.map_eq_some_iff.1 hk
    obtain rfl : m = n + 1 := hn
    rw [take, HeldTable.remove, hv]; rfl
  | nextHopGroup i =>
    obtain ⟨⟨v, m⟩, hv, rfl⟩ := Option.map_eq_some_iff.1 hk
    obtain rfl : m = n + 1 := hn
    rw [take, HeldTable.remove, hv]; rfl
  | ipv4 p =>
    obtain ⟨⟨v, m⟩, hv, rfl⟩ := Option.map_eq_some_iff.1 hk
    obtain rfl : m = n + 1 := hn
    rw [take, HeldTable.remove, hv]; rfl

/-- What a removal comes to. -/
inductive Removes (a : Aft) (k : EntryKey) (extra : EntryKey → Nat) : Except HoldError Entry × Aft → Prop
  | absent (absent : a.get? k = none) : Removes a k extra (.error .absent, a)
  | held {n : Nat} (held : a.holders? k = some (n + 1)) : Removes a k extra (.error (.stillHeld (n + 1)), a)
  | done {old : Entry} {b : Aft} (free : a.holders? k = some 0) (counted : b.Counted extra)
    (row : b.installed = a.installed.erase k) : Removes a k extra (.ok old, b)

theorem remove_cases (hc : a.Counted extra) (k : EntryKey) : Removes a k extra (a.remove k) := by
  cases hk : a.get? k with
  | none =>
    rw [remove_of_get?_none hk]
    exact .absent hk
  | some h =>
    have hholders : a.holders? k = some h.holders := by rw [holders?, hk]; rfl
    cases hn : h.holders with
    | zero =>
      obtain ⟨old, b, hrun, hb, row, -⟩ := hc.remove (hn ▸ hholders)
      rw [hrun]
      exact .done (hn ▸ hholders) hb row
    | succ n =>
      rw [Aft.remove, take_of_held hk hn]
      exact .held (hn ▸ hholders)

/-! ### Runs -/

inductive Call where
  | install (e : Entry) (owner : ClientId) (outcome : Outcome)
  | remove (k : EntryKey)

def call (a : Aft) : Call → Aft
  | .install e owner outcome => (a.install e owner outcome).2
  | .remove k => (a.remove k).2

def callAll (a : Aft) (calls : List Call) : Aft := calls.foldl call a

/-- The holders that a call strands. -/
def strands (a : Aft) : Call → List EntryKey
  | .install e _ _ => a.stranded e
  | .remove _ => []

/-- How many holders a run of calls has stranded on a key. -/
def strandedOn (a : Aft) (k : EntryKey) : List Call → Nat
  | [] => 0
  | v :: vs => (a.strands v).count k + (a.call v).strandedOn k vs

theorem strandedOn_append (a : Aft) (k : EntryKey) (vs ws : List Call) :
    a.strandedOn k (vs ++ ws) = a.strandedOn k vs + (a.callAll vs).strandedOn k ws := by
  induction vs generalizing a with
  | nil => simp [strandedOn, callAll]
  | cons v vs ih =>
    simp only [List.cons_append, strandedOn, ih, callAll, List.foldl_cons]
    omega

theorem counted_empty : Aft.Counted {} (fun _ => 0) := by
  have hnone (k : EntryKey) : Aft.get? {} k = none := by cases k <;> rfl
  constructor <;> intro k
  case kept => exact fun _ => rfl
  all_goals
    intro h hk
    rw [hnone] at hk
    contradiction

theorem Counted.congr {x y : EntryKey → Nat} (hc : a.Counted x) (h : ∀ k, x k = y k) : a.Counted y :=
  funext h ▸ hc

theorem count_stranded_le (a : Aft) (e : Entry) (k : EntryKey) : (a.stranded e).count k ≤ 1 := by
  rw [stranded]
  split
  · simp
  · exact Nat.le_trans ((List.takeWhile_sublist _).count_le k) (e.count_references_le k)

/-- A call leaves the tables counted, with what it strands besides; in all a row gets one holder more at most. -/
theorem Counted.call (hc : a.Counted extra) (v : Call) :
    (a.call v).Counted (fun k => extra k + (a.strands v).count k) ∧
      ∀ k, (a.call v).referrers k + (a.strands v).count k ≤ a.referrers k + 1 := by
  cases v with
  | install e owner outcome =>
    have hcases := install_cases hc e owner outcome
    simp only [Aft.call, strands]
    generalize a.install e owner outcome = out at hcases
    cases hcases with
    | @done b present counted row =>
      rw [stranded_of_all present]
      refine ⟨counted.congr fun k => by simp, fun k => ?_⟩
      have hcount := referrers_insert row k
      have hle := e.count_references_le k
      simp only [List.count_nil] at hcount ⊢
      omega
    | @failed b abandoned =>
      have hrows := abandoned.installed
      have hreferrers (k : EntryKey) : b.referrers k = a.referrers k := by rw [referrers_eq, referrers_eq, hrows]
      refine ⟨.of_installed hrows (fun k i => hc.installed_keyed) (fun k i hi r => hc.installed_closed hi) ?_ ?_, ?_⟩
      · intro k h hk
        rw [abandoned.rows] at hk
        obtain ⟨h', hk', rfl⟩ := Option.map_eq_some_iff.1 hk
        have := hc.counted k h' hk'
        simp only [hreferrers]
        omega
      · intro k hk
        have hnot : k ∉ a.stranded e := fun hmem => by
          have := contains_of_mem_stranded hmem
          rw [contains_eq_installed, Table.contains, hk] at this
          contradiction
        rw [hc.installed_kept hk, List.count_eq_zero_of_not_mem hnot]
      · intro k
        have hle := a.count_stranded_le e k
        simp only [hreferrers]
        omega
  | remove k =>
    have hcases := remove_cases hc k
    simp only [Aft.call, strands, List.count_nil, Nat.add_zero]
    generalize a.remove k = out at hcases
    cases hcases with
    | absent absent => exact ⟨hc, fun k => by dsimp only; omega⟩
    | held held => exact ⟨hc, fun k => by dsimp only; omega⟩
    | done free counted row =>
      refine ⟨counted, fun j => ?_⟩
      have := referrers_erase row j
      dsimp only at this ⊢
      omega

theorem Counted.callAll (hc : a.Counted extra) (vs : List Call) :
    (a.callAll vs).Counted (fun k => extra k + a.strandedOn k vs) ∧
      ∀ k, (a.callAll vs).referrers k + a.strandedOn k vs ≤ a.referrers k + vs.length := by
  induction vs generalizing a extra with
  | nil => exact ⟨hc, fun k => Nat.le_refl _⟩
  | cons v vs ih =>
    obtain ⟨hcounted, hle⟩ := hc.call v
    obtain ⟨hcounted', hle'⟩ := ih hcounted
    refine ⟨hcounted'.congr fun k => ?_, fun k => ?_⟩
    · simp only [strandedOn]
      omega
    · have := hle k
      have := hle' k
      simp only [strandedOn, Aft.callAll, List.foldl_cons, List.length_cons] at this ⊢
      omega

/-- After any calls a row counts its referrers and what is stranded on it, at most one for each call. -/
theorem counted_callAll (vs : List Call) :
    (callAll {} vs).Counted (fun k => strandedOn {} k vs) ∧
      ∀ k, (callAll {} vs).referrers k + strandedOn {} k vs ≤ vs.length := by
  obtain ⟨hcounted, hle⟩ := counted_empty.callAll vs
  refine ⟨hcounted.congr fun k => Nat.zero_add _, fun k => ?_⟩
  have hnone : Aft.referrers {} k = 0 := rfl
  have := hle k
  omega

/-- An install succeeds exactly when all references are there. -/
theorem Counted.install_isOk_iff (hc : a.Counted extra) (e : Entry) (owner : ClientId) (outcome : Outcome) :
    (a.install e owner outcome).1.isOk ↔ ∀ k ∈ e.references, a.contains k := by
  have hcases := install_cases hc e owner outcome
  generalize a.install e owner outcome = out at hcases
  cases hcases with
  | done present counted row => simpa [Except.isOk, Except.toBool] using present
  | failed abandoned => simpa [Except.isOk, Except.toBool] using abandoned.missing

/-- A removal succeeds exactly when nothing refers to the entry and nothing is stranded on it. -/
theorem Counted.remove_isOk_iff (hc : a.Counted extra) (k : EntryKey) :
    (a.remove k).1.isOk ↔ a.contains k ∧ a.referrers k = 0 ∧ extra k = 0 := by
  have hcases := remove_cases hc k
  generalize a.remove k = out at hcases
  cases hcases with
  | absent absent => simp [Except.isOk, Except.toBool, contains, absent]
  | held held =>
    obtain ⟨h, hk, hn⟩ := Option.map_eq_some_iff.1 held
    have := hc.counted k h hk
    simp only [Except.isOk, Except.toBool, Bool.false_eq_true, false_iff, not_and]
    omega
  | done free counted row =>
    obtain ⟨h, hk, hn⟩ := Option.map_eq_some_iff.1 free
    have := hc.counted k h hk
    have hcontains : a.contains k := contains_iff.2 ⟨h, hk⟩
    simp only [Except.isOk, Except.toBool, true_iff]
    exact ⟨hcontains, by omega, by omega⟩

/-- What is stranded on a row keeps it from being removed, whatever is called afterwards. -/
theorem remove_of_strandedOn (vs : List Call) (k : EntryKey) (ws : List Call) (hk : 0 < strandedOn {} k vs) :
    ∃ n, ((callAll {} vs).callAll ws).remove k = (.error (.stillHeld (n + 1)), (callAll {} vs).callAll ws) := by
  have hrun : (callAll {} vs).callAll ws = callAll {} (vs ++ ws) := List.foldl_append.symm
  obtain ⟨hcounted, -⟩ := counted_callAll (vs ++ ws)
  have hstranded := strandedOn_append {} k vs ws
  rw [hrun]
  have hcases := remove_cases hcounted k
  generalize (callAll {} (vs ++ ws)).remove k = out at hcases
  cases hcases with
  | absent absent =>
    have := hcounted.kept k absent
    omega
  | @held n held => exact ⟨n, rfl⟩
  | done free counted row =>
    obtain ⟨h, hk', hn⟩ := Option.map_eq_some_iff.1 free
    have := hcounted.counted k h hk'
    omega

/-- What calls that fail do to tables that calls built. An install fails exactly for a missing reference; it keeps the holders of the
references before that one and changes nothing else, so all stays as it was exactly when the missing one is the first. A removal
that fails changes nothing. A row counts its referrers and the holders stranded on it, and with one of the latter it is there for
good. -/
theorem failed_calls_exactly {a : Aft} {vs : List Call} (ha : callAll {} vs = a) :
    (∀ e owner outcome, (a.install e owner outcome).1.isOk ↔ ∀ k ∈ e.references, a.contains k) ∧
    (∀ e owner outcome err b, a.install e owner outcome = (.error err, b) →
      err = .absent ∧ a.Abandoned e b ∧ (b = a ↔ ∃ k, e.references.head? = some k ∧ ¬a.contains k)) ∧
    (∀ k err b, a.remove k = (.error err, b) → b = a) ∧
    (∀ k n, a.holders? k = some n → n = a.referrers k + strandedOn {} k vs ∧ n ≤ vs.length) ∧
    (∀ k, (a.remove k).1.isOk ↔ a.contains k ∧ a.referrers k = 0 ∧ strandedOn {} k vs = 0) ∧
    (∀ k ws, 0 < strandedOn {} k vs → ∃ n, (a.callAll ws).remove k = (.error (.stillHeld (n + 1)), a.callAll ws)) := by
  subst ha
  obtain ⟨hcounted, hle⟩ := counted_callAll vs
  refine ⟨hcounted.install_isOk_iff, fun e owner outcome err b hrun => ?_, fun k err b hrun => ?_, fun k n hk => ?_,
    hcounted.remove_isOk_iff, remove_of_strandedOn vs⟩
  · have hcases := install_cases hcounted e owner outcome
    rw [hrun] at hcases
    cases hcases with
    | failed abandoned => exact ⟨rfl, abandoned, abandoned.eq_iff⟩
  · have hcases := remove_cases hcounted k
    rw [hrun] at hcases
    cases hcases with
    | absent absent => rfl
    | held held => rfl
  · obtain ⟨h, hrow, rfl⟩ := Option.map_eq_some_iff.1 hk
    have := hcounted.counted k h hrow
    have := hle k
    omega

/-- Next-hop 42, and a group that refers to it and to a next-hop that is missing. -/
def halfway : List Call :=
  [.install (.nextHop { index := 42, address := some (.v4 ⟨0xC0000206⟩) }) 1 .installedInRib,
    .install (.nextHopGroup { id := 10, members := Table.ofList [(42, 1), (99, 1)] }) 1 .installedInRib]

theorem failed_calls_exactly_halfway : 0 < strandedOn {} (.nextHop 42) halfway ∧
    ∀ ws, ∃ n, ((callAll {} halfway).callAll ws).remove (.nextHop 42) =
      (.error (.stillHeld (n + 1)), (callAll {} halfway).callAll ws) := by
  have hstranded : 0 < strandedOn {} (.nextHop 42) halfway := by decide
  obtain ⟨-, -, -, -, -, hkept⟩ := failed_calls_exactly (rfl : callAll {} halfway = _)
  exact ⟨hstranded, fun ws => hkept _ ws hstranded⟩

/-- The next-hop stays held by a group that is not there. -/
theorem failed_install_strands :
    ¬∀ (vs : List Call) (e : Entry) (owner : ClientId) (outcome : Outcome) (err : HoldError) (b : Aft),
      (callAll {} vs).install e owner outcome = (.error err, b) → b = callAll {} vs := by
  intro h
  have hheld : (callAll {} halfway).holders? (.nextHop 42) = some 1 := by decide
  have hfree : (callAll {} (halfway.take 1)).holders? (.nextHop 42) = some 0 := by decide
  have hsame : callAll {} halfway = callAll {} (halfway.take 1) :=
    h (halfway.take 1) (.nextHopGroup { id := 10, members := Table.ofList [(42, 1), (99, 1)] }) 1 .installedInRib .absent
      (callAll {} halfway) rfl
  rw [hsame, hfree] at hheld
  cases hheld

end RouteProgramming.Aft
