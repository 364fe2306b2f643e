import RouteProgramming.Proofs.Rib.Calls

/-! Histories of a RIB over a forwarding plane that nothing else writes to: any
batches of any clients and any bulk removals, with failures injected and
interfaces changed at any time. Every RIB with a history is coherent, and an
event leaves a key alone, leaves it the same on both sides, or, if it is a bulk
removal that the hardware refused something, orphans it. A history may have any
capacity, and counts of holders have no bound of their own. With a capacity below
2 ^ 32 - 1 they fit 32 bits, also while a write goes on (`Coherent.holders?_le`,
`Sound.holding_le`); what is proved of such histories is true of counters of 32
bits. -/

namespace RouteProgramming

inductive Rib.Event where
  | batch (c : Context) (operations : List Operation)
  | removeOwnedBy (client : ClientId)
  | flush (networkInstance : String)
  /-- One removal of a bulk removal, so that failures can be injected between two of them. -/
  | discard (networkInstance : String) (key : EntryKey)
  | failNext (count : Nat)
  | configure (name : String) (address : Ipv4) (length : Nat) (enabled : Bool)
  | removeInterface (name : String)

namespace Rib.Event

def isRemoval : Event → Bool
  | .removeOwnedBy _ | .flush _ | .discard _ _ => true
  | _ => false

end Rib.Event

namespace Rib

def step (r : Rib) : Event → Rib
  | .batch c operations => (r.applyBatch c operations).2.2
  | .removeOwnedBy client => (r.removeOwnedBy client).2
  | .flush networkInstance => (r.flush networkInstance).2
  | .discard networkInstance key => (r.discard networkInstance key).2
  | .failNext count => { r with plane := r.plane.failNext count }
  | .configure name address length enabled =>
    match r.plane.configure name address length enabled with
    | .ok plane => { r with plane }
    | .error _ => r
  | .removeInterface name => { r with plane := (r.plane.removeInterface name).2 }

def run (r : Rib) (events : List Event) : Rib := events.foldl step r

variable {r : Rib}

theorem run_append (r : Rib) (es fs : List Event) : r.run (es ++ fs) = (r.run es).run fs :=
  List.foldl_append

theorem run_concat (r : Rib) (es : List Event) (v : Event) : r.run (es ++ [v]) = (r.run es).step v :=
  run_append r es [v]

end Rib

/-- A new RIB over an empty forwarding plane, and all that was done to it. -/
structure History where
  networkInstances : List String
  capacity : Nat
  events : List Rib.Event

namespace History

open Rib

def rib (h : History) : Rib := (Rib.create h.networkInstances h.capacity).run h.events

/-- No failure was ever injected. -/
def Quiet (h : History) : Prop := ∀ n, .failNext n ∈ h.events → n = 0

/-- The history up to and without the last events. -/
def before (h : History) (events : List Event) : History := { h with events }

/-! ### An example -/

/-- 203.0.113.0/24 -/
def documentation : Cidr := ⟨.v4 ⟨0xCB007100⟩, 24, by decide⟩

/-- An interface, a next-hop on its link, a group of it alone, and a prefix bound to the group. -/
def oneRoute (events : List Event) : History where
  networkInstances := ["DEFAULT"]
  capacity := 16
  events :=
    let add (id : UInt64) (entry : Entry) : Operation :=
      { id, networkInstance := "DEFAULT", op := .add, entry }
    .configure "Ethernet4" ⟨0xC0000205⟩ 30 true ::
      .batch { client := 1 } [add 1 (.nextHop { index := 42, address := some (.v4 ⟨0xC0000206⟩) }),
        add 2 (.nextHopGroup { id := 10, members := Table.ofList [(42, 1)] }),
        add 3 (.ipv4 ⟨documentation, 10⟩)] :: events

end History

namespace Rib

variable {r : Rib} {ni : String} {k : EntryKey}

/-! ### The beginning -/

theorem get?_create {names : List String} {capacity : Nat} {a : Aft}
    (h : (create names capacity).instances.get? ni = some a) : a = {} := by
  have := Table.mem_of_get?_ofList h
  obtain ⟨_, -, he⟩ := List.mem_map.1 this
  exact (congrArg Prod.snd he).symm

theorem installed?_create (names : List String) (capacity : Nat) (ni : String) (k : EntryKey) :
    (create names capacity).installed? ni k = none := by
  rw [installed?]
  cases h : (create names capacity).instances.get? ni with
  | none => rfl
  | some a =>
    rw [get?_create h]
    cases k <;> rfl

theorem programmed?_create (names : List String) (capacity : Nat) (ni : String) (k : EntryKey) :
    (create names capacity).programmed? ni k = none := by
  cases k <;> rfl

theorem sound_empty : Aft.Sound {} := by
  have hnone (k : EntryKey) : Aft.get? {} k = none := by cases k <;> rfl
  constructor <;> intro k h hk <;> rw [hnone] at hk <;> contradiction

theorem create_coherent (names : List String) (capacity : Nat) : (create names capacity).Coherent := by
  refine ⟨fun ni a h => ?_, fun ni a h kind => ?_, fun ni k e h => ?_⟩
  · rw [get?_create h]
    exact sound_empty
  · rw [get?_create h]
    cases kind <;> exact Nat.zero_le _
  · rw [installed?_create] at h
    contradiction

/-! ### One event -/

inductive Stepped (r : Rib) : Event → Rib → Prop
  | edited {v : Event} {s : Rib} (kind : v.isRemoval = false) (edit : Edit r s) : Stepped r v s
  | cleared {v : Event} {s : Rib} (kind : v.isRemoval) (clearing : Clearing r s) : Stepped r v s
  | failing (n : Nat) : Stepped r (.failNext n) { r with plane := r.plane.failNext n }
  | wired {v : Event} (interfaces : Table String Interface) (kind : v.isRemoval = false) :
    Stepped r v { r with plane := { r.plane with interfaces } }

theorem step_cases (hc : r.Coherent) (v : Event) : Stepped r v (r.step v) := by
  cases v with
  | batch c os => exact .edited rfl (applyBatch_edit hc c os)
  | removeOwnedBy client => exact .cleared rfl (removeOwnedIn_clearing hc client _)
  | flush ni => exact .cleared rfl (removeWhere_clearing hc ni none)
  | discard ni k => exact .cleared rfl (discard_clearing hc ni k)
  | failNext n => exact .failing n
  | configure name address length enabled =>
    rw [step, ForwardingPlane.configure]
    split
    case h_1 p h =>
      split at h
      · contradiction
      · obtain rfl := Except.ok.inj h
        exact .wired _ rfl
    case h_2 => exact .wired r.plane.interfaces rfl
  | removeInterface name => exact .wired _ rfl

theorem Stepped.coherent {v : Event} {s : Rib} (hc : r.Coherent) (h : Stepped r v s) : s.Coherent := by
  cases h with
  | edited kind edit => exact edit.coherent hc
  | cleared kind clearing => exact clearing.coherent hc
  | failing | wired => exact ⟨hc.sound, hc.bounded, hc.backed⟩

theorem Stepped.capacity {v : Event} {s : Rib} (h : Stepped r v s) : s.capacity = r.capacity := by
  cases h with
  | edited kind edit => exact edit.capacity
  | cleared kind clearing => exact clearing.capacity
  | failing | wired => rfl

/-- A key is left alone, is the same on both sides, or has been orphaned by a bulk removal. -/
theorem Stepped.agree {v : Event} {s : Rib} (h : Stepped r v s) (ni : String) (k : EntryKey) :
    (s.installed? ni k = r.installed? ni k ∧ s.programmed? ni k = r.programmed? ni k) ∨
      s.installed? ni k = s.programmed? ni k ∨ (v.isRemoval ∧ Orphaned r s ni k) := by
  cases h with
  | edited kind edit => exact (edit.agree ni k).imp_right .inl
  | cleared kind clearing =>
    rcases clearing.agree ni k with hkept | hclear | horphan
    · exact .inl hkept
    · exact .inr (.inl (hclear.gone.trans hclear.withdrawn.symm))
    · exact .inr (.inr ⟨kind, horphan⟩)
  | failing | wired => exact .inl ⟨rfl, rfl⟩

/-- Only an injection makes failures. -/
theorem Stepped.failures {v : Event} {s : Rib} (h : Stepped r v s) (hv : ∀ n, v = .failNext n → n = 0)
    (hr : r.plane.failures = 0) : s.plane.failures = 0 := by
  have used {s : Rib} (h : Advance r s) : s.plane.failures = 0 := by
    have := h.spent
    have := h.refusals
    omega
  cases h with
  | edited kind edit => exact used edit.toAdvance
  | cleared kind clearing => exact used clearing.toAdvance
  | failing n => exact hv n rfl
  | wired => exact hr

/-! ### Any number of events -/

theorem run_coherent (hc : r.Coherent) (es : List Event) : (r.run es).Coherent := by
  induction es generalizing r with
  | nil => exact hc
  | cons v es ih => exact ih ((step_cases hc v).coherent hc)

theorem run_capacity (hc : r.Coherent) (es : List Event) : (r.run es).capacity = r.capacity := by
  induction es generalizing r with
  | nil => rfl
  | cons v es ih =>
    have hstep := step_cases hc v
    exact (ih (hstep.coherent hc)).trans hstep.capacity

end Rib

namespace History

open Rib

theorem coherent (h : History) : h.rib.Coherent := run_coherent (create_coherent ..) h.events

theorem capacity_rib (h : History) : h.rib.capacity = h.capacity :=
  run_capacity (create_coherent ..) h.events

/-- The RIB before the last event, and the RIB after it. -/
theorem rib_concat (h : History) (es : List Event) (v : Event) :
    (h.before (es ++ [v])).rib = (h.before es).rib.step v :=
  run_concat _ es v

end History

end RouteProgramming
