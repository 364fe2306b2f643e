import RouteProgramming.Proofs.Address.Prefix
import RouteProgramming.Proofs.Table.Rows
import RouteProgramming.Testbed.Topology

/-! Topologies as they are put together. A topology is made of its parts one after
the other, and adding a part does one thing: it files an interface or a network
under its name. So whatever an empty topology has and each part keeps holds of
every topology: its networks are IPv4 networks, each lies behind an interface
that is there, and its interfaces are filed under their own names. -/

namespace RouteProgramming.Topology

/-- One part of a topology, as it is added. -/
inductive Part where
  | interface (linkEnd : LinkEnd) (port : String) (gateway : LinkEnd)
  | network (interface name cidr : String)
deriving DecidableEq, Repr

def add (t : Topology) : Part → Except TestbedFault Topology
  | .interface linkEnd port gateway => t.addInterface linkEnd port gateway
  | .network interface name cidr => t.addNetwork interface name cidr

/-- A topology is made of its parts one after the other. -/
def build : List Part → Topology → Except TestbedFault Topology
  | [], t => .ok t
  | part :: parts, t => (t.add part).bind (build parts)

variable {t u : Topology}

/-! ### What is added -/

/-- What a part makes of a topology. -/
inductive Added (t : Topology) : Part → Topology → Prop
  | interface {linkEnd gateway : LinkEnd} {port : String} {address gatewayAddress : Ipv4}
    (ends : linkEnd.address = .ok address) (hands : gateway.address = .ok gatewayAddress) :
    Added t (.interface linkEnd port gateway) { t with
      interfaces := t.interfaces.insert linkEnd.name ⟨linkEnd.name, port, address, linkEnd.length, gatewayAddress⟩ }
  | network {interface name cidr : String} {c : Cidr} (known : t.interfaces.contains interface)
    (reads : Cidr.parse cidr = .ok c) (v4 : c.isV4) :
    Added t (.network interface name cidr) { t with networks := t.networks.insert name ⟨name, interface, c.network⟩ }

theorem added_of_add {part : Part} (h : t.add part = .ok u) : Added t part u := by
  cases part with
  | interface linkEnd port gateway =>
    rw [add, addInterface] at h
    cases hends : linkEnd.address with
    | error e => rw [hends] at h; contradiction
    | ok address =>
      cases hhands : gateway.address with
      | error e => rw [hends, hhands] at h; contradiction
      | ok gatewayAddress =>
        rw [hends, hhands] at h
        cases h
        exact .interface hends hhands
  | network interface name cidr =>
    rw [add, addNetwork] at h
    split at h
    case isFalse => contradiction
    case isTrue known =>
      split at h
      case h_1 => contradiction
      case h_2 c reads =>
        split at h
        case isFalse => contradiction
        case isTrue v4 =>
          cases h
          exact .network known reads v4

/-- What every part keeps, all parts together keep. -/
theorem build_induction {P : Topology → Prop} {parts : List Part} (start : P t)
    (keeps : ∀ t part u, P t → Added t part u → P u) (h : build parts t = .ok u) : P u := by
  induction parts generalizing t with
  | nil => cases h; exact start
  | cons part parts ih =>
    rw [build] at h
    cases hadd : t.add part with
    | error e => rw [hadd] at h; contradiction
    | ok v =>
      rw [hadd] at h
      exact ih (keeps t part v start (added_of_add hadd)) h

/-! ### What holds of every topology -/

/-- The networks are IPv4 networks. -/
def Plain (t : Topology) : Prop := ∀ name n, t.networks.get? name = some n → n.subnet.isV4

theorem plain_empty : Plain {} := fun _ n h => nomatch (show none = some n from h)

theorem Plain.add {part : Part} (h : t.Plain) (hu : Added t part u) : u.Plain := by
  cases hu with
  | interface => exact h
  | @network _ _ _ c _ _ v4 => exact Table.forall_get?_insert h ((Cidr.isV4_network c).trans v4)

theorem Plain.build {parts : List Part} (h : t.Plain) (hu : build parts t = .ok u) : u.Plain :=
  build_induction h (fun _ _ _ ht => ht.add) hu

/-- Every interface is filed under its name. -/
def Filed (t : Topology) : Prop := ∀ name i, t.interfaces.get? name = some i → i.name = name

theorem filed_empty : Filed {} := fun _ i h => nomatch (show none = some i from h)

theorem Filed.of_insert (h : t.Filed) (i : TesterInterface) (hu : u.interfaces = t.interfaces.insert i.name i) :
    u.Filed := by
  intro name j hj
  rw [hu, Table.get?_insert] at hj
  split at hj
  case isTrue hname => cases hj; exact hname.symm
  case isFalse => exact h name j hj

theorem Filed.add {part : Part} (h : t.Filed) (hu : Added t part u) : u.Filed := by
  cases hu with
  | network => exact h
  | interface => exact h.of_insert ⟨_, _, _, _, _⟩ rfl

theorem Filed.build {parts : List Part} (h : t.Filed) (hu : build parts t = .ok u) : u.Filed :=
  build_induction h (fun _ _ _ ht => ht.add) hu

/-- Every network lies behind an interface that is there. -/
def Grounded (t : Topology) : Prop := ∀ name n, t.networks.get? name = some n → t.interfaces.contains n.interface

theorem grounded_empty : Grounded {} := fun _ n h => nomatch (show none = some n from h)

theorem Grounded.add {part : Part} (h : t.Grounded) (hu : Added t part u) : u.Grounded := by
  cases hu with
  | network known => exact Table.forall_get?_insert h known
  | interface =>
    intro name n hn
    rw [Table.contains, Table.get?_insert]
    split
    case isTrue => rfl
    case isFalse => exact h name n hn

theorem Grounded.build {parts : List Part} (h : t.Grounded) (hu : build parts t = .ok u) : u.Grounded :=
  build_induction h (fun _ _ _ ht => ht.add) hu

end RouteProgramming.Topology
