import RouteProgramming.Codec
import RouteProgramming.Entry

/-!
JSON form of addresses and entries. Addresses and prefixes are their text, keys and entries name
their kind, and the members of a group are an object from index to weight.
-/

namespace RouteProgramming.Wire

open Codec

instance : Codec Ipv4 where
  encode a := .str a.text
  decode?
    | .str s => (Ipv4.parse s).toOption
    | _ => none

instance : Codec Ipv6 where
  encode a := .str a.text
  decode?
    | .str s => (Ipv6.parse s).toOption
    | _ => none

instance : Codec Address where
  encode a := .str a.text
  decode?
    | .str s => (Address.parse s).toOption
    | _ => none

instance : Codec Cidr where
  encode c := .str c.text
  decode?
    | .str s => (Cidr.parse s).toOption
    | _ => none

def entryKinds : List (String × EntryKind) :=
  [("next_hop", .nextHop), ("next_hop_group", .nextHopGroup), ("ipv4", .ipv4)]

instance : Codec EntryKind where
  encode
    | .nextHop => .str "next_hop"
    | .nextHopGroup => .str "next_hop_group"
    | .ipv4 => .str "ipv4"
  decode? := Json.choice? entryKinds

instance : Codec EntryKey where
  encode
    | .nextHop index => .obj [("next_hop", encode index)]
    | .nextHopGroup id => .obj [("next_hop_group", encode id)]
    | .ipv4 destination => .obj [("ipv4", encode destination)]
  decode? j := do
    let (kind, value) ← j.variant?
    match ← entryKinds.lookup kind with
    | .nextHop => (decode? value).map .nextHop
    | .nextHopGroup => (decode? value).map .nextHopGroup
    | .ipv4 => (decode? value).map .ipv4

instance : Codec NextHop where
  encode e := .obj [
    ("index", encode e.index),
    ("ip_address", encode e.address),
    ("interface", encode e.interface)]
  decode? j := do
    let [index, address, interface] ← j.record? ["index", "ip_address", "interface"] | none
    return ⟨← required index, ← nullable address, ← nullable interface⟩

/-- A member of a group, its index written as a canonical decimal field name. -/
def member? (field : String × Json) : Option (UInt64 × UInt64) := do
  let index ← Text.Decimal.canonical? field.1.toList
  if index < 18446744073709551616 then return (UInt64.ofNat index, ← decode? field.2) else none

instance : Codec NextHopGroup where
  encode e := .obj [
    ("id", encode e.id),
    ("next_hops", .obj (e.members.rows.map (fun r => (Text.Decimal.text r.1.toNat, encode r.2))))]
  decode? j := do
    let [id, members] ← j.record? ["id", "next_hops"] | none
    let id ← required id
    match ← members with
    | .obj fields => return ⟨id, Table.ofList (← fields.mapM member?)⟩
    | _ => none

instance : Codec Ipv4Entry where
  encode e := .obj [("prefix", encode e.destination), ("next_hop_group", encode e.group)]
  decode? j := do
    let [destination, group] ← j.record? ["prefix", "next_hop_group"] | none
    return ⟨← required destination, ← required group⟩

instance : Codec Entry where
  encode
    | .nextHop e => .obj [("next_hop", encode e)]
    | .nextHopGroup e => .obj [("next_hop_group", encode e)]
    | .ipv4 e => .obj [("ipv4", encode e)]
  decode? j := do
    let (kind, value) ← j.variant?
    match ← entryKinds.lookup kind with
    | .nextHop => (decode? value).map .nextHop
    | .nextHopGroup => (decode? value).map .nextHopGroup
    | .ipv4 => (decode? value).map .ipv4

end RouteProgramming.Wire
