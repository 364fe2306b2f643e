import RouteProgramming.Proofs.Address.Text
import RouteProgramming.Proofs.Table.Rows
import RouteProgramming.Wire.Message
import RouteProgramming.Wire.Profile
import RouteProgramming.Wire.Telemetry

/-! What is written as JSON is read back. Each type has its own small law, that
decoding undoes encoding, and a field that may be missing needs one law more:
no value of its type is written as null. -/

namespace RouteProgramming

open Text

/-! ### Laws -/

/-- Decoding undoes encoding. -/
class LawfulCodec (α : Type) [Codec α] : Prop where
  decode?_encode : ∀ a : α, decode? (encode a) = some a

/-- No value is written as null, so that null can stand for a missing one. -/
class NeverNull (α : Type) [Codec α] : Prop where
  encode_ne_null : ∀ a : α, encode a ≠ .null

export LawfulCodec (decode?_encode)

export NeverNull (encode_ne_null)

attribute [simp] LawfulCodec.decode?_encode

namespace Codec

variable {α : Type} [Codec α]

theorem natBelow?_int {bound n : Nat} (h : n < bound) : Json.natBelow? bound (.int n) = some n :=
  if_pos h

instance : LawfulCodec Bool := ⟨fun _ => rfl⟩

instance : LawfulCodec String := ⟨fun _ => rfl⟩

instance : LawfulCodec UInt64 where
  decode?_encode n := by
    change (Json.natBelow? _ (.int n.toNat)).map UInt64.ofNat = _
    rw [natBelow?_int n.toNat_lt, Option.map_some, UInt64.ofNat_toNat]

instance : LawfulCodec UInt32 where
  decode?_encode n := by
    change (Json.natBelow? _ (.int n.toNat)).map UInt32.ofNat = _
    rw [natBelow?_int n.toNat_lt, Option.map_some, UInt32.ofNat_toNat]

instance : LawfulCodec Int64 where
  decode?_encode n := by
    change (if -9223372036854775808 ≤ n.toInt ∧ n.toInt < 9223372036854775808 then some (Int64.ofInt n.toInt)
      else none) = _
    rw [if_pos ⟨n.le_toInt, n.toInt_lt⟩, Int64.ofInt_toInt]

instance : NeverNull String := ⟨nofun⟩

theorem decode?_encode_list {xs : List α} (h : ∀ x ∈ xs, decode? (encode x) = some x) :
    decode? (encode xs) = some xs := by
  change (xs.map encode).mapM decode? = some xs
  induction xs with
  | nil => rfl
  | cons x xs ih =>
    have hx := h x (.head _)
    have hxs := ih fun y hy => h y (.tail _ hy)
    simp [hx, hxs]

variable [LawfulCodec α]

instance : LawfulCodec (List α) := ⟨fun _ => decode?_encode_list fun x _ => decode?_encode x⟩

@[simp]
theorem required_encode (a : α) : required (some (encode a)) = some a :=
  decode?_encode a

variable [NeverNull α]

@[simp]
theorem nullable_encode (o : Option α) : nullable (some (encode o)) = some o := by
  cases o with
  | none => rfl
  | some a =>
    change nullable (some (encode a)) = some (some a)
    rw [nullable]
    · rw [decode?_encode, Option.map_some]
    · exact fun h => encode_ne_null a h

end Codec

namespace Wire

open Codec

/-! ### Addresses and entries -/

instance : LawfulCodec Address where
  decode?_encode a := congrArg Except.toOption a.parse_text

instance : NeverNull Address := ⟨nofun⟩

instance : LawfulCodec Cidr where
  decode?_encode c := congrArg Except.toOption c.parse_text

instance : LawfulCodec EntryKey where
  decode?_encode k := by
    cases k with
    | nextHop index => exact congrArg (Option.map EntryKey.nextHop) (decode?_encode index)
    | nextHopGroup id => exact congrArg (Option.map EntryKey.nextHopGroup) (decode?_encode id)
    | ipv4 destination => exact congrArg (Option.map EntryKey.ipv4) (decode?_encode destination)

instance : LawfulCodec NextHop where
  decode?_encode e := by
    change (do return (⟨← required (some (encode e.index)), ← nullable (some (encode e.address)),
      ← nullable (some (encode e.interface))⟩ : NextHop)) = some e
    simp

/-- The members of a group are written under the decimal forms of their indices. -/
theorem member?_encode (r : UInt64 × UInt64) : member? (Decimal.text r.1.toNat, encode r.2) = some r := by
  simp [member?, Decimal.text, Decimal.canonical?_render, r.1.toNat_lt]

theorem mapM_member? (rows : List (UInt64 × UInt64)) :
    (rows.map (fun r => (Decimal.text r.1.toNat, encode r.2))).mapM member? = some rows := by
  induction rows with
  | nil => rfl
  | cons r rows ih => simp [member?_encode, ih]

instance : LawfulCodec NextHopGroup where
  decode?_encode e := by
    change (do
      let id ← required (some (encode e.id))
      return (⟨id, Table.ofList (← (e.members.rows.map
        (fun r => (Decimal.text r.1.toNat, encode r.2))).mapM member?)⟩ : NextHopGroup)) = some e
    rw [mapM_member?]
    simp [Table.ofList_rows]

instance : LawfulCodec Ipv4Entry where
  decode?_encode e := by
    change (do return (⟨← required (some (encode e.destination)), ← required (some (encode e.group))⟩ :
      Ipv4Entry)) = some e
    simp

instance : LawfulCodec Entry where
  decode?_encode e := by
    cases e with
    | nextHop e => exact congrArg (Option.map Entry.nextHop) (decode?_encode e)
    | nextHopGroup e => exact congrArg (Option.map Entry.nextHopGroup) (decode?_encode e)
    | ipv4 e => exact congrArg (Option.map Entry.ipv4) (decode?_encode e)

/-! ### Choices without values -/

instance : LawfulCodec Redundancy := ⟨fun r => by cases r <;> rfl⟩

instance : LawfulCodec Persistence := ⟨fun p => by cases p <;> rfl⟩

instance : LawfulCodec AckType := ⟨fun a => by cases a <;> rfl⟩

instance : LawfulCodec OperationType := ⟨fun o => by cases o <;> rfl⟩

instance : LawfulCodec Outcome := ⟨fun o => by cases o <;> rfl⟩

instance : LawfulCodec FlushOutcome := ⟨fun o => by cases o <;> rfl⟩

/-! ### Messages -/

instance : LawfulCodec ElectionId where
  decode?_encode e := by
    change (do return (⟨← required (some (encode e.high)), ← required (some (encode e.low))⟩ : ElectionId)) = some e
    simp

instance : NeverNull ElectionId := ⟨nofun⟩

instance : LawfulCodec Parameters where
  decode?_encode p := by
    change (do return (⟨← required (some (encode p.redundancy)), ← required (some (encode p.persistence)),
      ← required (some (encode p.ackType))⟩ : Parameters)) = some p
    simp

instance : NeverNull Parameters := ⟨nofun⟩

instance : LawfulCodec Operation where
  decode?_encode o := by
    change (do return (⟨← required (some (encode o.id)), ← required (some (encode o.networkInstance)),
      ← required (some (encode o.op)), ← required (some (encode o.entry)),
      ← nullable (some (encode o.electionId))⟩ : Operation)) = some o
    simp

instance : LawfulCodec Acknowledgment where
  decode?_encode a := by
    change (do return (⟨← required (some (encode a.id)), ← required (some (encode a.op)),
      ← required (some (encode a.key)), ← required (some (encode a.outcome)),
      ← required (some (encode a.timestamp)), ← nullable (some (encode a.error))⟩ : Acknowledgment)) = some a
    simp

instance : LawfulCodec ParametersResult where
  decode?_encode r := by
    cases r with
    | ok => rfl
    | error reason => rfl

instance : NeverNull ParametersResult := ⟨fun r => by cases r <;> nofun⟩

instance : LawfulCodec ModifyRequest where
  decode?_encode r := by
    change (do return (⟨← nullable (some (encode r.params)), ← nullable (some (encode r.electionId)),
      ← required (some (encode r.operations))⟩ : ModifyRequest)) = some r
    simp

instance : LawfulCodec ModifyResponse where
  decode?_encode r := by
    change (do return (⟨← required (some (encode r.results)), ← nullable (some (encode r.electionId)),
      ← nullable (some (encode r.paramsResult)), ← nullable (some (encode r.error))⟩ : ModifyResponse)) = some r
    simp

instance : LawfulCodec FlushTarget where
  decode?_encode t := by
    cases t with
    | all => rfl
    | networkInstance name => rfl

instance : LawfulCodec FlushRequest where
  decode?_encode r := by
    change (do return (⟨← required (some (encode r.target)), ← required (some (encode r.electionOverride)),
      ← nullable (some (encode r.electionId))⟩ : FlushRequest)) = some r
    simp

instance : LawfulCodec FlushResponse where
  decode?_encode r := by
    change (do return (⟨← required (some (encode r.timestamp)), ← required (some (encode r.outcome))⟩ :
      FlushResponse)) = some r
    simp

/-! ### Profiles -/

instance : LawfulCodec FeatureId where
  decode?_encode i := by
    change (do return (⟨← required (some (encode i.name)), ← required (some (encode i.version))⟩ : FeatureId)) = some i
    simp

instance : LawfulCodec Profile where
  decode?_encode p := by
    change (do return (⟨← required (some (encode p.id)), ← required (some (encode p.configPaths)),
      ← required (some (encode p.telemetryPaths)), ← required (some (encode p.dependencies))⟩ : Profile)) = some p
    simp

/-! ### Telemetry -/

theorem deviceId_encode {n : Nat} (h : n < UInt64.size) : deviceId (some (encodeDeviceId n)) = some n :=
  natBelow?_int h

theorem decode?_encode_nextHopItem {i : Telemetry.NextHopItem} (h : i.id < UInt64.size) :
    decode? (encode i) = some i := by
  change (do return (⟨← deviceId (some (encodeDeviceId i.id)), ← required (some (encode i.programmedIndex)),
    ← nullable (some (encode i.address)), ← nullable (some (encode i.interface))⟩ : Telemetry.NextHopItem)) = some i
  simp [deviceId_encode h]

theorem decode?_encode_member {m : Telemetry.Member} (h : m.nextHop < UInt64.size) :
    decode? (encode m) = some m := by
  change (do return (⟨← deviceId (some (encodeDeviceId m.nextHop)), ← required (some (encode m.weight))⟩ :
    Telemetry.Member)) = some m
  simp [deviceId_encode h]

theorem decode?_encode_groupItem {g : Telemetry.GroupItem} (h : g.id < UInt64.size)
    (hm : ∀ m ∈ g.members, m.nextHop < UInt64.size) : decode? (encode g) = some g := by
  have hmembers : required (some (encode g.members)) = some g.members :=
    decode?_encode_list fun m hmem => decode?_encode_member (hm m hmem)
  change (do return (⟨← deviceId (some (encodeDeviceId g.id)), ← required (some (encode g.programmedId)),
    ← required (some (encode g.members))⟩ : Telemetry.GroupItem)) = some g
  simp [deviceId_encode h, hmembers]

theorem decode?_encode_ipv4Item {i : Telemetry.Ipv4Item} (h : i.group < UInt64.size) :
    decode? (encode i) = some i := by
  change (do return (⟨← required (some (encode i.destination)), ← deviceId (some (encodeDeviceId i.group))⟩ :
    Telemetry.Ipv4Item)) = some i
  simp [deviceId_encode h]

/-- The device's numbers are 64-bit words, as they are on the device itself. -/
structure FitsWords (t : Telemetry) : Prop where
  nextHops : ∀ i ∈ t.nextHops, i.id < UInt64.size
  groups : ∀ g ∈ t.groups, g.id < UInt64.size ∧ ∀ m ∈ g.members, m.nextHop < UInt64.size
  ipv4 : ∀ i ∈ t.ipv4, i.group < UInt64.size

theorem decode?_encode_telemetry {t : Telemetry} (h : FitsWords t) : decode? (encode t) = some t := by
  have hnextHops : required (some (encode t.nextHops)) = some t.nextHops :=
    decode?_encode_list fun i hi => decode?_encode_nextHopItem (h.nextHops i hi)
  have hgroups : required (some (encode t.groups)) = some t.groups :=
    decode?_encode_list fun g hg => decode?_encode_groupItem (h.groups g hg).1 (h.groups g hg).2
  have hipv4 : required (some (encode t.ipv4)) = some t.ipv4 :=
    decode?_encode_list fun i hi => decode?_encode_ipv4Item (h.ipv4 i hi)
  change (do return (⟨← required (some (encode t.networkInstance)), ← required (some (encode t.nextHops)),
    ← required (some (encode t.groups)), ← required (some (encode t.ipv4))⟩ : Telemetry)) = some t
  simp [hnextHops, hgroups, hipv4]

/-! ### All messages -/

/-- What the protocol sends is read back as it was, whatever strings, words, members and addresses it holds. -/
theorem messages_round_trip :
    (∀ e : Entry, decode? (encode e) = some e) ∧
    (∀ k : EntryKey, decode? (encode k) = some k) ∧
    (∀ o : Operation, decode? (encode o) = some o) ∧
    (∀ p : Parameters, decode? (encode p) = some p) ∧
    (∀ e : ElectionId, decode? (encode e) = some e) ∧
    (∀ r : ModifyRequest, decode? (encode r) = some r) ∧
    (∀ a : Acknowledgment, decode? (encode a) = some a) ∧
    (∀ r : ParametersResult, decode? (encode r) = some r) ∧
    (∀ r : ModifyResponse, decode? (encode r) = some r) ∧
    (∀ r : FlushRequest, decode? (encode r) = some r) ∧
    (∀ r : FlushResponse, decode? (encode r) = some r) ∧
    (∀ t : Telemetry, FitsWords t → decode? (encode t) = some t) ∧
    ∀ p : Profile, decode? (encode p) = some p :=
  ⟨decode?_encode, decode?_encode, decode?_encode, decode?_encode, decode?_encode, decode?_encode, decode?_encode,
    decode?_encode, decode?_encode, decode?_encode, decode?_encode, fun _ => decode?_encode_telemetry, decode?_encode⟩

/-- Telemetry with the greatest number there is, a next-hop behind a wrapped address and a prefix with host bits. -/
def crowded : Telemetry where
  networkInstance := "\"vrf\" 1"
  nextHops := [⟨18446744073709551615, 7, some (.v6 (.ofNat 281473902969345)), none⟩]
  groups := [⟨0, 10, [⟨18446744073709551615, 0⟩]⟩]
  ipv4 := [⟨⟨.v4 (.ofNat 3232235777), 16, by decide⟩, 0⟩]

theorem messages_round_trip_crowded : FitsWords crowded ∧ decode? (encode crowded) = some crowded := by
  have h : FitsWords crowded := by constructor <;> simp [crowded]
  obtain ⟨-, -, -, -, -, -, -, -, -, -, -, htelemetry, -⟩ := messages_round_trip
  exact ⟨h, htelemetry crowded h⟩

end Wire

end RouteProgramming
