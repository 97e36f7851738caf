import KeaDhcp.Dhcpsrv.Lease
import KeaDhcp.Util.CsvFile

/-!
# Leases in CSV files

`append` and `next` of `src/lib/dhcpsrv/csv_lease_file4.cc` and `csv_lease_file6.cc`, for a file that has
the columns of the current schema. `VersionedCSVFile::next` compares the number of values in a row
with the number of columns, but its result is not looked at. A function that throws gives `none`.

The texts of addresses and of user contexts are arguments.
-/

namespace Dhcp

open Util HWAddr

/-! ## Texts of the fields -/

/-- `HWAddr::toText(false)`: the type of the hardware is left out. -/
def HWAddr.toText (h : HWAddr) : Text := bytesText h.hwaddr

def HWAddr.MAX_HWADDR_LEN : Nat := 20

/-- `HWAddr::fromText` with `HTYPE_ETHER`. -/
def HWAddr.fromText (t : Text) : Option HWAddr := do
  let binary ← decodeColonSeparatedHexString t
  if binary.length > MAX_HWADDR_LEN then none else some { htype := 1, hwaddr := binary }

def DUID.toText (d : DUID) : Text := bytesText d.duid

def DUID.MAX_DUID_LEN : Nat := 128

def DUID.fromText (t : Text) : Option DUID := do
  let binary ← decodeFormattedHexString t
  if h : 1 ≤ binary.length ∧ binary.length ≤ MAX_DUID_LEN then
    some { duid := binary, min_len := h.1 }
  else none

def ClientId.toText (c : ClientId) : Text := bytesText c.clientid

def ClientId.fromText (t : Text) : Option ClientId := do
  let binary ← decodeFormattedHexString t
  if h : 2 ≤ binary.length ∧ binary.length ≤ DUID.MAX_DUID_LEN then
    some { clientid := binary, min_len := h.1 }
  else none

/-- The text form of `IOAddress`. -/
structure AddressText (w : Nat) where
  toText : Address w → Text
  fromText : Text → Option (Address w)
  plain : ∀ a, Plain (toText a)
  fromText_toText : ∀ a, fromText (toText a) = some a

/-- The JSON form of the maps that are user contexts. -/
structure ContextText (Context : Type) where
  str : Context → Text
  /-- `Element::fromJSON`, and that the element is a map. -/
  fromJSON : Text → Option Context
  str_ne_nil : ∀ c, str c ≠ []
  /-- A line break in a string is printed with a backslash. -/
  newline_not_mem : ∀ c, '\n' ∉ str c
  fromJSON_str : ∀ c, fromJSON (str c) = some c
  /-- A map is closed by the last character of its text. -/
  fromJSON_cut : ∀ c t, t <+: str c → t ≠ str c → fromJSON t = none

def LeaseType.ofInt : Int → Option LeaseType
  | 0 => some .na
  | 1 => some .ta
  | 2 => some .pd
  | 3 => some .v4
  | _ => none

/-! ## Leases with the widths of their fields -/

/-- `Lease`, with the user context of the base class `UserContext`. -/
structure StoredLease (w : Nat) (Context : Type) where
  addr : Address w
  t1 : UInt32
  t2 : UInt32
  validLft : UInt32
  cltt : Time
  subnetId : UInt32
  hostname : Text
  fqdnFwd : Bool
  fqdnRev : Bool
  hwaddr : Option HWAddr
  state : UInt32
  context : Option Context

structure StoredLease4 (Context : Type) extends StoredLease 32 Context where
  clientId : Option ClientId

/-- A DHCPv6 lease always has a DUID. -/
structure StoredLease6 (Context : Type) extends StoredLease 128 Context where
  type : LeaseType
  prefixlen : UInt8
  iaid : UInt32
  duid : DUID
  preferredLft : UInt32

/-- `Lease::STATE_DECLINED`. -/
def STATE_DECLINED : UInt32 := 1

/-- The number that is written into the column `expire`. -/
def StoredLease.expire {w : Nat} {Context : Type} (l : StoredLease w Context) : Time :=
  l.cltt + l.validLft.toNat

/-- `readContext`, on the text in its column. -/
def readContext {Context : Type} (J : ContextText Context) (t : Text) : Option (Option Context) :=
  if t = [] then some none else (J.fromJSON t).map some

/-- `readCltt`, a subtraction of 32 bits. -/
def readCltt (expire validLft : Text) : Option Time := do
  return (((← Util.readUint32 expire) - (← Util.readUint32 validLft)).toNat : Int)

/-! ## DHCPv4 -/

namespace CSVLeaseFile4

variable {Context : Type} (A : AddressText 32) (J : ContextText Context)

/-- The columns, in the order of `initColumns`. -/
inductive Column where
  | address | hwaddr | clientId | validLifetime | expire | subnetId | fqdnFwd | fqdnRev | hostname
  | state | userContext

def readAt (row : List Text) (column : Column) : Option Text := row[column.ctorIdx]?

/-- The row for a lease; numbers are not written as strings. -/
def values (lease : StoredLease4 Context) (hwaddr : HWAddr) : List Text :=
  [writeAt (A.toText lease.addr), writeAt hwaddr.toText,
    writeAt ((lease.clientId.map ClientId.toText).getD []),
    natText lease.validLft.toNat, intText lease.expire, natText lease.subnetId.toNat,
    boolText lease.fqdnFwd, boolText lease.fqdnRev, writeAt lease.hostname,
    natText lease.state.toNat, writeAt ((lease.context.map J.str).getD [])]

/-- The line that `append` writes. -/
def append (lease : StoredLease4 Context) : Option Text := do
  -- "Lease4 must have hardware address specified."
  let hwaddr ← lease.hwaddr
  return appendLine (render (values A J lease hwaddr))

def readClientId (t : Text) : Option (Option ClientId) :=
  if t = [] then some none else (ClientId.fromText t).map some

/-- The lease that `next` makes of a row. -/
def readLease (row : List Text) : Option (StoredLease4 Context) := do
  let clientId ← readClientId (← readAt row .clientId)
  let hwaddr ← fromText (← readAt row .hwaddr)
  let state ← Util.readUint32 (← readAt row .state)
  -- "A blank hardware address is only valid for declined leases"
  guard (hwaddr.hwaddr = [] → state = STATE_DECLINED)
  let context ← readContext J (← readAt row .userContext)
  let addr ← A.fromText (← readAt row .address)
  let validLft ← Util.readUint32 (← readAt row .validLifetime)
  let cltt ← readCltt (← readAt row .expire) (← readAt row .validLifetime)
  let subnetId ← Util.readUint32 (← readAt row .subnetId)
  let fqdnFwd ← readBool (← readAt row .fqdnFwd)
  let fqdnRev ← readBool (← readAt row .fqdnRev)
  let hostname ← readAt row .hostname
  return { addr, t1 := 0, t2 := 0, validLft, cltt, subnetId, hostname, fqdnFwd, fqdnRev,
           hwaddr := some hwaddr, state, context, clientId }

/-- `next`: an error, the end of the file (no lease), or a lease. -/
def next (file : Text) : Option (Option (StoredLease4 Context)) :=
  if '\n' ∈ file then (readLease A J (parse (getline file))).map some else some none

end CSVLeaseFile4

/-! ## DHCPv6 -/

namespace CSVLeaseFile6

variable {Context : Type} (A : AddressText 128) (J : ContextText Context)

inductive Column where
  | address | duid | validLifetime | expire | subnetId | prefLifetime | leaseType | iaid | prefixLen
  | fqdnFwd | fqdnRev | hostname | hwaddr | state | userContext

def readAt (row : List Text) (column : Column) : Option Text := row[column.ctorIdx]?

def values (lease : StoredLease6 Context) : List Text :=
  [writeAt (A.toText lease.addr), writeAt lease.duid.toText, natText lease.validLft.toNat,
    intText lease.expire, natText lease.subnetId.toNat, natText lease.preferredLft.toNat,
    natText lease.type.toNat, natText lease.iaid.toNat, natText lease.prefixlen.toNat,
    boolText lease.fqdnFwd, boolText lease.fqdnRev, writeAt lease.hostname,
    writeAt ((lease.hwaddr.map toText).getD []), natText lease.state.toNat,
    writeAt ((lease.context.map J.str).getD [])]

def append (lease : StoredLease6 Context) : Text := appendLine (render (values A J lease))

/-- `readHWAddr`: what is not the text of a hardware address is ignored, and so is an empty one. -/
def readHWAddr (t : Option Text) : Option HWAddr :=
  (t.bind fromText).filter fun hwaddr => hwaddr.hwaddr ≠ []

def readLease (row : List Text) : Option (StoredLease6 Context) := do
  let type ← LeaseType.ofInt (← readInt (← readAt row .leaseType))
  let addr ← A.fromText (← readAt row .address)
  let duid ← DUID.fromText (← readAt row .duid)
  let iaid ← Util.readUint32 (← readAt row .iaid)
  let preferredLft ← Util.readUint32 (← readAt row .prefLifetime)
  let validLft ← Util.readUint32 (← readAt row .validLifetime)
  let subnetId ← Util.readUint32 (← readAt row .subnetId)
  let prefixlen ← readInt (← readAt row .prefixLen)
  let cltt ← readCltt (← readAt row .expire) (← readAt row .validLifetime)
  let fqdnFwd ← readBool (← readAt row .fqdnFwd)
  let fqdnRev ← readBool (← readAt row .fqdnRev)
  let hostname ← readAt row .hostname
  let state ← Util.readUint32 (← readAt row .state)
  -- "The Empty DUID is only valid for declined leases"
  guard (duid = DUID.empty → state = STATE_DECLINED)
  let context ← readContext J (← readAt row .userContext)
  return { addr, t1 := 0, t2 := 0, validLft, cltt, subnetId, hostname, fqdnFwd, fqdnRev,
           hwaddr := readHWAddr (readAt row .hwaddr), state, context, type,
           prefixlen := UInt8.ofInt prefixlen, iaid, duid, preferredLft }

def next (file : Text) : Option (Option (StoredLease6 Context)) :=
  if '\n' ∈ file then (readLease A J (parse (getline file))).map some else some none

end CSVLeaseFile6

end Dhcp
