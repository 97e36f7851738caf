import Mathlib.Algebra.Ring.Nat

/-!
# Leases

`src/lib/dhcpsrv/lease.h` and `lease.cc`, with the identifiers of `src/lib/dhcp` that a lease
carries. Addresses are bit vectors: 32 bits for DHCPv4, 128 bits for DHCPv6. A null pointer
of the source is `none`. Clock readings are arguments.
-/

namespace Dhcp

abbrev SubnetID := Nat

/-- `time_t` and the clock readings compared with it. -/
abbrev Time := Int

abbrev Address (w : Nat) := BitVec w

/-- An address of either family. -/
inductive IOAddress where
  | v4 (addr : Address 32)
  | v6 (addr : Address 128)
  deriving DecidableEq

/-! ## Client identifiers -/

structure HWAddr where
  htype : Nat
  hwaddr : List UInt8
  deriving DecidableEq

/-- `HWAddr()`: no bytes, Ethernet. -/
def HWAddr.empty : HWAddr := { htype := 1, hwaddr := [] }

/-- The constructor of `ClientId` rejects identifiers shorter than `MIN_CLIENT_ID_LEN`. -/
@[ext] structure ClientId where
  clientid : List UInt8
  min_len : 2 ≤ clientid.length
  deriving DecidableEq

/-- The constructor of `DUID` rejects identifiers shorter than `MIN_DUID_LEN`. -/
@[ext] structure DUID where
  duid : List UInt8
  min_len : 1 ≤ duid.length
  deriving DecidableEq

/-- `DUID::EMPTY()`, one zero byte. -/
def DUID.empty : DUID := { duid := [0], min_len := by decide }

/-! ## Lease records -/

/-- `Lease::Type`. -/
inductive LeaseType where
  | na | ta | pd | v4
  deriving DecidableEq

/-- The numeric value, by which the lease indexes order types. -/
def LeaseType.toNat : LeaseType → Nat
  | .na => 0
  | .ta => 1
  | .pd => 2
  | .v4 => 3

/-- The values of `Lease::state_`. -/
inductive LeaseState where
  | default | declined | expiredReclaimed
  deriving DecidableEq

structure Lease (w : Nat) where
  addr : Address w
  t1 : Nat
  t2 : Nat
  validLft : Nat
  cltt : Time
  subnetId : SubnetID
  hostname : String
  fqdnFwd : Bool
  fqdnRev : Bool
  hwaddr : Option HWAddr
  state : LeaseState
  deriving DecidableEq

structure Lease4 extends Lease 32 where
  clientId : Option ClientId
  deriving DecidableEq

structure Lease6 extends Lease 128 where
  type : LeaseType
  prefixlen : Nat
  iaid : Nat
  duid : Option DUID
  preferredLft : Nat
  deriving DecidableEq

namespace Lease

variable {w : Nat} (l : Lease w)

def getExpirationTime : Time := l.cltt + l.validLft

/-- `Lease::expired()` with the clock at `now`. -/
def expired (now : Time) (l : Lease w) : Bool := l.getExpirationTime < now

def stateExpiredReclaimed : Bool := l.state = .expiredReclaimed

def stateDeclined : Bool := l.state = .declined

def hasIdenticalFqdn (other : Lease w) : Bool :=
  l.hostname == other.hostname && l.fqdnFwd == other.fqdnFwd && l.fqdnRev == other.fqdnRev

def getHWAddrVector : List UInt8 := (l.hwaddr.map HWAddr.hwaddr).getD []

end Lease

/-- `equalValues`: both pointers are set and the values agree. -/
def equalValues {α : Type} [DecidableEq α] : Option α → Option α → Bool
  | some a, some b => a = b
  | _, _ => false

namespace Lease4

variable (l : Lease4) (now : Time) (p : Nat)

def getClientIdVector : List UInt8 := (l.clientId.map ClientId.clientid).getD []

def belongsToClient (hwAddress : Option HWAddr) (clientId : Option ClientId) : Bool :=
  if equalValues clientId l.clientId then true
  else if clientId.isNone || l.clientId.isNone then
    -- Without a client identifier on one of the sides the hardware address decides.
    equalValues hwAddress l.hwaddr
  else false

/-- `Lease4::decline` with the clock at `now`. -/
def decline (probationPeriod : Nat) : Lease4 :=
  { l with
    hwaddr := some HWAddr.empty
    clientId := none
    t1 := 0
    t2 := 0
    cltt := now
    hostname := ""
    fqdnFwd := false
    fqdnRev := false
    state := .declined
    validLft := probationPeriod }

@[simp] theorem decline_subnetId : (l.decline now p).subnetId = l.subnetId := rfl

theorem clientId_of_vector {l : Lease4} {c : ClientId} (h : l.getClientIdVector = c.clientid) :
    l.clientId = some c := by
  obtain ⟨bytes, hlen⟩ := c
  cases hc : l.clientId with
  | none =>
    simp only [getClientIdVector, hc, Option.map_none] at h
    simp [← h] at hlen
  | some d => simpa [getClientIdVector, hc, ClientId.ext_iff] using h

end Lease4

namespace Lease6

def getDuidVector (l : Lease6) : List UInt8 := (l.duid.map DUID.duid).getD []

/-- `Lease6::decline` with the clock at `now`. -/
def decline (l : Lease6) (now : Time) (probationPeriod : Nat) : Lease6 :=
  { l with
    hwaddr := none
    duid := some DUID.empty
    t1 := 0
    t2 := 0
    preferredLft := 0
    validLft := probationPeriod
    cltt := now
    hostname := ""
    fqdnFwd := false
    fqdnRev := false
    state := .declined }

theorem duid_of_vector {l : Lease6} {d : DUID} (h : l.getDuidVector = d.duid) :
    l.duid = some d := by
  obtain ⟨bytes, hlen⟩ := d
  cases hd : l.duid with
  | none =>
    simp only [getDuidVector, hd, Option.map_none] at h
    simp [← h] at hlen
  | some e => simpa [getDuidVector, hd, DUID.ext_iff] using h

end Lease6

end Dhcp
