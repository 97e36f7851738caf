import KeaDhcp.Infra.MultiIndex
import KeaDhcp.Dhcpsrv.Lease

/-!
# The memfile lease database

`src/lib/dhcpsrv/memfile_lease_storage.h` and the in-memory part of `memfile_lease_mgr.cc`.
Lookups return copies, as in the source. A call that throws `NoSuchLease` returns `none`.
-/

namespace Dhcp

open Infra MultiIndex Lease6 Lease4 List

variable {n : Nat}

section Limit

variable {α κ ι : Type} {S : IndexSpec α κ ι} {d : MultiIndex S} {i : ι} {p : α → Bool}

theorem upTo_sublist : List.Sublist
    (if n = 0 then (d.seq i).takeWhile p else ((d.seq i).takeWhile p).take n) (d.seq i) := by
  split
  · exact takeWhile_sublist _
  · exact (take_sublist _ _).trans (takeWhile_sublist _)

/-- The leases up to a limit are stored and meet the test. -/
theorem mem_upTo {l : α}
    (h : l ∈ if n = 0 then (d.seq i).takeWhile p else ((d.seq i).takeWhile p).take n) :
    l ∈ d ∧ p l := by
  refine ⟨mem_seq.mp (upTo_sublist.mem h), ?_⟩
  split at h
  · exact mem_takeWhile_imp h
  · exact mem_takeWhile_imp (mem_of_mem_take h)

end Limit

/--
The leases behind the lower bound, which is left out, up to the size of the page; `idx` is in the
order of the addresses.
-/
def leasePage {α : Type} {w : Nat} (addr : α → Address w) (lowerBound : Address w) (pageSize : Nat)
    (idx : List α) : List α :=
  let lb := idx.dropWhile fun l => addr l < lowerBound
  let lb := if lb.head?.any fun l => addr l = lowerBound then lb.tail else lb
  lb.take pageSize

/-! ## DHCPv4 -/

/-- The indexes of `Lease4Storage`. -/
inductive Lease4Index where
  | address | hwAddressSubnetId | clientIdSubnetId | clientIdHWAddressSubnetId
  | expiration | subnetId

def lease4Spec : IndexSpec Lease4 (Address 32) Lease4Index where
  main := .address
  key := fun l => l.addr
  cmp
    | .address => compareOn fun l => l.addr
    | .hwAddressSubnetId =>
      compareLex (compareOn fun l => l.getHWAddrVector) (compareOn fun l => l.subnetId)
    | .clientIdSubnetId =>
      compareLex (compareOn getClientIdVector) (compareOn fun l => l.subnetId)
    | .clientIdHWAddressSubnetId =>
      compareLex (compareOn getClientIdVector)
        (compareLex (compareOn fun l => l.getHWAddrVector) (compareOn fun l => l.subnetId))
    | .expiration =>
      compareLex (compareOn fun l => l.stateExpiredReclaimed) (compareOn fun l => l.getExpirationTime)
    | .subnetId => compareOn fun l => l.subnetId
  trans := by
    intro i
    cases i <;> infer_instance

variable {l : Lease4}

@[simp] theorem lease4Spec_key : lease4Spec.key l = l.addr := rfl

abbrev Lease4Storage := MultiIndex lease4Spec

variable {now : Time}

namespace Lease4Storage

def getLease4 (db : Lease4Storage) (addr : Address 32) : Option Lease4 := db.find addr

/-- `getLease4(client_id)`. -/
def getLease4ByClientId (db : Lease4Storage) (clientId : ClientId) : List Lease4 :=
  (db.seq .clientIdSubnetId).filter fun l => l.getClientIdVector = clientId.clientid

/-- `getLease4(hwaddr)`: the hardware type is not part of the index. -/
def getLease4ByHWAddr (db : Lease4Storage) (hwaddr : HWAddr) : List Lease4 :=
  (db.seq .hwAddressSubnetId).filter fun l => l.getHWAddrVector = hwaddr.hwaddr

/-- `getLeases4(lower_bound_address, page_size)`. -/
def getLeases4From (db : Lease4Storage) (lowerBound : Address 32) (pageSize : Nat) : List Lease4 :=
  leasePage (·.addr) lowerBound pageSize (db.seq .address)

/-- `addLease`: refused when the address has a lease. -/
def addLease (db : Lease4Storage) (l : Lease4) : Bool × Lease4Storage :=
  if (db.getLease4 l.addr).isSome then (false, db) else (true, db.insert l)

/-- `updateLease4`: throws when the address has no lease. -/
def updateLease4 (db : Lease4Storage) (l : Lease4) : Option Lease4Storage :=
  if (db.getLease4 l.addr).isSome then some (db.replace l) else none

def deleteLease (db : Lease4Storage) (addr : Address 32) : Bool × Lease4Storage :=
  ((db.getLease4 addr).isSome, db.erase addr)

/-- `getExpiredLeases4`: up to `maxLeases` leases that are due, all of them for `0`. -/
def getExpiredLeases4 (db : Lease4Storage) (now : Time) (maxLeases : Nat) : List Lease4 :=
  -- Everything in front of the upper bound of `(false, now)`.
  let due := (db.seq .expiration).takeWhile fun l =>
    !l.stateExpiredReclaimed && decide (l.getExpirationTime ≤ now)
  if maxLeases = 0 then due else due.take maxLeases

/-- `deleteExpiredReclaimedLeases4`: removes reclaimed leases that expired `secs` ago. -/
def deleteExpiredReclaimedLeases4 (db : Lease4Storage) (now : Time) (secs : Nat) : Lease4Storage :=
  db.filter fun l => !(l.stateExpiredReclaimed && decide (l.getExpirationTime ≤ now - secs))

variable {db : Lease4Storage} {addr : Address 32}

theorem getLease4_eq_some : db.getLease4 addr = some l ↔ l ∈ db ∧ l.addr = addr :=
  find_eq_some_iff

theorem getLease4_of_mem (h : l ∈ db) : db.getLease4 l.addr = some l :=
  getLease4_eq_some.mpr ⟨h, rfl⟩

theorem mem_of_getLease4 (h : db.getLease4 addr = some l) : l ∈ db ∧ l.addr = addr :=
  getLease4_eq_some.mp h

theorem mem_getLease4ByClientId {c : ClientId} :
    l ∈ db.getLease4ByClientId c ↔ l ∈ db ∧ l.clientId = some c := by
  rw [getLease4ByClientId, List.mem_filter, mem_seq, decide_eq_true_eq]
  refine and_congr_right fun _ => ⟨clientId_of_vector, fun h => ?_⟩
  simp [getClientIdVector, h]

theorem mem_of_getLease4ByHWAddr {hw : HWAddr} (h : l ∈ db.getLease4ByHWAddr hw) : l ∈ db :=
  mem_seq.mp (mem_of_mem_filter h)

theorem mem_getExpiredLeases4 (h : l ∈ db.getExpiredLeases4 now n) :
    l ∈ db ∧ l.state ≠ .expiredReclaimed ∧ l.getExpirationTime ≤ now := by
  obtain ⟨hmem, hdue⟩ := mem_upTo h
  exact ⟨hmem, by simpa [Lease.stateExpiredReclaimed] using hdue⟩

/-- No address is reclaimed twice. -/
theorem getExpiredLeases4_nodup : ((db.getExpiredLeases4 now n).map (·.addr)).Nodup :=
  nodup_of_sublist_seq (d := db) (i := .expiration) upTo_sublist

end Lease4Storage

/-! ## DHCPv6 -/

/-- The indexes of `Lease6Storage`. -/
inductive Lease6Index where
  | address | duidIaidType | expiration | subnetId | duid

def lease6Spec : IndexSpec Lease6 (Address 128) Lease6Index where
  main := .address
  key := fun l => l.addr
  cmp
    | .address => compareOn fun l => l.addr
    | .duidIaidType =>
      compareLex (compareOn getDuidVector)
        (compareLex (compareOn iaid) (compareOn fun l => l.type.toNat))
    | .expiration =>
      compareLex (compareOn fun l => l.stateExpiredReclaimed) (compareOn fun l => l.getExpirationTime)
    | .subnetId => compareOn fun l => l.subnetId
    | .duid => compareOn getDuidVector
  trans := by
    intro i
    cases i <;> infer_instance

@[simp] theorem lease6Spec_key {l : Lease6} : lease6Spec.key l = l.addr := rfl

abbrev Lease6Storage := MultiIndex lease6Spec

namespace Lease6Storage

/-- `getLease6(type, addr)`: the address index does not know types, the lookup checks it. -/
def getLease6 (db : Lease6Storage) (type : LeaseType) (addr : Address 128) : Option Lease6 :=
  (db.find addr).filter (·.type = type)

def getLeases6 (db : Lease6Storage) (type : LeaseType) (duid : DUID) (iaid : Nat) : List Lease6 :=
  (db.seq .duidIaidType).filter fun l =>
    l.getDuidVector = duid.duid && l.iaid = iaid && l.type = type

/-- `getLeases6(type, duid, iaid, subnet_id)`. -/
def getLeases6InSubnet (db : Lease6Storage) (type : LeaseType) (duid : DUID) (iaid : Nat)
    (subnet : SubnetID) : List Lease6 :=
  (db.getLeases6 type duid iaid).filter (·.subnetId = subnet)

/-- `getLeases6(lower_bound_address, page_size)`. -/
def getLeases6From (db : Lease6Storage) (lowerBound : Address 128) (pageSize : Nat) : List Lease6 :=
  leasePage (·.addr) lowerBound pageSize (db.seq .address)

/--
`addLease`: refused when the address has a lease of the same type. A lease of another type is
not noticed: the unique address index drops the new lease and the call reports success.
-/
def addLease (db : Lease6Storage) (l : Lease6) : Bool × Lease6Storage :=
  if (db.getLease6 l.type l.addr).isSome then (false, db) else (true, db.insert l)

/-- `updateLease6`: throws when the address has no lease; the type is not compared. -/
def updateLease6 (db : Lease6Storage) (l : Lease6) : Option Lease6Storage :=
  if (db.find l.addr).isSome then some (db.replace l) else none

def deleteLease (db : Lease6Storage) (addr : Address 128) : Bool × Lease6Storage :=
  ((db.find addr).isSome, db.erase addr)

/-- `getExpiredLeases6`: up to `maxLeases` leases that are due, all of them for `0`. -/
def getExpiredLeases6 (db : Lease6Storage) (now : Time) (maxLeases : Nat) : List Lease6 :=
  let due := (db.seq .expiration).takeWhile fun l =>
    !l.stateExpiredReclaimed && decide (l.getExpirationTime ≤ now)
  if maxLeases = 0 then due else due.take maxLeases

/-- `deleteExpiredReclaimedLeases6`: removes reclaimed leases that expired `secs` ago. -/
def deleteExpiredReclaimedLeases6 (db : Lease6Storage) (now : Time) (secs : Nat) : Lease6Storage :=
  db.filter fun l => !(l.stateExpiredReclaimed && decide (l.getExpirationTime ≤ now - secs))

variable {db : Lease6Storage} {type : LeaseType}

theorem getLease6_eq_some {addr : Address 128} {l : Lease6} :
    db.getLease6 type addr = some l ↔ l ∈ db ∧ l.addr = addr ∧ l.type = type := by
  rw [getLease6, Option.filter_eq_some_iff, find_eq_some_iff, lease6Spec_key,
    decide_eq_true_eq, and_assoc]

theorem mem_getLeases6 {d : DUID} {iaid : Nat} {l : Lease6} :
    l ∈ db.getLeases6 type d iaid ↔ l ∈ db ∧ l.duid = some d ∧ l.iaid = iaid ∧ l.type = type := by
  rw [getLeases6, List.mem_filter, mem_seq]
  simp only [Bool.and_eq_true, decide_eq_true_eq, and_assoc]
  refine and_congr_right fun _ => and_congr_left fun _ => ⟨duid_of_vector, fun h => ?_⟩
  simp [getDuidVector, h]

theorem mem_getExpiredLeases6 {l : Lease6} (h : l ∈ db.getExpiredLeases6 now n) :
    l ∈ db ∧ l.state ≠ .expiredReclaimed ∧ l.getExpirationTime ≤ now := by
  obtain ⟨hmem, hdue⟩ := mem_upTo h
  exact ⟨hmem, by simpa [Lease.stateExpiredReclaimed] using hdue⟩

theorem getExpiredLeases6_nodup : ((db.getExpiredLeases6 now n).map (·.addr)).Nodup :=
  nodup_of_sublist_seq (d := db) (i := .expiration) upTo_sublist

end Lease6Storage

end Dhcp
