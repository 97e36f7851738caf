import KeaDhcp.Dhcpsrv.LeaseMgr
import KeaDhcp.Dhcpsrv.Stats

/-!
# Recounting the lease statistics

`LeaseMgr::recountLeaseStats4` of `src/lib/dhcpsrv/lease_mgr.cc`, over the query of the memfile
backend, `MemfileLeaseStatsQuery4` of `memfile_lease_mgr.cc`, for all subnets.
-/

namespace Dhcp

open Infra

/-! ## The query -/

/-- `LeaseStatsRow`: the number of leases of a subnet in one state. -/
structure LeaseStatsRow where
  subnetId : SubnetID
  leaseState : LeaseState
  stateCount : Nat

/-- The variables of the loop in `MemfileLeaseStatsQuery4::start`, and the rows so far. -/
structure LeaseStatsQuery4 where
  curId : SubnetID
  assigned : Nat
  declined : Nat
  rows : List LeaseStatsRow

namespace LeaseStatsQuery4

variable (q : LeaseStatsQuery4)

/-- Adds the rows of the current subnet. -/
def addRows : LeaseStatsQuery4 :=
  { q with
    rows := q.rows
      ++ (if q.assigned > 0 then [⟨q.curId, .default, q.assigned⟩] else [])
      ++ (if q.declined > 0 then [⟨q.curId, .declined, q.declined⟩] else [])
    assigned := 0
    declined := 0 }

/-- Moves on to the subnet of the next lease. -/
def moveTo (id : SubnetID) : LeaseStatsQuery4 :=
  if id ≠ q.curId then
    -- Subnet 0 stands for the time before the first lease.
    { (if q.curId > 0 then q.addRows else q) with curId := id }
  else q

/-- Counts a lease of the current subnet. -/
def bump (q : LeaseStatsQuery4) : LeaseState → LeaseStatsQuery4
  | .default => { q with assigned := q.assigned + 1 }
  | .declined => { q with declined := q.declined + 1 }
  | .expiredReclaimed => q

/-- One pass of the loop. -/
def next (l : Lease4) : LeaseStatsQuery4 := (q.moveTo l.subnetId).bump l.state

/-- `MemfileLeaseStatsQuery4::start` for all subnets. -/
def start (db : Lease4Storage) : List LeaseStatsRow :=
  ((db.seq .subnetId).foldl next { curId := 0, assigned := 0, declined := 0, rows := [] }).addRows.rows

end LeaseStatsQuery4

/-! ## The recount -/

/-- What the recount does with a row. -/
def countRow (stats : Stats) (row : LeaseStatsRow) : Stats :=
  match row.leaseState with
  | .default => stats.setValue (.subnet row.subnetId .assignedAddresses) row.stateCount
  | .declined =>
    (stats.setValue (.subnet row.subnetId .declinedAddresses) row.stateCount).addValue
      (.global .declinedAddresses) row.stateCount
  | .expiredReclaimed => stats

/-- Zeroes the statistics of a subnet. -/
def clearSubnetStats (stats : Stats) (id : SubnetID) : Stats :=
  (((stats.setValue (.subnet id .assignedAddresses) 0).setValue
    (.subnet id .declinedAddresses) 0).setValue
    (.subnet id .reclaimedDeclinedAddresses) 0).setValue (.subnet id .reclaimedLeases) 0

/-- Zeroes the global statistics and those of the configured subnets. -/
def clearStats (subnets : List SubnetID) (stats : Stats) : Stats :=
  subnets.foldl clearSubnetStats
    (((stats.setValue (.global .declinedAddresses) 0).setValue
      (.global .reclaimedDeclinedAddresses) 0).setValue (.global .reclaimedLeases) 0)

/-- `recountLeaseStats4` with the given subnets in the configuration. -/
def recountLeaseStats4 (subnets : List SubnetID) (db : Lease4Storage) (stats : Stats) : Stats :=
  (LeaseStatsQuery4.start db).foldl countRow (clearStats subnets stats)

end Dhcp
