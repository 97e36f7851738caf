import KeaDhcp.Dhcpsrv.LeaseElement
import KeaDhcp.Dhcpsrv.LeaseFile

/-!
# Synchronization of the leases

The loop of `HAService::asyncSyncLeases` in `src/hooks/dhcp/high_availability/ha_service.cc` over
the leases in the partner's answer to `lease4-get-all`. A lease that causes an exception is reported
and skipped.
-/

namespace Dhcp

open Data Infra Memfile4

/-! ## The leases that are handed to the lease manager -/

/-- `fromElementCommon` refuses other numbers. -/
def LeaseState.ofUInt32 (state : UInt32) : LeaseState :=
  if state = 0 then .default else if state = STATE_DECLINED then .declined else .expiredReclaimed

variable {Context : Type} (A : IOAddressText)

/-- The members that the lease manager works on; the user context goes with them. -/
def StoredLease.toLease {w : Nat} (l : StoredLease w Context) : Lease w where
  addr := l.addr
  t1 := l.t1.toNat
  t2 := l.t2.toNat
  validLft := l.validLft.toNat
  cltt := l.cltt
  subnetId := l.subnetId.toNat
  hostname := String.ofList l.hostname
  fqdnFwd := l.fqdnFwd
  fqdnRev := l.fqdnRev
  hwaddr := l.hwaddr
  state := .ofUInt32 l.state

def StoredLease4.toLease4 (l : StoredLease4 Context) : Lease4 :=
  { l.toLease with clientId := l.clientId }

/-! ## The loop -/

/-- One round: what the lookup finds decides between adding, updating and skipping. -/
def syncLease {α κ ι : Type} {S : IndexSpec α κ ι} (fetched : Except BadValue α)
    (lookup : MultiIndex S → α → Option α) (cltt : α → Time) (addLease : α → MemfileM S Bool)
    (updateLease : α → MemfileM S Unit) : MemfileM S Unit :=
  tryCatch
    (do
      match fetched with
      | .error _ => throw .badValue
      | .ok lease =>
        match lookup (← get).storage lease with
        | none => discard (addLease lease)
        | some existing =>
          -- HA_LEASE_SYNC_STALE_LEASE4_SKIP otherwise
          if cltt existing < cltt lease then updateLease lease else pure ())
    fun _ => pure ()

def syncLease4 (element : Element) : MemfileM lease4Spec Unit :=
  syncLease ((StoredLease4.fromElement A element).map StoredLease4.toLease4)
    (fun storage lease => Lease4Storage.getLease4 storage lease.addr) (fun lease => lease.cltt)
    addLease updateLease4

def asyncSyncLeases4 (leases : List Element) : MemfileM lease4Spec Unit :=
  leases.forM (syncLease4 A)

end Dhcp
