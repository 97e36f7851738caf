import KeaDhcp.Dhcpsrv.D2ClientMgr

/-!
# Lease statistics and name change requests

The part of `src/lib/stats/stats_mgr.h` that the lease code uses,
and `src/lib/dhcpsrv/ncr_generator.cc`. A statistic that was never touched reads as zero, which is
the value `addValue` starts from.
-/

namespace Dhcp

/-! ## Statistics -/

/-- The names of the lease statistics. -/
inductive StatName where
  | assignedAddresses | assignedNas | assignedPds
  | declinedAddresses | reclaimedDeclinedAddresses | reclaimedLeases
  deriving DecidableEq

/-- A global statistic, or `subnet[id].name`. -/
inductive StatKey where
  | global (name : StatName)
  | subnet (id : SubnetID) (name : StatName)
  deriving DecidableEq

abbrev Stats := StatKey → Int

namespace Stats

variable (s : Stats) (k : StatKey) (v : Int)

def addValue : Stats := fun k' => if k' = k then s k + v else s k'

def setValue : Stats := fun k' => if k' = k then v else s k'

theorem addValue_apply {k' : StatKey} {v : Int} :
    s.addValue k v k' = s k' + if k' = k then v else 0 := by
  unfold addValue
  split
  · rename_i h
    rw [h]
  · exact (Int.add_zero _).symm

@[simp] theorem addValue_self : s.addValue k v k = s k + v := by
  simp [addValue]

@[simp] theorem addValue_ne {k k' : StatKey} (h : k' ≠ k) : s.addValue k v k' = s k' := by
  simp [addValue, h]

end Stats

/-! ## Name change requests -/

inductive NameChangeType where
  | add | remove
  deriving DecidableEq

/-- The client data that the DHCID of a request is computed from. -/
inductive DhcidSource where
  | clientId (id : ClientId)
  | hwaddr (hw : HWAddr)
  | duid (d : DUID)
  deriving DecidableEq

structure NameChangeRequest (w : Nat) where
  changeType : NameChangeType
  forwardChange : Bool
  reverseChange : Bool
  fqdn : String
  ipAddress : Address w
  dhcid : DhcidSource
  leaseExpiresOn : Time
  leaseLength : Nat
  deriving DecidableEq

variable (d2 : D2Client)

/--
`queueNCRCommon`: the request that is sent, if one is. A name that is no domain name raises an
exception, which is logged. `NameChangeRequest::setFqdn` makes an absolute name of the other ones.
-/
def queueNCRCommon {w : Nat} (d2 : D2Client) (change : NameChangeType) (l : Lease w)
    (dhcid : DhcidSource) : Option (NameChangeRequest w) :=
  if l.hostname = "" || (!l.fqdnFwd && !l.fqdnRev) || !d2.ddnsEnabled then none
  else
    (absoluteText l.hostname).map fun fqdn =>
      { changeType := change
        forwardChange := l.fqdnFwd
        reverseChange := l.fqdnRev
        fqdn := fqdn
        ipAddress := l.addr
        dhcid := dhcid
        leaseExpiresOn := l.cltt + l.validLft
        leaseLength := l.validLft }

/-- The DHCID of a DHCPv4 client; `D2Dhcid::fromHWAddr` throws without a hardware address. -/
def dhcidSource4 (l : Lease4) : Option DhcidSource :=
  match l.clientId with
  | some c => some (.clientId c)
  | none => (l.hwaddr.filter (·.hwaddr ≠ [])).map .hwaddr

/-- `queueNCR` for a DHCPv4 lease: the client identifier takes precedence. -/
def queueNCR4 (change : NameChangeType) (l : Lease4) : Option (NameChangeRequest 32) :=
  (dhcidSource4 l).bind (queueNCRCommon d2 change l.toLease)

/-- `queueNCR` for a DHCPv6 lease: prefixes have no name. -/
def queueNCR6 (change : NameChangeType) (l : Lease6) : Option (NameChangeRequest 128) :=
  match l.type, l.duid with
  | .pd, _ => none
  | _, none => none
  | _, some d => queueNCRCommon d2 change l.toLease (.duid d)

end Dhcp
