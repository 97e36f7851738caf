import KeaDhcp.Infra.Run
import KeaDhcp.Dhcpsrv.AllocEngine6

/-!
# The DHCPv6 server

The handlers of `src/bin/dhcp6/dhcp6_srv.cc` that release and decline leases, without hooks, and
the operations of a running server: what its handlers and its timers call, in any order.
-/

namespace Dhcp

open Infra ServerM6

/-! ## Answers -/

/-- The status codes that the handlers use. -/
inductive StatusCode where
  | success | unspecFail | noBinding | noAddrsAvail | noPrefixAvail
  deriving DecidableEq

/-- The option `D6O_STATUS_CODE`. -/
structure StatusOption where
  code : StatusCode
  text : String
  deriving DecidableEq

/-- The answer for one IA, and the general status of the reply, if the handler sets it. -/
structure IAReply where
  statuses : List StatusOption
  general : Option StatusCode
  deriving DecidableEq

/-! ## The lease of a client -/

/-- What the handlers find out about the address or prefix of a client. -/
inductive Binding6 where
  | missing | noDuid | otherClient | otherIA
  | own (lease : Lease6)

/-- The checks of a handler, in their order. -/
def findBinding6 (db : Lease6Storage) (type : LeaseType) (duid : DUID) (iaid : Nat)
    (addr : Address 128) : Binding6 :=
  match db.getLease6 type addr with
  | none => .missing
  | some lease =>
    match lease.duid with
    | none => .noDuid
    | some d =>
      if duid ≠ d then .otherClient
      else if iaid ≠ lease.iaid then .otherIA
      else .own lease

/-! ## Release -/

/-- A failure: its status is also the general status. -/
def releaseFailed (code : StatusCode) (text : String) : IAReply × Option Lease6 :=
  ({ statuses := [{ code := code, text := text }], general := some code }, none)

/--
What `releaseIA_NA` and `releaseIA_PD` have in common. The answer comes with the lease that was
released.
-/
def releaseIA (type : LeaseType) (stat : StatName) (noAddress : String) (cleanup : Lease6 → ServerM6 Unit)
    (duid : DUID) (iaid : Nat) (addr : Option (Address 128)) : ServerM6 (IAReply × Option Lease6) := do
  match addr with
  | none => return releaseFailed .noBinding noAddress
  | some addr =>
    match findBinding6 (← get).leases type duid iaid addr with
    | .missing =>
      return releaseFailed .noBinding "Sorry, no known leases for this duid/iaid, can't release."
    | .noDuid =>
      return releaseFailed .unspecFail "Database consistency check failed when trying to RELEASE"
    | .otherClient =>
      return releaseFailed .noBinding "This address does not belong to you, you can't release it"
    | .otherIA => return releaseFailed .noBinding "This is your address, but you used wrong IAID"
    | .own lease =>
      if ← deleteLease lease.addr then
        addValue (.subnet lease.subnetId stat) (-1)
        cleanup lease
        return ({ statuses := [{ code := .success, text := "Lease released. Thank you, please come again." }]
                  general := none }, some lease)
      else return releaseFailed .unspecFail "Server failed to release a lease"

def releaseIA_NA (env : Env) : DUID → Nat → Option (Address 128) → ServerM6 (IAReply × Option Lease6) :=
  releaseIA .na .assignedNas "You did not include an address in your RELEASE" (queueNCR env .remove)

/-- Prefixes have no names to remove. -/
def releaseIA_PD : DUID → Nat → Option (Address 128) → ServerM6 (IAReply × Option Lease6) :=
  releaseIA .pd .assignedPds "You did not include a prefix in your RELEASE" fun _ => pure ()

/-! ## Decline -/

/-- `declineLease`. The address stays assigned until it is recovered. -/
def declineLease6 (env : Env) (declinePeriod : Nat) (lease : Lease6) : ServerM6 StatusOption := do
  queueNCR env .remove lease
  addValue (.subnet lease.subnetId .declinedAddresses) 1
  addValue (.global .declinedAddresses) 1
  updateLease6 (lease.decline env.now declinePeriod)
  return { code := .success, text := "Lease declined. Hopefully the next one will be better." }

/--
The loop of `declineIA` over the addresses of the IA. Some failures replace a status option that is
there (`setStatusCode`), the others are added; the declined leases come with them.
-/
def declineAddrs (env : Env) (declinePeriod : Nat) (duid : DUID) (iaid : Nat) :
    List (Address 128) → List StatusOption → ServerM6 (List StatusOption × List Lease6)
  | [], statuses => return (statuses, [])
  | addr :: addrs, statuses => do
    match findBinding6 (← get).leases .na duid iaid addr with
    | .missing =>
      declineAddrs env declinePeriod duid iaid addrs (statuses.tail ++
        [{ code := .noBinding, text := "Server does not know about such an address." }])
    | .noDuid =>
      declineAddrs env declinePeriod duid iaid addrs (statuses ++
        [{ code := .unspecFail, text := "Database consistency check failed when attempting Decline." }])
    | .otherClient =>
      declineAddrs env declinePeriod duid iaid addrs (statuses ++
        [{ code := .noBinding, text := "This address does not belong to you, you can't decline it" }])
    | .otherIA =>
      declineAddrs env declinePeriod duid iaid addrs (statuses.tail ++
        [{ code := .noBinding, text := "This is your address, but you used wrong IAID" }])
    | .own lease =>
      let status ← declineLease6 env declinePeriod lease
      let (statuses, declined) ← declineAddrs env declinePeriod duid iaid addrs (statuses ++ [status])
      return (statuses, lease.decline env.now declinePeriod :: declined)

/-- `declineIA`: the answer, and the leases as they are after the decline. -/
def declineIA (env : Env) (declinePeriod : Nat) (duid : DUID) (iaid : Nat) (addrs : List (Address 128)) :
    ServerM6 (IAReply × List Lease6) := do
  let (statuses, declined) ← declineAddrs env declinePeriod duid iaid addrs []
  if addrs.isEmpty then
    return ({ statuses := [{ code := .noBinding, text := "No addresses sent in IA_NA" }]
              general := some .noBinding }, declined)
  else return ({ statuses := statuses, general := none }, declined)

/-! ## Operations -/

/-- A context as the server builds it for a request: a real allocation for an IA_NA or an IA_PD. -/
structure Request6 where
  ctx : ClientContext6
  real : ctx.fakeAllocation = false
  type_ne_ta : ctx.type ≠ .ta

/-- The operations of the server. Each brings the clocks and the reservations of its time. -/
inductive Operation6 where
  | allocate (env : Env) (request : Request6)
  | renew (env : Env) (request : Request6)
  | releaseNA (env : Env) (duid : DUID) (iaid : Nat) (addr : Option (Address 128))
  | releasePD (duid : DUID) (iaid : Nat) (addr : Option (Address 128))
  | decline (env : Env) (declinePeriod : Nat) (duid : DUID) (iaid : Nat) (addrs : List (Address 128))
  | reclaim (env : Env) (maxLeases : Nat) (inTime : Option Nat) (removeLease : Bool)
  | deleteReclaimed (env : Env) (secs : Nat)

/-- The state of the server after an operation. -/
def step6 : Operation6 → Server6 → Server6
  | .allocate env request => after (allocateLeases6 env request.ctx)
  | .renew env request => after (renewLeases6 env request.ctx)
  | .releaseNA env duid iaid addr => after (releaseIA_NA env duid iaid addr)
  | .releasePD duid iaid addr => after (releaseIA_PD duid iaid addr)
  | .decline env period duid iaid addrs => after (declineIA env period duid iaid addrs)
  | .reclaim env maxLeases inTime removeLease =>
    after (reclaimExpiredLeases6 env maxLeases inTime removeLease)
  | .deleteReclaimed env secs => after (deleteExpiredReclaimedLeases6 env secs)

/-- No lease, and all statistics are zero. -/
def Server6.Fresh (st : Server6) : Prop := st.leases = MultiIndex.empty ∧ st.stats = fun _ => 0

end Dhcp
