import KeaDhcp.Infra.Run
import KeaDhcp.Dhcpsrv.AllocEngine4

/-!
# The DHCPv4 server

The handlers of `src/bin/dhcp4/dhcp4_srv.cc` that work on leases besides allocation, without
hooks, and the operations of a running server: what its handlers and its timers call, in any
order.
-/

namespace Dhcp

open Infra Engine4 Lease4Storage

/-- What a release or a decline carries: the address, and the identity of the sender. -/
structure ClientMessage4 where
  addr : Address 32
  hwaddr : Option HWAddr
  clientId : Option ClientId

/-- The lease for the address of the message, if it belongs to the sender. -/
def ClientMessage4.ownLease (m : ClientMessage4) (db : Lease4Storage) : Option Lease4 :=
  (db.getLease4 m.addr).filter (·.belongsToClient m.hwaddr m.clientId)

/-- `processRelease`: whether the client identifier counts in the subnet is not asked here. -/
def processRelease (env : Env) (m : ClientMessage4) : Engine4 Unit := do
  match m.ownLease (← get).leases with
  | none => pure ()
  | some lease =>
    if ← deleteLease lease.addr then
      addValue (.subnet lease.subnetId .assignedAddresses) (-1)
      queueNCR env .remove lease

/-- `declineLease`. The address stays assigned until it is recovered. -/
def declineLease (env : Env) (declinePeriod : Nat) (lease : Lease4) : Engine4 Unit := do
  queueNCR env .remove lease
  addValue (.subnet lease.subnetId .declinedAddresses) 1
  addValue (.global .declinedAddresses) 1
  updateLease4 (lease.decline env.now declinePeriod)

def processDecline (env : Env) (declinePeriod : Nat) (m : ClientMessage4) : Engine4 Unit := do
  match m.ownLease (← get).leases with
  | none => pure ()
  | some lease => declineLease env declinePeriod lease

/-! ### What they do -/

section Effects

variable {env : Env} {m : ClientMessage4} {db : Lease4Storage} {st : Server4} {l : Lease4}

theorem ownLease_spec (h : m.ownLease db = some l) : l ∈ db ∧ l.addr = m.addr := by
  obtain ⟨hget, -⟩ := Option.filter_eq_some_iff.mp h
  exact mem_of_getLease4 hget

theorem processRelease_none (h : m.ownLease st.leases = none) :
    processRelease env m st = .ok () st := by
  simp [processRelease, run_bind, h]

theorem processRelease_some (h : m.ownLease st.leases = some l) :
    processRelease env m st = .ok ()
      { st with
        leases := st.leases.erase l.addr
        stats := st.stats.addValue (.subnet l.subnetId .assignedAddresses) (-1)
        ncrs := st.ncrs ++ (queueNCR4 env.d2 .remove l).toList } := by
  have hget := getLease4_of_mem (ownLease_spec h).1
  simp [processRelease, run_bind, h, hget]

theorem processDecline_none {period : Nat} (h : m.ownLease st.leases = none) :
    processDecline env period m st = .ok () st := by
  simp [processDecline, run_bind, h]

theorem processDecline_some {period : Nat} (h : m.ownLease st.leases = some l) :
    processDecline env period m st = .ok ()
      { st with
        leases := st.leases.replace (l.decline env.now period)
        stats := (st.stats.addValue (.subnet l.subnetId .declinedAddresses) 1).addValue
          (.global .declinedAddresses) 1
        ncrs := st.ncrs ++ (queueNCR4 env.d2 .remove l).toList } := by
  have hget : st.leases.getLease4 (l.decline env.now period).addr = some l :=
    getLease4_of_mem (ownLease_spec h).1
  have hupd : ∀ stats ncrs, Engine4.updateLease4 (l.decline env.now period)
      { st with stats := stats, ncrs := ncrs } = _ := fun stats ncrs => updateLease4_run hget
  simp only [processDecline, declineLease, run_bind, run_get, h, queueNCR_run, addValue_run, hupd]

end Effects

/-! ## Operations -/

/-- The operations of the server. Each brings the clocks and the configuration of its time. -/
inductive Operation4 where
  | allocate (env : Env) (ctx : ClientContext4)
  | release (env : Env) (m : ClientMessage4)
  | decline (env : Env) (declinePeriod : Nat) (m : ClientMessage4)
  | reclaim (env : Env) (maxLeases : Nat) (inTime : Option Nat) (removeLease : Bool)
  | deleteReclaimed (env : Env) (secs : Nat)

/-- The state of the server after an operation. -/
def step4 : Operation4 → Server4 → Server4
  | .allocate env ctx => after (allocateLease4 env ctx)
  | .release env m => after (processRelease env m)
  | .decline env period m => after (processDecline env period m)
  | .reclaim env maxLeases inTime removeLease =>
    after (reclaimExpiredLeases4 env maxLeases inTime removeLease)
  | .deleteReclaimed env secs => after (deleteExpiredReclaimedLeases4 env secs)

/-- No lease, and all statistics are zero. -/
def Server4.Fresh (st : Server4) : Prop := st.leases = MultiIndex.empty ∧ st.stats = fun _ => 0

end Dhcp
