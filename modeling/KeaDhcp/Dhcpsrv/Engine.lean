import KeaDhcp.Infra.Exec
import KeaDhcp.Dhcpsrv.Allocator
import KeaDhcp.Dhcpsrv.Host
import KeaDhcp.Dhcpsrv.LeaseMgr
import KeaDhcp.Dhcpsrv.Stats

/-!
# What the two allocation engines share

`src/lib/dhcpsrv/alloc_engine.cc` and `alloc_engine.h`, as far as DHCPv4 and DHCPv6 use them
alike.
-/

namespace Dhcp

/-- What the engine can run into: an exception of the source, or a null pointer it follows. -/
inductive EngineError where
  | badValue | invalidOperation | noSuchLease | allocFailed | duplicateHost
  /-- The server drops the message. -/
  | discardMessage
  /-- No exception: the process is gone. -/
  | nullPointer
  deriving DecidableEq

/-- What a call of the engine reads besides its state: clocks, configuration, reservations. -/
structure Env where
  now : Time
  /-- The microsecond clock that dates allocations in a subnet. -/
  clock : Time
  /-- `attempts_`; zero means as many as a subnet has addresses. -/
  attempts : Nat
  hostMgr : HostMgr
  d2 : D2Client

inductive DbReclaimMode where
  | remove | update | leaveUnchanged
  deriving DecidableEq

/-- The number of candidates that are tried in a subnet. -/
def maxAttempts (env : Env) {w : Nat} (type : LeaseType) (s : Subnet w) (classes : ClientClasses) : Nat :=
  let possible := s.getPoolCapacity type classes
  if possible = 0 then 0 else if env.attempts > 0 then env.attempts else possible

/-- `use_single_query`: the network has more subnets than the client has identifiers. -/
def useSingleQuery {w : Nat} (subnet : Option (SubnetPtr w)) (ids : List IdentifierPair) : Bool :=
  subnet.any fun s => s.network.any fun n => n.subnets.length > ids.length

theorem maxAttempts_ne_zero {env : Env} {w : Nat} {type : LeaseType} {s : Subnet w}
    {classes : ClientClasses} (h : maxAttempts env type s classes ≠ 0) : s.getPoolCapacity type classes ≠ 0 := by
  intro hzero
  simp [maxAttempts, hzero] at h

theorem due_sublist {α : Type} {expired : Nat → List α} {maxLeases : Nat} {inTime : Option Nat} :
    ∃ n : Nat, (match inTime with
      | none => if maxLeases > 0 then (expired (maxLeases + 1)).take maxLeases else expired maxLeases
      | some m => (if maxLeases > 0 then (expired (maxLeases + 1)).take maxLeases
          else expired maxLeases).take (max m 1)).Sublist (expired n) := by
  have hmax : ∃ n, (if maxLeases > 0 then (expired (maxLeases + 1)).take maxLeases
      else expired maxLeases).Sublist (expired n) := by
    split
    · exact ⟨maxLeases + 1, List.take_sublist _ _⟩
    · exact ⟨maxLeases, List.Sublist.refl _⟩
  obtain ⟨n, hn⟩ := hmax
  cases inTime with
  | none => exact ⟨n, hn⟩
  | some m => exact ⟨n, (List.take_sublist _ _).trans hn⟩

end Dhcp
