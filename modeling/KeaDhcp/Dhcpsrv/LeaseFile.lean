import KeaDhcp.Infra.Exec
import KeaDhcp.Infra.Journal
import KeaDhcp.Dhcpsrv.LeaseMgr

/-!
# Leases in memory and in the lease file

The changes that `src/lib/dhcpsrv/memfile_lease_mgr.cc` makes to its storage and to the lease file,
and the loader of `lease_file_loader.h`. A row of the file is the lease that was appended. The
functions of the source come in pairs, for DHCPv4 and DHCPv6; each pair is one function here that
gets the differences as arguments.
-/

namespace Dhcp

open Infra MultiIndex Function Journal

variable {α κ ι : Type} [DecidableEq κ] {S : IndexSpec α κ ι}

/-! ## The lease file -/

/-- What a lease file makes of leases, and the copies that are appended to mark a removal. -/
structure LeaseFileFormat (S : IndexSpec α κ ι) where
  validLft : α → Nat
  /-- The check in `append` that throws `BadValue` otherwise. -/
  writable : α → Bool
  /-- The copy that `deleteLease` appends. -/
  removed : α → α
  /-- The copy that `deleteExpiredReclaimedLeases` appends. -/
  expiredRemoved : α → α
  removed_key : ∀ l, S.key (removed l) = S.key l
  removed_validLft : ∀ l, validLft (removed l) = 0
  removed_writable : ∀ l, writable (removed l) = writable l
  expiredRemoved_key : ∀ l, S.key (expiredRemoved l) = S.key l
  expiredRemoved_validLft : ∀ l, validLft (expiredRemoved l) = 0
  expiredRemoved_writable : ∀ l, writable (expiredRemoved l) = writable l

namespace LeaseFileFormat

variable (F : LeaseFileFormat S) (storage : MultiIndex S)

/-- One round of the loop of `LeaseFileLoader::load`. -/
def loadRow (lease : α) : MultiIndex S :=
  match storage.find (S.key lease) with
  | none => if F.validLft lease > 0 then storage.insert lease else storage
  | some _ => if F.validLft lease = 0 then storage.erase (S.key lease) else storage.replace lease

/-- `LeaseFileLoader::load` of a file whose rows are well-formed. -/
def load (rows : List α) : MultiIndex S := rows.foldl F.loadRow storage

/-- The lease file as a journal. -/
def journal : Journal α κ := { key := S.key, live := fun l => decide (F.validLft l > 0) }

theorem find_loadRow {lease : α} :
    (F.loadRow storage lease).find = F.journal.enter storage.find lease := by
  funext k
  unfold loadRow enter journal
  cases hfind : storage.find (S.key lease) with
  | none =>
    by_cases hlive : F.validLft lease > 0
    · simp only [hlive, if_true, decide_true, find_insert hfind, update_apply]
    simp only [hlive, if_false, decide_false, Bool.false_eq_true, update_apply]
    split
    · rename_i hk
      rw [hk, hfind]
    · rfl
  | some l =>
    by_cases hzero : F.validLft lease = 0
    · simp [hzero, find_erase, update_apply]
    · simp [hzero, Nat.pos_of_ne_zero hzero, find_replace hfind, update_apply]

/-- **The loader reads a journal.** -/
theorem find_load (rows : List α) :
    (F.load storage rows).find = F.journal.meaning storage.find rows := by
  induction rows generalizing storage with
  | nil => rfl
  | cons row rows ih =>
    rw [meaning_cons, ← find_loadRow]
    exact ih (F.loadRow storage row)

end LeaseFileFormat

/-! ## The lease manager -/

/-- The storage of a manager that persists leases, and the rows of its lease file. -/
structure Memfile (S : IndexSpec α κ ι) where
  storage : MultiIndex S
  leaseFile : List α

inductive MemfileError where
  | badValue | noSuchLease
  deriving DecidableEq

abbrev MemfileM (S : IndexSpec α κ ι) := EStateM MemfileError (Memfile S)

namespace Memfile

variable (F : LeaseFileFormat S)

/-- A manager with an empty lease file. -/
def fresh : Memfile S := { storage := empty, leaseFile := [] }

/-- `CSVLeaseFile4::append`, `CSVLeaseFile6::append`. -/
def append (lease : α) : MemfileM S Unit := do
  if !F.writable lease then
    throw .badValue
  modify fun m => { m with leaseFile := m.leaseFile ++ [lease] }

/-- `addLease`, with the check whether there is a lease already. -/
def add (present : MultiIndex S → α → Bool) (lease : α) : MemfileM S Bool := do
  if present (← get).storage lease then
    return false
  append F lease
  modify fun m => { m with storage := m.storage.insert lease }
  return true

/-- `updateLease4`, `updateLease6`. -/
def update (lease : α) : MemfileM S Unit := do
  match (← get).storage.find (S.key lease) with
  | none => throw .noSuchLease
  | some _ =>
    append F lease
    modify fun m => { m with storage := m.storage.replace lease }

/-- `deleteLease`. -/
def delete (addr : κ) : MemfileM S Bool := do
  match (← get).storage.find addr with
  | none => return false
  | some lease =>
    append F (F.removed lease)
    modify fun m => { m with storage := m.storage.erase addr }
    return true

/-- `deleteExpiredReclaimedLeases`: one row for each lease that is due, then they are erased. -/
def deleteExpiredReclaimed (expiration : ι) (due : α → Bool) : MemfileM S Nat := do
  let leases := ((← get).storage.seq expiration).filter due
  leases.forM fun lease => append F (F.expiredRemoved lease)
  modify fun m => { m with storage := m.storage.filter fun l => !due l }
  return leases.length

end Memfile

/-- The calls that change the leases, with the clock for those that read it. -/
inductive MemfileCall (α κ : Type) where
  | addLease (lease : α)
  | updateLease (lease : α)
  | deleteLease (addr : κ)
  | deleteExpiredReclaimedLeases (now : Time) (secs : Nat)

/-- A reclaimed lease that expired `secs` ago. -/
def Lease.reclaimedBefore {w : Nat} (now : Time) (secs : Nat) (l : Lease w) : Bool :=
  l.stateExpiredReclaimed && decide (l.getExpirationTime ≤ now - secs)

/-! ### DHCPv4 -/

def leaseFile4 : LeaseFileFormat lease4Spec where
  validLft := fun l => l.validLft
  -- The lease must have a hardware address, which may be empty.
  writable := fun l => l.hwaddr.isSome
  removed := fun l => { l with validLft := 0 }
  expiredRemoved := fun l => { l with validLft := 0 }
  removed_key := fun _ => rfl
  removed_validLft := fun _ => rfl
  removed_writable := fun _ => rfl
  expiredRemoved_key := fun _ => rfl
  expiredRemoved_validLft := fun _ => rfl
  expiredRemoved_writable := fun _ => rfl

namespace Memfile4

def addLease (lease : Lease4) : MemfileM lease4Spec Bool :=
  Memfile.add leaseFile4 (fun storage l => (Lease4Storage.getLease4 storage l.addr).isSome) lease

def updateLease4 (lease : Lease4) : MemfileM lease4Spec Unit := Memfile.update leaseFile4 lease

def deleteLease (addr : Address 32) : MemfileM lease4Spec Bool := Memfile.delete leaseFile4 addr

def deleteExpiredReclaimedLeases4 (now : Time) (secs : Nat) : MemfileM lease4Spec Nat :=
  Memfile.deleteExpiredReclaimed leaseFile4 .expiration fun l => l.reclaimedBefore now secs

def step : MemfileCall Lease4 (Address 32) → Memfile lease4Spec → Memfile lease4Spec
  | .addLease lease => after (addLease lease)
  | .updateLease lease => after (updateLease4 lease)
  | .deleteLease addr => after (deleteLease addr)
  | .deleteExpiredReclaimedLeases now secs => after (deleteExpiredReclaimedLeases4 now secs)

end Memfile4

/-! ### DHCPv6 -/

def leaseFile6 : LeaseFileFormat lease6Spec where
  validLft := fun l => l.validLft
  -- The DUID is read without a check: a lease that has none never gets into the file.
  writable := fun l => l.duid.isSome
  removed := fun l => { l with validLft := 0, preferredLft := 0 }
  expiredRemoved := fun l => { l with validLft := 0 }
  removed_key := fun _ => rfl
  removed_validLft := fun _ => rfl
  removed_writable := fun _ => rfl
  expiredRemoved_key := fun _ => rfl
  expiredRemoved_validLft := fun _ => rfl
  expiredRemoved_writable := fun _ => rfl

namespace Memfile6

/-- The check looks for a lease of the same type. -/
def addLease (lease : Lease6) : MemfileM lease6Spec Bool :=
  Memfile.add leaseFile6 (fun storage l => (Lease6Storage.getLease6 storage l.type l.addr).isSome)
    lease

def updateLease6 (lease : Lease6) : MemfileM lease6Spec Unit := Memfile.update leaseFile6 lease

def deleteLease (addr : Address 128) : MemfileM lease6Spec Bool := Memfile.delete leaseFile6 addr

def deleteExpiredReclaimedLeases6 (now : Time) (secs : Nat) : MemfileM lease6Spec Nat :=
  Memfile.deleteExpiredReclaimed leaseFile6 .expiration fun l => l.reclaimedBefore now secs

def step : MemfileCall Lease6 (Address 128) → Memfile lease6Spec → Memfile lease6Spec
  | .addLease lease => after (addLease lease)
  | .updateLease lease => after (updateLease6 lease)
  | .deleteLease addr => after (deleteLease addr)
  | .deleteExpiredReclaimedLeases now secs => after (deleteExpiredReclaimedLeases6 now secs)

end Memfile6

end Dhcp
