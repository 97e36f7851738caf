import KeaDhcp.Dhcpsrv.Host
import KeaDhcp.Infra.Run

/-!
# Adding and deleting hosts

`HostMgr::add`, `del`, `del4` and `del6` of `src/lib/dhcpsrv/host_mgr.cc`, with alternate sources
that are exact stores. `add` goes to every source, and a deletion ends at the first one that has
deleted something. A cache is one of the sources; the copies that look-ups make for it are left out.
-/

namespace Dhcp

open Infra List

/-- The arguments of a deletion. `del` takes addresses of both families. -/
inductive Deletion where
  | del4Address (subnet : SubnetID) (addr : Address 32)
  | del6Address (subnet : SubnetID) (addr : Address 128)
  | del4 (subnet : SubnetID) (id : IdentifierPair)
  | del6 (subnet : SubnetID) (id : IdentifierPair)

def Deletion.designates (h : Host) : Deletion → Bool
  | del4Address subnet addr => h.ipv4SubnetId = subnet && h.ipv4Reservation = addr
  | del6Address subnet addr => h.ipv6SubnetId = subnet && h.ipv6Reservations.any (·.addr = addr)
  | del4 subnet id => h.ipv4SubnetId = subnet && h.hasIdentifier id
  | del6 subnet id => h.ipv6SubnetId = subnet && h.hasIdentifier id

/-- The hosts of one of the `alternate_sources_`. -/
abbrev HostStore := List Host

namespace HostStore

variable (sources : List HostStore)

/-- `none` stands for the exception of a manager without alternate sources. -/
def add (h : Host) : Option (List HostStore) :=
  if sources = [] then none else some (sources.map (h :: ·))

/-- The loop of the deletions, with what they return. -/
def delLoop (d : Deletion) : List HostStore → List HostStore × Bool
  | [] => ([], false)
  | s :: sources =>
    if s.any (d.designates ·) then (s.filter (!d.designates ·) :: sources, true)
    else (s :: (delLoop d sources).1, (delLoop d sources).2)

def del (d : Deletion) : Option (List HostStore × Bool) :=
  if sources = [] then none else some (delLoop d sources)

inductive Call where
  | add (h : Host)
  | del (d : Deletion)

/-- A call that throws changes nothing. -/
def step : Call → List HostStore → List HostStore
  | .add h, sources => (add sources h).getD sources
  | .del d, sources => ((del sources d).map Prod.fst).getD sources

/-- After a host is added and, later, deleted, no source has it until it is added again. -/
def DeletesHosts : Prop :=
  ∀ h d added before deleted after, add sources h = some added →
    Reaches step (fun _ _ => True) added before → d.designates h = true →
    del before d = some (deleted, true) →
    Reaches step (fun call _ => call ≠ .add h) deleted after → ∀ s ∈ after, h ∉ s

variable {s : HostStore} {h : Host} {d : Deletion}

theorem del_one : del [s] d =
    if s.any (d.designates ·) then some ([s.filter (!d.designates ·)], true) else some ([s], false) := by
  rw [del, if_neg (cons_ne_nil s []), delLoop]
  split <;> rfl

/-- What a call does to the only source. -/
theorem step_one (s : HostStore) (h : Host) (call : Call) :
    ∃ s', step call [s] = [s'] ∧ (call ≠ .add h → h ∉ s → h ∉ s') := by
  cases call with
  | add k =>
    refine ⟨k :: s, rfl, fun hne hs hmem => ?_⟩
    rcases mem_cons.mp hmem with rfl | hmem
    · exact hne rfl
    · exact hs hmem
  | del d =>
    rw [step, del_one]
    split
    · exact ⟨_, rfl, fun _ hs hmem => hs (mem_filter.mp hmem).1⟩
    · exact ⟨s, rfl, fun _ => id⟩

theorem deletesHosts_one (s : HostStore) : DeletesHosts [s] := by
  intro h d added before deleted after hadd hlater hd hdel hrest
  obtain rfl : [h :: s] = added := Option.some.inj hadd
  obtain ⟨s₁, rfl⟩ : ∃ s, before = [s] := by
    refine hlater.inv (I := fun sources => ∃ s, sources = [s]) ⟨_, rfl⟩ ?_
    rintro call _ ⟨s, rfl⟩ -
    obtain ⟨s', hs', -⟩ := step_one s h call
    exact ⟨s', hs'⟩
  have hgone : ∃ s, deleted = [s] ∧ h ∉ s := by
    rw [del_one] at hdel
    split at hdel
    · obtain ⟨rfl, -⟩ := Prod.mk.inj (Option.some.inj hdel)
      exact ⟨_, rfl, by simp [hd]⟩
    · cases hdel
  obtain ⟨s₂, rfl, hs₂⟩ : ∃ s, after = [s] ∧ h ∉ s := by
    refine hrest.inv (I := fun sources => ∃ s, sources = [s] ∧ h ∉ s) hgone ?_
    rintro call _ ⟨s, rfl, hs⟩ hcall
    obtain ⟨s', hs', hnot⟩ := step_one s h call
    exact ⟨s', hs', hnot hcall hs⟩
  simpa using hs₂

/-- A host with an identifier and nothing else. -/
def bareHost : Host where
  identifierType := .hwaddr
  identifier := [1]
  ipv4SubnetId := 1
  ipv6SubnetId := subnetIdUnused
  ipv4Reservation := 0
  ipv6Reservations := []
  hostname := "a"

/-- **A deletion deletes the host everywhere** exactly with one source: it leaves the others alone. -/
theorem deletesHosts_iff (sources : List HostStore) :
    DeletesHosts sources ↔ sources.length ≤ 1 := by
  match sources with
  | [] => exact iff_of_true nofun (Nat.zero_le 1)
  | [s] => exact iff_of_true (deletesHosts_one s) (Nat.le_refl 1)
  | s :: t :: rest =>
    refine iff_of_false (fun hdeletes => ?_) (by simp)
    let d : Deletion := .del4 1 (.hwaddr, [1])
    have hd : d.designates bareHost = true := by decide
    have hdel : del ((s :: t :: rest).map (bareHost :: ·)) d =
        some ((bareHost :: s).filter (!d.designates ·) :: (t :: rest).map (bareHost :: ·), true) := by
      simp [del, delLoop, hd]
    exact hdeletes bareHost d _ _ _ _ rfl .start hd hdel .start (bareHost :: t) (by simp) mem_cons_self

/-- The host is deleted from the first source, and the second still has it. -/
theorem deleted_host_remains :
    ∃ added, add [[], []] bareHost = some added ∧
      del added (.del4 1 (.hwaddr, [1])) = some ([[], [bareHost]], true) :=
  ⟨_, rfl, rfl⟩

end HostStore

end Dhcp
