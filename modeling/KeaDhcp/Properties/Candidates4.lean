import KeaDhcp.Properties.Allocate4

/-!
# The candidates of `allocateUnreservedLease4`

The addresses that it tries, and the subnet that it begins with.
-/

namespace Dhcp

open Infra Engine4 List

variable {env : Env} {ctx : ClientContext4} {s : SubnetPtr 32} {st : Server4} {addr : Address 32}

/-- `allocateUnreservedLease4` returns a lease. -/
def LeaseFound (env : Env) (ctx : ClientContext4) (s : SubnetPtr 32) (st : Server4) : Prop :=
  ∃ r st', allocateUnreservedLease4 env ctx s st = .ok r st' ∧ r.newLease.isSome

theorem allocateUnreservedLease4_found :
    ∃ r st', allocateUnreservedLease4 env ctx s st = .ok r st' ∧
      (∀ lease, r.newLease = some lease → notInUse env st.leases lease.addr) ∧
      (r.newLease.isSome ↔ ∃ c ∈ candidatesFrom env ctx.classes s st.allocator,
        Usable env ctx c.1 st.leases c.2) := by
  obtain ⟨r, st', hrun, hleased⟩ := allocateUnreservedLease4_first
  refine ⟨r, st', hrun, ?_⟩
  cases hfirst : firstUsable env ctx st.leases (candidatesFrom env ctx.classes s st.allocator) with
  | none =>
    rw [hfirst] at hleased
    have hnone : r.newLease = none := hleased.1
    rw [firstUsable, find?_eq_none] at hfirst
    simpa [hnone] using hfirst
  | some c =>
    rw [hfirst] at hleased
    obtain ⟨lease, hnew, hplaced⟩ := hleased
    have husable : Usable env ctx c.1 st.leases c.2 := by simpa using find?_some hfirst
    refine ⟨fun n hn => ?_, iff_of_true (by simp [hnew]) ⟨c, mem_of_find?_eq_some hfirst, husable⟩⟩
    obtain rfl := Option.some.inj (hnew.symm.trans hn)
    rw [hplaced.addr_eq]
    exact husable.2

theorem leaseFound_iff_candidates :
    LeaseFound env ctx s st ↔ ∃ c ∈ candidatesFrom env ctx.classes s st.allocator,
      Usable env ctx c.1 st.leases c.2 := by
  obtain ⟨r, st', hrun, -, hfound⟩ := allocateUnreservedLease4_found
  rw [← hfound, LeaseFound, hrun]
  simp

/-! ## The subnet to begin with -/

section Preferred

variable {w : Nat}

/-- The subnet that the search should begin with: no other one for the same clients was used later. -/
structure MostRecent (a : AllocatorState w) (type : LeaseType) (s p : SubnetPtr w) : Prop where
  mem : p ∈ s.siblings
  clientClass : p.subnet.clientClass = s.subnet.clientClass
  latest : ∀ t ∈ s.siblings, t.subnet.clientClass = s.subnet.clientClass →
    a.usedAfter type t.subnet p.subnet = false
  selected : usedSince a type s = [] → p = s

theorem usedAfter_eq_false_trans {a : AllocatorState w} {type : LeaseType} {p s t : Subnet w}
    (hp : a.usedAfter type p s = true) (ht : a.usedAfter type t s = false) :
    a.usedAfter type t p = false := by
  unfold AllocatorState.usedAfter at *
  cases hs : a.subnetTime s.id type <;> cases hq : a.subnetTime p.id type <;>
    cases hu : a.subnetTime t.id type <;> simp_all
  exact Int.le_trans ht (Int.le_of_lt hp)

/--
All subnets are compared with the selected one, not with the best one so far. So the search begins
with the most recent subnet exactly if the last of those used after the selected one is it.
-/
theorem preferred_most_recent_iff (a : AllocatorState w) (type : LeaseType) (s : SubnetPtr w) :
    MostRecent a type s (getPreferredSubnet a type s) ↔
      ∀ last ∈ (usedSince a type s).getLast?, ∀ t ∈ usedSince a type s,
        a.usedAfter type t.subnet last.subnet = false := by
  have hlast : ∀ last ∈ (usedSince a type s).getLast?, getPreferredSubnet a type s = last := by
    intro last hlast
    rw [getPreferredSubnet_eq, getLastD_eq_getLast?, hlast, Option.getD_some]
  constructor
  · intro h last hmem t ht
    obtain ⟨hsibling, hused⟩ := mem_filter.mp ht
    rw [← hlast last hmem]
    exact h.latest t hsibling (of_decide_eq_true (Bool.and_eq_true_iff.mp hused).1)
  · intro h
    obtain ⟨hmem, hclass⟩ := getPreferredSubnet_spec a type s
    refine ⟨hmem, hclass, fun t ht htclass => ?_, fun hnil => ?_⟩
    · cases hused : a.usedAfter type t.subnet s.subnet with
      | true =>
        have ht' : t ∈ usedSince a type s := mem_filter.mpr ⟨ht, by simp [htclass, hused]⟩
        have hget := getLast?_eq_getLast_of_ne_nil (ne_nil_of_mem ht')
        rw [hlast _ hget]
        exact h _ hget t ht'
      | false =>
        rcases getPreferredSubnet_mem a type s with hself | hpref
        · rw [hself]
          exact hused
        · have hlater := (Bool.and_eq_true_iff.mp (mem_filter.mp hpref).2).2
          exact usedAfter_eq_false_trans hlater hused
    · rw [getPreferredSubnet_eq, hnil]
      rfl

/-- Subnet 2 was used at the time 5 and subnet 3 at the time 3. -/
def Sample.usedTwice : AllocatorState 32 :=
  { poolLast := fun _ => (0, false), subnetLast := fun _ _ => 0
    subnetTime := fun id _ => if id = 2 then some 5 else if id = 3 then some 3 else none }

open Sample in
theorem third_subnet_preferred :
    (getPreferredSubnet usedTwice .v4 ptr13).subnet.id = 3 ∧
      ¬MostRecent usedTwice .v4 ptr13 (getPreferredSubnet usedTwice .v4 ptr13) := by
  refine ⟨by decide, fun h => ?_⟩
  have hsecond := h.latest ⟨subnet2, some shared3, by decide⟩ (by decide) rfl
  exact absurd hsecond (by decide)

end Preferred

end Dhcp
