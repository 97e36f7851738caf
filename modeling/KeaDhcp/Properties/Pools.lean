import KeaDhcp.Infra.Run
import KeaDhcp.Dhcpsrv.SubnetPools

/-!
# The pools of a subnet

What `addPool` keeps of the pools of a subnet: those of a collection are sorted, no two pools share
an address, and address pools lie in the prefix of the subnet.
-/

namespace Dhcp

open Infra SubnetPools Option
open BitVec hiding and_comm
open List hiding any_eq_true after

variable {w : Nat} {p q pool : Pool w} {ps : List (Pool w)} {addr : Address w}

/-! ## Disjoint ranges -/

namespace Pool

def Disjoint (p q : Pool w) : Prop := p.last < q.first ∨ q.last < p.first

instance (p q : Pool w) : Decidable (p.Disjoint q) := inferInstanceAs (Decidable (_ ∨ _))

theorem disjoint_comm : p.Disjoint q ↔ q.Disjoint p := Or.comm

theorem Disjoint.last_lt (h : p.Disjoint q) (hle : p.first ≤ q.first) : p.last < q.first := by
  have hq := q.first_le_last
  simp only [Disjoint, lt_def, le_def] at *
  omega

end Pool

/-- The pools of a collection one behind the other. -/
def Apart (ps : List (Pool w)) : Prop := ps.Pairwise fun p q => p.last < q.first

/-- Sorted and disjoint pools lie one behind the other. -/
theorem apart_of_disjoint (hsorted : ps.Pairwise fun p q => p.first ≤ q.first)
    (hdisjoint : ps.Pairwise Pool.Disjoint) : Apart ps := by
  refine (hsorted.and hdisjoint).imp ?_
  rintro p q ⟨hle, hdisjoint⟩
  exact hdisjoint.last_lt hle

/-! ## The neighbours of an address -/

/-- The pools that do not begin behind an address, and the others. -/
structure Split (ps : List (Pool w)) (addr : Address w) (before behind : List (Pool w)) : Prop where
  eq : ps = before ++ behind
  before_le : ∀ p ∈ before, p.first ≤ addr
  lt_behind : ∀ p ∈ behind, addr < p.first

/-- An address divides the pools. -/
theorem Apart.split (h : Apart ps) (addr : Address w) :
    ∃ before behind, Split ps addr before behind := by
  induction ps with
  | nil => exact ⟨[], [], rfl, by simp, by simp⟩
  | cons p ps ih =>
    obtain ⟨hp, hps⟩ := pairwise_cons.mp h
    by_cases hle : p.first ≤ addr
    · obtain ⟨before, behind, rfl, hbefore, hbehind⟩ := ih hps
      refine ⟨p :: before, behind, rfl, ?_, hbehind⟩
      rintro q (_ | ⟨_, hq⟩)
      · exact hle
      · exact hbefore q hq
    · refine ⟨[], p :: ps, rfl, by simp, ?_⟩
      have hlt : addr < p.first := BitVec.not_le.mp hle
      rintro q (_ | ⟨_, hq⟩)
      · exact hlt
      have hpq := hp q hq
      have hp' := p.first_le_last
      rw [lt_def] at *
      rw [le_def] at hp'
      omega

variable {behind before : List (Pool w)}

/-- The search finds the pools on both sides of an address. -/
theorem Split.neighbours_eq (h : Split ps addr before behind) :
    neighbours ps addr = (before.getLast?, behind.head?) := by
  have hbefore : ∀ p ∈ before, decide (addr < p.first) = false := fun p hp =>
    decide_eq_false (BitVec.not_lt.mpr (h.before_le p hp))
  have hbehind : ∀ p ∈ behind, decide (addr < p.first) = true := fun p hp =>
    decide_eq_true (h.lt_behind p hp)
  rw [neighbours, h.eq, at_upperBound hbefore hbehind]
  by_cases hzero : upperBound (fun p => decide (addr < p.first)) (before ++ behind) = 0
  · have hnil : before = [] := by
      rw [upperBound_append hbefore hbehind] at hzero
      exact length_eq_zero_iff.mp hzero
    rw [if_neg (not_not.mpr hzero), hnil, getLast?_nil]
  · rw [if_pos hzero, before_upperBound hbefore hbehind hzero]

theorem Split.takeWhile_eq (h : Split ps addr before behind) :
    ps.takeWhile (fun p => decide (p.first ≤ addr)) = before := by
  have hbefore : ∀ p ∈ before, decide (p.first ≤ addr) = true := fun p hp =>
    decide_eq_true (h.before_le p hp)
  rw [h.eq, takeWhile_append_of_pos hbefore]
  cases behind with
  | nil => simp
  | cons q _ =>
    have hq : ¬q.first ≤ addr := BitVec.not_le.mpr (h.lt_behind q (mem_cons_self ..))
    simp [hq]

/-- The pool that the binary search looks at is the only one that can contain the address. -/
theorem Split.getLast?_eq_some (hsplit : Split ps addr before behind) (h : Apart ps) (hp : p ∈ ps)
    (hin : p.inRange addr) : before.getLast? = some p := by
  simp only [Pool.inRange, Bool.and_eq_true, decide_eq_true_eq] at hin
  have hbefore : p ∈ before := by
    rw [hsplit.eq] at hp
    refine (mem_append.mp hp).resolve_right fun hbehind => ?_
    exact BitVec.not_lt.mpr hin.1 (hsplit.lt_behind p hbehind)
  obtain ⟨front, last, rfl⟩ := (before.eq_nil_or_concat').resolve_left (ne_nil_of_mem hbefore)
  rw [getLast?_concat]
  rcases mem_append.mp hbefore with hfront | hlast
  · -- A pool before the last one ends before that begins, so before the address.
    rw [hsplit.eq] at h
    have happart := (pairwise_append.mp h).1
    have hend := (pairwise_append.mp happart).2.2 p hfront last (mem_singleton.mpr rfl)
    have hle := hsplit.before_le last (mem_append_right _ (mem_singleton.mpr rfl))
    have hcontains := le_def.mp hin.2
    rw [le_def] at hle
    rw [lt_def] at hend
    omega
  · rw [mem_singleton.mp hlast]

theorem Apart.exists_le_last_iff (h : Apart ps) :
    (∃ q ∈ ps, addr ≤ q.last) ↔ ∃ q, ps.getLast? = some q ∧ addr ≤ q.last := by
  constructor
  · rintro ⟨q, hq, hle⟩
    rcases ps.eq_nil_or_concat' with rfl | ⟨front, last, rfl⟩
    · cases hq
    refine ⟨last, getLast?_concat, ?_⟩
    rcases mem_append.mp hq with hq | hq
    · have hlt := (pairwise_append.mp h).2.2 q hq last (mem_singleton.mpr rfl)
      have hlast := last.first_le_last
      rw [le_def] at *
      rw [lt_def] at hlt
      omega
    · rw [mem_singleton.mp hq] at hle
      exact hle
  · rintro ⟨q, hlast, hle⟩
    exact ⟨q, mem_of_getLast? hlast, hle⟩

theorem Apart.exists_first_le_iff (h : Apart ps) :
    (∃ q ∈ ps, q.first ≤ addr) ↔ ∃ q, ps.head? = some q ∧ q.first ≤ addr := by
  constructor
  · rintro ⟨q, hq, hle⟩
    cases ps with
    | nil => cases hq
    | cons first rest =>
      refine ⟨first, rfl, ?_⟩
      rcases mem_cons.mp hq with rfl | hq
      · exact hle
      have hlt := (pairwise_cons.mp h).1 q hq
      have hfirst := first.first_le_last
      rw [le_def] at *
      rw [lt_def] at hlt
      omega
  · rintro ⟨q, hhead, hle⟩
    exact ⟨q, mem_of_mem_head? hhead, hle⟩

/-- **The neighbours decide.** A pool that conflicts with a collection does so next to it. -/
theorem neighbours_overlap_iff (h : Apart ps) :
    ((neighbours ps pool.first).1.any (fun p => p.first = pool.first) ||
      (neighbours ps pool.first).2.any (fun p => p.first ≤ pool.last) ||
      (neighbours ps pool.first).1.any (fun p => pool.first ≤ p.last)) = true ↔
      ∃ q ∈ ps, ¬pool.Disjoint q := by
  obtain ⟨before, behind, hsplit⟩ := h.split pool.first
  have hparts : Apart before ∧ Apart behind := by
    rw [hsplit.eq] at h
    exact ⟨(List.pairwise_append.mp h).1, (List.pairwise_append.mp h).2.1⟩
  have hpool := le_def.mp pool.first_le_last
  -- A pool that does not begin behind the new one conflicts if it does not end before it.
  have hbefore : (∃ q ∈ before, ¬pool.Disjoint q) ↔ ∃ q ∈ before, pool.first ≤ q.last := by
    refine exists_congr fun q => and_congr_right fun hq => ?_
    have hle := le_def.mp (hsplit.before_le q hq)
    simp only [Pool.Disjoint, lt_def, le_def]
    omega
  have hbehind : (∃ q ∈ behind, ¬pool.Disjoint q) ↔ ∃ q ∈ behind, q.first ≤ pool.last := by
    refine exists_congr fun q => and_congr_right fun hq => ?_
    have hlt := lt_def.mp (hsplit.lt_behind q hq)
    have hq' := le_def.mp q.first_le_last
    simp only [Pool.Disjoint, lt_def, le_def]
    omega
  have hall : (∃ q ∈ ps, ¬pool.Disjoint q) ↔
      (∃ q ∈ before, ¬pool.Disjoint q) ∨ ∃ q ∈ behind, ¬pool.Disjoint q := by
    rw [hsplit.eq]
    simp only [List.mem_append, or_and_right, exists_or]
  rw [hall, hbefore, hbehind, hparts.1.exists_le_last_iff, hparts.2.exists_first_le_iff,
    hsplit.neighbours_eq]
  simp only [Bool.or_eq_true, any_eq_true, decide_eq_true_eq]
  constructor
  · rintro ((⟨q, hq, hsame⟩ | h₃) | h₁)
    · exact .inl ⟨q, hq, hsame ▸ q.first_le_last⟩
    · exact .inr h₃
    · exact .inl h₁
  · rintro (h₁ | h₃)
    · exact .inr h₁
    · exact .inl (.inr h₃)

/-! ## The invariant -/

namespace SubnetPools

variable {s s' : SubnetPools w} {type : LeaseType} {classes : ClientClasses}

/-- The pools of all collections. -/
def allPools (s : SubnetPools w) : List (Pool w) := s.pools ++ s.poolsTa ++ s.poolsPd

structure WellFormed (s : SubnetPools w) : Prop where
  /-- Each collection is sorted by the first address. -/
  sorted : ∀ type, (s.getPools type).Pairwise fun p q => p.first ≤ q.first
  /-- No two pools of the subnet share an address. -/
  disjoint : s.allPools.Pairwise Pool.Disjoint
  /-- The pools of addresses lie in the prefix of the subnet. -/
  inside : ∀ p ∈ s.pools ++ s.poolsTa, s.inRange p.first ∧ s.inRange p.last
  /-- The pools are of the types that the subnet has. -/
  typed : ∀ p ∈ s.allPools, s.checkType p.type
  /-- A DHCPv4 subnet has one collection. -/
  ofFamily : s.isV6 = false → s.poolsTa = [] ∧ s.poolsPd = []

theorem getPools_sublist (s : SubnetPools w) (type : LeaseType) :
    (s.getPools type).Sublist s.allPools := by
  cases type with
  | v4 | na => exact (sublist_append_left _ _).trans (sublist_append_left _ _)
  | ta => exact (sublist_append_right _ _).trans (sublist_append_left _ _)
  | pd => exact sublist_append_right _ _

theorem WellFormed.apart (h : s.WellFormed) (type : LeaseType) : Apart (s.getPools type) :=
  apart_of_disjoint (h.sorted type) (h.disjoint.sublist (s.getPools_sublist type))

/-- The neighbours of a pool are all that has to be looked at. -/
theorem WellFormed.poolOverlaps_iff (h : s.WellFormed) :
    s.poolOverlaps type pool ↔ ∃ q ∈ s.getPools type, ¬pool.Disjoint q :=
  neighbours_overlap_iff (h.apart type)

/-! ### A pool more -/

theorem sortPools_perm (ps : List (Pool w)) (pool : Pool w) :
    (sortPools (ps ++ [pool])).Perm (pool :: ps) :=
  (perm_insertionSort _ _).trans (perm_append_singleton pool ps)

theorem allPools_withPool : (s.withPool pool).allPools.Perm (pool :: s.allPools) := by
  unfold withPool allPools
  cases pool.type with
  | v4 | na =>
    exact ((sortPools_perm s.pools pool).append_right _).append_right _
  | ta =>
    have hmid := (sortPools_perm s.poolsTa pool).append_left s.pools
    exact ((hmid.trans perm_middle).append_right _)
  | pd =>
    exact ((sortPools_perm s.poolsPd pool).append_left _).trans perm_middle

theorem sorted_withPool (hsorted : ∀ type, (s.getPools type).Pairwise fun p q => p.first ≤ q.first)
    (pool : Pool w) (type : LeaseType) :
    ((s.withPool pool).getPools type).Pairwise fun p q => p.first ≤ q.first := by
  have hnew := pairwise_insertionSort (fun p q => p.first ≤ q.first) (s.getPools pool.type ++ [pool])
  have hold := hsorted type
  unfold withPool
  -- The collection that the pool goes to was sorted anew, and the others are as they were.
  generalize s.getPools pool.type ++ [pool] = added at *
  cases pool.type <;> cases type <;> first | exact hnew | exact hold

theorem mem_addresses_withPool :
    p ∈ (s.withPool pool).pools ++ (s.withPool pool).poolsTa ↔
      p ∈ s.pools ++ s.poolsTa ∨ (p = pool ∧ pool.type ≠ .pd) := by
  unfold withPool
  cases htype : pool.type <;>
    simp only [setPools, getPools, mem_append, sortPools, mem_insertionSort] <;>
    grind

theorem withPool_inRange : (s.withPool pool).inRange addr = s.inRange addr := by
  unfold withPool
  cases pool.type <;> rfl

theorem withPool_isV6 : (s.withPool pool).isV6 = s.isV6 := by
  unfold withPool
  cases pool.type <;> rfl

theorem withPool_checkType : (s.withPool pool).checkType type = s.checkType type := by
  unfold checkType
  rw [withPool_isV6]

/-- What the checks of `addPool` have to find out. -/
structure Fits (s : SubnetPools w) (pool : Pool w) : Prop where
  typed : s.checkType pool.type
  inside : pool.type ≠ .pd → s.inRange pool.first ∧ s.inRange pool.last
  disjoint : ∀ q ∈ s.allPools, pool.Disjoint q

theorem WellFormed.withPool_iff (h : s.WellFormed) (pool : Pool w) :
    (s.withPool pool).WellFormed ↔ s.Fits pool := by
  have hmem : ∀ p, p ∈ (s.withPool pool).allPools ↔ p = pool ∨ p ∈ s.allPools := fun p => by
    rw [(allPools_withPool).mem_iff, mem_cons]
  have hdisjoint : (s.withPool pool).allPools.Pairwise Pool.Disjoint ↔
      ∀ q ∈ s.allPools, pool.Disjoint q := by
    rw [(allPools_withPool).pairwise_iff Pool.disjoint_comm.mp, pairwise_cons]
    exact and_iff_left h.disjoint
  constructor
  · intro hnew
    refine ⟨?_, fun hne => ?_, hdisjoint.mp hnew.disjoint⟩
    · have htype := hnew.typed pool ((hmem pool).mpr (.inl rfl))
      rwa [withPool_checkType] at htype
    · have hin := hnew.inside pool (mem_addresses_withPool.mpr (.inr ⟨rfl, hne⟩))
      rwa [withPool_inRange, withPool_inRange] at hin
  · intro hfits
    refine ⟨sorted_withPool h.sorted pool, hdisjoint.mpr hfits.disjoint, ?_, ?_, ?_⟩
    · intro p hp
      rw [withPool_inRange, withPool_inRange]
      rcases mem_addresses_withPool.mp hp with hp | ⟨rfl, hne⟩
      · exact h.inside p hp
      · exact hfits.inside hne
    · intro p hp
      rw [withPool_checkType]
      rcases (hmem p).mp hp with rfl | hp
      · exact hfits.typed
      · exact h.typed p hp
    · intro hv4
      rw [withPool_isV6] at hv4
      obtain ⟨hta, hpd⟩ := h.ofFamily hv4
      have hpool : pool.type = .v4 := by
        have htype := hfits.typed
        cases ht : pool.type <;> simp [checkType, ht, hv4] at htype ⊢
      unfold withPool
      rw [hpool]
      exact ⟨hta, hpd⟩

theorem WellFormed.overlapsAny_iff (h : s.WellFormed) (htype : s.checkType pool.type) :
    s.overlapsAny pool ↔ ∃ q ∈ s.allPools, ¬pool.Disjoint q := by
  unfold overlapsAny allPools
  by_cases hv4 : pool.type = .v4
  · have hfamily : s.isV6 = false := by simpa [checkType, hv4] using htype
    obtain ⟨hta, hpd⟩ := h.ofFamily hfamily
    rw [if_pos hv4, h.poolOverlaps_iff, hta, hpd, append_nil, append_nil]
    rfl
  · rw [if_neg hv4]
    simp only [Bool.or_eq_true, h.poolOverlaps_iff, mem_append, or_and_right,
      exists_or]
    exact or_right_comm

/-- **The checks are right.** A pool passes them exactly if it fits. -/
theorem WellFormed.addPoolError_eq_none_iff (h : s.WellFormed) (pool : Pool w) :
    s.addPoolError pool = none ↔ s.Fits pool := by
  unfold addPoolError
  split
  case isTrue htype =>
    refine iff_of_false (some_ne_none _) fun hfit => ?_
    simp [hfit.typed] at htype
  case isFalse htype =>
  have htype : s.checkType pool.type = true := by simpa using htype
  split
  case isTrue hout =>
    refine iff_of_false (some_ne_none _) fun hfit => ?_
    rw [Bool.and_eq_true, decide_eq_true_eq] at hout
    simp [hfit.inside hout.1] at hout
  case isFalse hin =>
  have hin : pool.type ≠ .pd → s.inRange pool.first ∧ s.inRange pool.last := by
    intro hne
    simpa [hne] using hin
  split
  case isTrue hoverlaps =>
    refine iff_of_false (some_ne_none _) fun hfit => ?_
    obtain ⟨q, hq, hqpool⟩ := (h.overlapsAny_iff htype).mp hoverlaps
    exact hqpool (hfit.disjoint q hq)
  case isFalse hdisjoint =>
    refine iff_of_true rfl ⟨htype, hin, fun q hq => ?_⟩
    by_contra hqpool
    exact hdisjoint ((h.overlapsAny_iff htype).mpr ⟨q, hq, hqpool⟩)

/-- A pool is added exactly if the invariant then holds. -/
theorem WellFormed.addPool_eq_ok_iff (h : s.WellFormed) (pool : Pool w) :
    addPool pool s = .ok () s' ↔ (s.withPool pool).WellFormed ∧ s' = s.withPool pool := by
  have hchecks := (h.addPoolError_eq_none_iff pool).trans (h.withPool_iff pool).symm
  rw [addPool_run]
  constructor
  · intro hok
    cases herror : s.addPoolError pool with
    | some e =>
      rw [herror] at hok
      cases hok
    | none =>
      rw [herror] at hok
      cases hok
      exact ⟨hchecks.mp herror, rfl⟩
  · rintro ⟨hnew, rfl⟩
    rw [hchecks.mpr hnew]

/-- A pool that is refused changes nothing. -/
theorem addPool_error {e : PoolError} (h : addPool pool s = .error e s') : s' = s := by
  rw [addPool_run] at h
  split at h
  · cases h
    rfl
  · cases h

/-! ### Whole configurations -/

theorem fresh_wellFormed (isV6 : Bool) (subnetPrefix : Address w) (prefixLen : Nat) :
    (fresh isV6 subnetPrefix prefixLen).WellFormed where
  sorted type := by cases type <;> exact .nil
  disjoint := .nil
  inside p hp := by cases hp
  typed p hp := by cases hp
  ofFamily _ := ⟨rfl, rfl⟩

theorem allPools_setPools_nil : (s.setPools [] type).allPools.Sublist s.allPools := by
  cases type with
  | v4 | na => exact ((nil_sublist _).append_right _).append_right _
  | ta => exact ((nil_sublist _).append_left _).append_right _
  | pd => exact (nil_sublist _).append_left _

theorem WellFormed.setPools_nil (h : s.WellFormed) : (s.setPools [] type).WellFormed where
  sorted other := by
    have hother := h.sorted other
    cases type <;> cases other <;> first | exact hother | exact .nil
  disjoint := h.disjoint.sublist allPools_setPools_nil
  inside p hp := by
    have hmem : p ∈ s.pools ++ s.poolsTa := by
      cases type <;> simp_all [setPools]
    have hin := h.inside p hmem
    cases type <;> exact hin
  typed p hp := by
    have htype := h.typed p ((allPools_setPools_nil).mem hp)
    cases type <;> exact htype
  ofFamily hv4 := by
    obtain ⟨hta, hpd⟩ := h.ofFamily (by cases type <;> exact hv4)
    cases type <;> simp [setPools, hta, hpd]

/-- Every change keeps the invariant. -/
theorem WellFormed.step (h : s.WellFormed) (change : Change w) : (step change s).WellFormed := by
  cases change with
  | add pool =>
    show (after (addPool pool) s).WellFormed
    rw [after]
    cases hrun : addPool pool s with
    | ok _ s' =>
      obtain ⟨hnew, rfl⟩ := (h.addPool_eq_ok_iff pool).mp hrun
      exact hnew
    | error e s' =>
      rw [addPool_error hrun]
      exact h
  | del type =>
    show (after (delPools type) s).WellFormed
    rw [after, delPools_run]
    split
    · exact h.setPools_nil
    · exact h

/-- The subnets that a sequence of `addPool` and `delPools` calls leads to. -/
def Configured (s : SubnetPools w) : Prop :=
  ∃ isV6 subnetPrefix prefixLen,
    Reaches step (fun _ _ => True) (fresh isV6 subnetPrefix prefixLen) s

/-- So it holds in every configuration. -/
theorem Configured.wellFormed (h : s.Configured) : s.WellFormed := by
  obtain ⟨isV6, subnetPrefix, prefixLen, hreach⟩ := h
  have hfresh := fresh_wellFormed isV6 subnetPrefix prefixLen
  exact hreach.inv hfresh fun change _ ht _ => ht.step change

/-! ### Looking up an address -/

theorem WellFormed.getPool_eq_some_iff (h : s.WellFormed) :
    s.getPool type classes addr = .ok (some p) ↔
      s.checkType type ∧ p ∈ s.getPools type ∧ p.inRange addr ∧ p.clientSupported classes := by
  obtain ⟨before, behind, hsplit⟩ := (h.apart type).split addr
  unfold getPool
  rw [hsplit.neighbours_eq]
  cases htype : s.checkType type with
  | false => simp
  | true =>
    simp only [Bool.not_true, Bool.false_eq_true, if_false, Except.ok.injEq,
      filter_eq_some_iff, Bool.and_eq_true, true_and]
    constructor
    · rintro ⟨hlast, hin⟩
      refine ⟨?_, hin⟩
      rw [hsplit.eq]
      exact mem_append_left _ (mem_of_getLast? hlast)
    · rintro ⟨hp, hin, hclass⟩
      exact ⟨hsplit.getLast?_eq_some (h.apart type) hp hin, hin, hclass⟩

theorem WellFormed.inRange_of_pool (h : s.WellFormed) (hp : p ∈ s.getPools type)
    (hin : p.inRange addr) : type = .pd ∨ s.inRange addr := by
  have hmem : type = .pd ∨ p ∈ s.pools ++ s.poolsTa := by
    cases type <;> simp_all [getPools]
  refine hmem.imp_right fun hmem => ?_
  obtain ⟨hfirst, hlast⟩ := h.inside p hmem
  simp only [inRange, inPrefix, Pool.inRange, Bool.and_eq_true, decide_eq_true_eq] at *
  exact ⟨BitVec.le_trans hfirst.1 hin.1, BitVec.le_trans hin.2 hlast.2⟩

theorem WellFormed.inPool_eq_true_iff (h : s.WellFormed) :
    s.inPool type addr classes = .ok true ↔
      s.checkType type ∧ ∃ p ∈ s.getPools type, p.inRange addr ∧ p.clientSupported classes := by
  unfold inPool
  split
  case isTrue hout =>
    refine iff_of_false (by simp) ?_
    rintro ⟨-, p, hp, hin, -⟩
    rcases h.inRange_of_pool hp hin with rfl | hrange
    · simp at hout
    · simp [hrange] at hout
  case isFalse =>
    cases s.checkType type with
    | false => simp
    | true => simp [and_comm]

/--
**The pools of a subnet** are sorted, disjoint and inside the subnet, however it came to them. A
pool is added exactly if that then holds still, and a failed call changes nothing. The binary search
finds a pool exactly if the linear search does, and one that contains the address and allows the
client.
-/
theorem configured_pools (h : s.Configured) :
    s.WellFormed ∧ (∀ pool s', addPool pool s = .ok () s' ↔
      (s.withPool pool).WellFormed ∧ s' = s.withPool pool) ∧
    (∀ pool e s', addPool pool s = .error e s' → s' = s) ∧
    ∀ type classes addr, ((∃ p, s.getPool type classes addr = .ok (some p)) ↔
        s.inPool type addr classes = .ok true) ∧
      ∀ p, s.getPool type classes addr = .ok (some p) →
        p ∈ s.getPools type ∧ p.inRange addr ∧ p.clientSupported classes := by
  have hwf := h.wellFormed
  refine ⟨hwf, fun pool _ => hwf.addPool_eq_ok_iff pool, fun _ _ _ => addPool_error, ?_⟩
  intro type classes addr
  refine ⟨?_, fun p hp => (hwf.getPool_eq_some_iff.mp hp).2⟩
  simp only [hwf.getPool_eq_some_iff, hwf.inPool_eq_true_iff, exists_and_left]

/-- 2001:db8:1::/64 with a pool of addresses, and with prefixes delegated from elsewhere. -/
theorem configured_pools_sample : let addresses : Pool 128 :=
      { id := 1, type := .na, first := 0x20010db8000100000000000000000010#128
        last := 0x20010db800010000000000000000001f#128, length := 128, capacity := 16
        clientClass := "", first_le_last := by decide }
    let prefixes : Pool 128 :=
      { id := 2, type := .pd, first := 0x20010db8100000000000000000000000#128
        last := 0x20010db81000ffffffffffffffffffff#128, length := 64, capacity := 65536
        clientClass := "", first_le_last := by decide }
    let s := step (.add prefixes) (step (.add addresses)
      (fresh true 0x20010db8000100000000000000000000#128 64))
    s.allPools = [addresses, prefixes] ∧ s.WellFormed ∧
      s.inPool .na 0x20010db8000100000000000000000013#128 [] = .ok true := by
  intro addresses prefixes s
  have hs : s.Configured := ⟨_, _, _, .next _ (.next _ .start trivial) trivial⟩
  refine ⟨by decide +kernel, (configured_pools hs).1, ?_⟩
  exact ((configured_pools hs).2.2.2 .na [] _).1.mp ⟨addresses, by decide +kernel⟩

/-! ### The subnets of the allocation engine -/

/-- The configured subnet, as the allocation engine gets to see it. -/
def toSubnet (s : SubnetPools w) (h : s.WellFormed) (network : Network) (id : SubnetID)
    (hid : 0 < id) : Subnet w :=
  { network with
    id := id
    subnetPrefix := s.subnetPrefix
    prefixLen := s.prefixLen
    pools := s.pools
    poolsTa := s.poolsTa
    poolsPd := s.poolsPd
    id_pos := hid
    pools_sorted := h.apart .na
    poolsTa_sorted := h.apart .ta
    poolsPd_sorted := h.apart .pd
    pools_inRange := h.inside }

variable (h : s.WellFormed) (network : Network) (id : SubnetID) (hid : 0 < id)

theorem toSubnet_getPools : (s.toSubnet h network id hid).getPools type = s.getPools type := by
  cases type <;> rfl

/-- The search that the allocation engine makes. -/
theorem getPool_toSubnet (htype : s.checkType type) :
    s.getPool type classes addr =
      .ok ((s.toSubnet h network id hid).getPool type classes addr) := by
  obtain ⟨before, behind, hsplit⟩ := (h.apart type).split addr
  rw [getPool, Subnet.getPool, toSubnet_getPools, hsplit.neighbours_eq, hsplit.takeWhile_eq]
  simp [htype]

theorem inPool_toSubnet (htype : s.checkType type) :
    s.inPool type addr classes =
      .ok ((s.toSubnet h network id hid).inPoolFor type addr classes) := by
  have hrange : (s.toSubnet h network id hid).inRange addr = s.inRange addr := rfl
  rw [inPool, Subnet.inPoolFor, toSubnet_getPools, hrange]
  by_cases hpd : type = .pd
  · subst hpd
    simp [htype]
  · cases s.inRange addr <;> simp [hpd, htype]

end SubnetPools

end Dhcp
