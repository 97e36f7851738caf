import KeaDhcp.Infra.Run
import KeaDhcp.Dhcpsrv.Allocator

/-!
# The order in which the allocator takes addresses

The iterative allocator keeps a cursor per pool and the pool it was in last. Seen from one client,
it works through a queue: the addresses ahead of the cursors, from that pool on. When the queue is
empty, all the pools that the client may use are taken from the beginning.
-/

namespace Dhcp

open Infra Pool Subnet List

variable {w : Nat} {type : LeaseType} {classes : ClientClasses} {clock : Time} {s : Subnet w}
  {p : Pool w} {ps : List (Pool w)} {a a' : AllocatorState w} {x : Address w}
variable {rest : List (Address w)} {post : List (Pool w)} {q first : Pool w}

/-! ## The addresses of a pool -/

variable {y : Address w}

namespace Pool

/-- The addresses of the pool from `n` on. -/
def addrsFrom (p : Pool w) (n : Nat) : List (Address w) :=
  (range' n (p.last.toNat + 1 - n)).map (BitVec.ofNat w)

def addrs (p : Pool w) : List (Address w) := p.addrsFrom p.first.toNat

theorem inRange_iff : p.inRange x ↔ p.first.toNat ≤ x.toNat ∧ x.toNat ≤ p.last.toNat := by
  simp [inRange, BitVec.le_def]

variable {n : Nat}

theorem addrsFrom_cons (hn : n ≤ p.last.toNat) :
    p.addrsFrom n = BitVec.ofNat w n :: p.addrsFrom (n + 1) := by
  have hlen : p.last.toNat + 1 - n = (p.last.toNat + 1 - (n + 1)) + 1 := by omega
  rw [addrsFrom, addrsFrom, hlen, range'_succ, map_cons]

theorem addrsFrom_nil (hn : p.last.toNat < n) : p.addrsFrom n = [] := by
  have hlen : p.last.toNat + 1 - n = 0 := by omega
  rw [addrsFrom, hlen]
  rfl

theorem addrs_cons : p.addrs = p.first :: p.addrsFrom (p.first.toNat + 1) := by
  rw [addrs, addrsFrom_cons (BitVec.le_def.mp p.first_le_last), BitVec.ofNat_toNat,
    BitVec.setWidth_eq]

theorem length_addrs : p.addrs.length = p.last.toNat + 1 - p.first.toNat := by
  rw [addrs, addrsFrom, length_map, length_range']

/-- The address behind the last one is not in the pool: it is not the whole address space. -/
def Bounded (p : Pool w) : Prop := p.inRange (p.last + 1) = false

theorem toNat_next : (x + 1).toNat = (x.toNat + 1) % 2 ^ w := by
  rw [BitVec.toNat_add, show (1 : BitVec w).toNat = 1 % 2 ^ w from BitVec.toNat_ofNat 1 w,
    Nat.add_mod_mod]

theorem whole_of_not_bounded (h : ¬p.Bounded) :
    p.first.toNat = 0 ∧ p.last.toNat + 1 = 2 ^ w ∧ p.last + 1 = p.first := by
  rw [Bounded, Bool.not_eq_false, inRange_iff] at h
  obtain ⟨hle, hle'⟩ := h
  have hwhole : p.last.toNat + 1 = 2 ^ w := by
    by_contra hne
    rw [toNat_next, Nat.mod_eq_of_lt (by omega)] at hle'
    omega
  rw [toNat_next, hwhole, Nat.mod_self] at hle
  have hfirst : p.first.toNat = 0 := Nat.le_zero.mp hle
  refine ⟨hfirst, hwhole, BitVec.eq_of_toNat_eq ?_⟩
  rw [toNat_next, hwhole, Nat.mod_self, hfirst]

/-- The next address, before the last one. -/
theorem next_inRange (hx : p.inRange x) (hne : x ≠ p.last) :
    p.inRange (x + 1) ∧ (x + 1).toNat = x.toNat + 1 := by
  obtain ⟨hle, hle'⟩ := inRange_iff.mp hx
  have hlt : x.toNat < p.last.toNat :=
    Nat.lt_of_le_of_ne hle' fun heq => hne (BitVec.eq_of_toNat_eq heq)
  have hnext : (x + 1).toNat = x.toNat + 1 := by
    rw [toNat_next, Nat.mod_eq_of_lt (by omega)]
  exact ⟨inRange_iff.mpr (by omega), hnext⟩

/-! ### Cursors -/

/-- The addresses that lie ahead of a cursor: all of a pool that was set back, none of a finished one. -/
def ahead (p : Pool w) (hint : Address w × Bool) : List (Address w) :=
  if hint.2 then p.addrsFrom (hint.1.toNat + 1) else if hint.1 = p.first then p.addrs else []

/-- A cursor that is valid is in the pool, and any other is at one of its ends. -/
structure KeptHint (p : Pool w) (hint : Address w × Bool) : Prop where
  valid : hint.2 = true → p.inRange hint.1
  invalid : hint.2 = false → hint.1 = p.first ∨ hint.1 = p.last

theorem ahead_first : p.ahead (p.first, false) = p.addrs := by simp [ahead]

theorem ahead_valid : p.ahead (x, true) = p.addrsFrom (x.toNat + 1) := by simp [ahead]

theorem keptHint_first (p : Pool w) (valid : Bool) : p.KeptHint (p.first, valid) :=
  ⟨fun _ => p.inRange_first, fun _ => .inl rfl⟩

theorem ahead_invalid_eq_nil (h : p.ahead (x, false) = []) : x ≠ p.first := by
  rintro rfl
  rw [ahead_first, addrs_cons] at h
  cases h

theorem ahead_valid_eq_nil (hx : p.inRange x) (h : p.ahead (x, true) = []) : x = p.last := by
  by_contra hne
  obtain ⟨hnext, hnat⟩ := next_inRange hx hne
  have hle := (inRange_iff.mp hnext).2
  rw [ahead_valid, addrsFrom_cons (by omega)] at h
  cases h

/-- The cursor moves to the address that is picked. -/
theorem ahead_valid_eq_cons (hx : p.inRange x) (h : p.ahead (x, true) = y :: rest) :
    y = x + 1 ∧ p.inRange y ∧ p.ahead (y, true) = rest := by
  have hne : x ≠ p.last := by
    rintro rfl
    rw [ahead_valid, addrsFrom_nil (by omega)] at h
    cases h
  obtain ⟨hnext, hnat⟩ := next_inRange hx hne
  have hle := (inRange_iff.mp hnext).2
  rw [ahead_valid, addrsFrom_cons (by omega), ← hnat, BitVec.ofNat_toNat,
    BitVec.setWidth_eq] at h
  obtain ⟨rfl, rfl⟩ := h
  exact ⟨rfl, hnext, ahead_valid⟩

theorem ahead_invalid_eq_cons {hint : Address w} (h : p.ahead (hint, false) = y :: rest) :
    y = p.first ∧ hint = p.first ∧ p.ahead (y, true) = rest := by
  by_cases hfirst : hint = p.first
  · subst hfirst
    rw [ahead_first, addrs_cons] at h
    obtain ⟨rfl, rfl⟩ := h
    exact ⟨rfl, rfl, ahead_valid⟩
  · simp [ahead, hfirst] at h

end Pool

/-! ## The search through the pools -/

variable {id : Nat}

namespace AllocatorState

@[simp] theorem poolLast_setPool (a : AllocatorState w) (p : Pool w) (x : Address w) (valid : Bool) :
    (a.setPool p x valid).poolLast p.id = (x, valid) := by simp [setPool]

theorem poolLast_setPool_of_ne (h : id ≠ p.id) {valid : Bool} :
    (a.setPool p x valid).poolLast id = a.poolLast id := by simp [setPool, h]

theorem setPool_setPool {v v' : Bool} : (a.setPool p x v).setPool p y v' = a.setPool p y v' := by
  simp only [setPool, mk.injEq, and_true]
  funext id
  split <;> rfl

@[simp] theorem poolLast_setSubnet : (a.setSubnet clock s type x).poolLast = a.poolLast := rfl

@[simp] theorem subnetLast_setSubnet :
    (a.setSubnet clock s type x).subnetLast s.id type = x := by simp [setSubnet]

/-- The addresses ahead of the cursors, through the pools in their order. -/
def aheadIn (a : AllocatorState w) (ps : List (Pool w)) : List (Address w) :=
  ps.flatMap fun p => p.ahead (a.poolLast p.id)

def KeptIn (a : AllocatorState w) (ps : List (Pool w)) : Prop :=
  ∀ p ∈ ps, p.KeptHint (a.poolLast p.id)

theorem aheadIn_cons :
    a.aheadIn (p :: ps) = p.ahead (a.poolLast p.id) ++ a.aheadIn ps := flatMap_cons

theorem aheadIn_congr (h : ∀ p ∈ ps, a'.poolLast p.id = a.poolLast p.id) :
    a'.aheadIn ps = a.aheadIn ps := by
  exact flatMap_congr fun p hp => by rw [h p hp]

end AllocatorState

open AllocatorState

theorem increaseAddress_of_ne_pd (htype : type ≠ .pd) {len : Nat} :
    increaseAddress type len x = x + 1 := by rw [increaseAddress, if_neg htype]

/-- A pool with addresses ahead of its cursor: the search ends there, at the first of them. -/
theorem pickFrom_cons_next (htype : type ≠ .pd) (hkept : p.KeptHint (a.poolLast p.id))
    (h : p.ahead (a.poolLast p.id) = x :: rest) :
    p.inRange x ∧ p.ahead (x, true) = rest ∧
      pickFrom clock type s (p :: ps) a =
        (some x, (a.setPool p x true).setSubnet clock s type x) := by
  obtain ⟨hvalid, -⟩ := hkept
  rw [pickFrom]
  generalize a.poolLast p.id = hint at *
  obtain ⟨last, valid⟩ := hint
  cases valid with
  | false =>
    obtain ⟨rfl, rfl, hrest⟩ := ahead_invalid_eq_cons h
    exact ⟨p.inRange_first, hrest, by simp⟩
  | true =>
    have hin : p.inRange last := hvalid rfl
    obtain ⟨rfl, hnext, hrest⟩ := ahead_valid_eq_cons hin h
    refine ⟨hnext, hrest, ?_⟩
    simp only [Bool.not_true, Bool.false_and, Bool.true_and, Bool.false_eq_true, if_false, if_true,
      hin, increaseAddress_of_ne_pd htype, hnext]

/-- A pool that is finished: the search goes on behind it. -/
theorem pickFrom_cons_finished (clock : Time) (s : Subnet w) (ps : List (Pool w))
    (htype : type ≠ .pd) (hbounded : p.Bounded)
    (hkept : p.KeptHint (a.poolLast p.id)) (h : p.ahead (a.poolLast p.id) = []) :
    ∃ b : AllocatorState w, pickFrom clock type s (p :: ps) a = pickFrom clock type s ps b ∧
      p.KeptHint (b.poolLast p.id) ∧ ∀ id, id ≠ p.id → b.poolLast id = a.poolLast id := by
  have hkept' := hkept
  obtain ⟨hvalid, -⟩ := hkept
  rw [pickFrom]
  generalize hhint : a.poolLast p.id = hint at *
  obtain ⟨last, valid⟩ := hint
  cases valid with
  | false =>
    exact ⟨a, by simp [ahead_invalid_eq_nil h], by rwa [hhint], fun _ _ => rfl⟩
  | true =>
    have hin : p.inRange last := hvalid rfl
    obtain rfl := ahead_valid_eq_nil hin h
    refine ⟨a.setPool p p.last false, ?_, ?_, fun id hid => poolLast_setPool_of_ne hid⟩
    · have hend : p.inRange (p.last + 1) = false := hbounded
      simp only [Bool.not_true, Bool.false_and, Bool.true_and, Bool.false_eq_true, if_false, if_true,
        hin, increaseAddress_of_ne_pd htype, hend]
    · rw [poolLast_setPool]
      exact ⟨fun hfalse => absurd hfalse Bool.false_ne_true, fun _ => Or.inr rfl⟩

/-- All pools are finished: nothing is found. -/
theorem pickFrom_none (htype : type ≠ .pd) (hbounded : ∀ p ∈ ps, p.Bounded)
    (hids : (ps.map (·.id)).Nodup) (hkept : a.KeptIn ps) (hahead : a.aheadIn ps = []) :
    ∃ a', pickFrom clock type s ps a = (none, a') ∧
      ∀ id, id ∉ ps.map (·.id) → a'.poolLast id = a.poolLast id := by
  induction ps generalizing a with
  | nil => exact ⟨a, rfl, fun _ _ => rfl⟩
  | cons p ps ih =>
    rw [map_cons, nodup_cons] at hids
    rw [aheadIn_cons, append_eq_nil_iff] at hahead
    obtain ⟨b, hpick, -, hframe⟩ := pickFrom_cons_finished clock s ps htype
      (hbounded p mem_cons_self) (hkept p mem_cons_self) hahead.1
    have hrest : ∀ q ∈ ps, b.poolLast q.id = a.poolLast q.id := fun q hq =>
      hframe q.id fun heq => hids.1 (heq ▸ mem_map_of_mem hq)
    have hkeptb : b.KeptIn ps := fun q hq => hrest q hq ▸ hkept q (mem_cons_of_mem p hq)
    obtain ⟨a', hpick', hframe'⟩ := ih (fun q hq => hbounded q (mem_cons_of_mem p hq)) hids.2
      hkeptb ((aheadIn_congr hrest).trans hahead.2)
    refine ⟨a', hpick.trans hpick', fun id hid => ?_⟩
    rw [map_cons, mem_cons, not_or] at hid
    rw [hframe' id hid.2, hframe id hid.1]

/--
Some pool is not finished: the first address ahead is found. What is left lies ahead in the pools
from there on.
-/
theorem pickFrom_some (htype : type ≠ .pd) (hbounded : ∀ p ∈ ps, p.Bounded ∨ ps = [p])
    (hids : (ps.map (·.id)).Nodup) (hkept : a.KeptIn ps) (hahead : a.aheadIn ps = x :: rest) :
    ∃ a' pre q post, pickFrom clock type s ps a = (some x, a') ∧ ps = pre ++ q :: post ∧
      q.inRange x ∧ a'.aheadIn (q :: post) = rest ∧ a'.subnetLast s.id type = x ∧ a'.KeptIn ps ∧
      ∀ id, id ∉ ps.map (·.id) → a'.poolLast id = a.poolLast id := by
  induction ps generalizing a with
  | nil => cases hahead
  | cons p ps ih =>
    rw [map_cons, nodup_cons] at hids
    have hne : ∀ q ∈ ps, q.id ≠ p.id := fun q hq heq =>
      hids.1 (heq ▸ mem_map_of_mem hq)
    have hkeptp := hkept p mem_cons_self
    have hkeptps : a.KeptIn ps := fun q hq => hkept q (mem_cons_of_mem p hq)
    rw [aheadIn_cons] at hahead
    cases hp : p.ahead (a.poolLast p.id) with
    | cons y ys =>
      obtain ⟨hin, hys, hpick⟩ :=
        pickFrom_cons_next htype hkeptp hp
      rw [hp, cons_append, cons.injEq] at hahead
      obtain ⟨rfl, rfl⟩ := hahead
      have hrest : ∀ q ∈ ps, ((a.setPool p y true).setSubnet clock s type y).poolLast q.id =
          a.poolLast q.id := fun q hq => poolLast_setPool_of_ne (hne q hq)
      refine ⟨_, [], p, ps, hpick, rfl, hin, ?_, subnetLast_setSubnet, ?_, ?_⟩
      · rw [aheadIn_cons, aheadIn_congr hrest, poolLast_setSubnet, poolLast_setPool, hys]
      · rintro q (_ | ⟨_, hq⟩)
        · rw [poolLast_setSubnet, poolLast_setPool]
          exact ⟨fun _ => hin, fun hfalse => absurd hfalse.symm Bool.false_ne_true⟩
        · rw [hrest q hq]
          exact hkeptps q hq
      · intro id hid
        rw [map_cons, mem_cons, not_or] at hid
        exact poolLast_setPool_of_ne hid.1
    | nil =>
      have hps : ps ≠ [] := by
        rintro rfl
        rw [hp] at hahead
        cases hahead
      have hboth : ∀ q ∈ p :: ps, q.Bounded := fun q hq =>
        (hbounded q hq).resolve_right fun heq => hps (cons.inj heq).2
      obtain ⟨b, hpick, hkeptb, hframe⟩ := pickFrom_cons_finished clock s ps
        htype (hboth p mem_cons_self) hkeptp hp
      have hrest : ∀ q ∈ ps, b.poolLast q.id = a.poolLast q.id := fun q hq => hframe q.id (hne q hq)
      rw [hp, ← aheadIn_congr hrest] at hahead
      obtain ⟨a', pre, q, post, hpick', rfl, hin, hleft, hlast, hkept', hframe'⟩ :=
        ih (fun q hq => .inl (hboth q (mem_cons_of_mem p hq))) hids.2
          (fun q hq => hrest q hq ▸ hkeptps q hq) hahead
      refine ⟨a', p :: pre, q, post, hpick.trans hpick', rfl, hin, hleft, hlast, ?_, ?_⟩
      · rintro r (_ | ⟨_, hr⟩)
        · rw [hframe' p.id hids.1]
          exact hkeptb
        · exact hkept' r hr
      · intro id hid
        rw [map_cons, mem_cons, not_or] at hid
        rw [hframe' id hid.2, hframe id hid.1]

theorem rewindPools_poolLast (ps : List (Pool w)) (a : AllocatorState w) (id : Nat) :
    (rewindPools ps a).poolLast id = a.poolLast id ∨
      ∃ p ∈ ps, p.id = id ∧ (rewindPools ps a).poolLast id = (p.first, false) := by
  induction ps generalizing a with
  | nil => exact .inl rfl
  | cons p ps ih =>
    rcases ih (a.setPool p p.first false) with h | ⟨q, hq, hid, h⟩
    · by_cases hp : id = p.id
      · subst hp
        exact .inr ⟨p, mem_cons_self, rfl, h.trans (poolLast_setPool a p _ _)⟩
      · exact .inl (h.trans (poolLast_setPool_of_ne hp))
    · exact .inr ⟨q, mem_cons_of_mem p hq, hid, h⟩

/-- A pool that is rewound starts over. -/
theorem rewindPools_mem (hids : (ps.map (·.id)).Nodup) (hp : p ∈ ps) (a : AllocatorState w) :
    (rewindPools ps a).poolLast p.id = (p.first, false) := by
  induction ps generalizing a with
  | nil => cases hp
  | cons q ps ih =>
    rw [map_cons, nodup_cons] at hids
    rcases mem_cons.mp hp with rfl | hp
    · rcases rewindPools_poolLast ps (a.setPool p p.first false) p.id with h | ⟨r, hr, hid, -⟩
      · exact h.trans (poolLast_setPool a p _ _)
      · exact absurd (hid ▸ mem_map_of_mem hr) hids.1
    · exact ih hids.2 hp _

theorem rewindPools_not_mem (hid : id ∉ ps.map (·.id)) :
    (rewindPools ps a).poolLast id = a.poolLast id := by
  rcases rewindPools_poolLast ps a id with h | ⟨p, hp, rfl, -⟩
  · exact h
  · exact absurd (mem_map_of_mem hp) hid

/-! ## The queue -/

namespace Subnet

/-- The pools that the client may use. -/
def allowedPools (s : Subnet w) (type : LeaseType) (classes : ClientClasses) : List (Pool w) :=
  (s.getPools type).filter (·.clientSupported classes)

/-- The addresses that the client may use, pool by pool. -/
def allAddrs (s : Subnet w) (type : LeaseType) (classes : ClientClasses) : List (Address w) :=
  (s.allowedPools type classes).flatMap addrs

theorem getPools_sorted (s : Subnet w) (type : LeaseType) :
    (s.getPools type).Pairwise fun p q => p.last < q.first := by
  cases type with
  | v4 | na => exact s.pools_sorted
  | ta => exact s.poolsTa_sorted
  | pd => exact s.poolsPd_sorted

theorem allowedPools_sorted (s : Subnet w) (type : LeaseType) (classes : ClientClasses) :
    (s.allowedPools type classes).Pairwise fun p q => p.last < q.first :=
  (s.getPools_sorted type).sublist filter_sublist

variable {pre : List (Pool w)}

theorem not_inRange_before {r : Pool w}
    (hsorted : (pre ++ q :: post).Pairwise fun p q => p.last < q.first) (hr : r ∈ pre)
    (hq : q.inRange x) : r.inRange x = false := by
  have hlt := (pairwise_append.mp hsorted).2.2 r hr q mem_cons_self
  rw [BitVec.lt_def] at hlt
  have hq := (inRange_iff.mp hq).1
  by_contra hin
  have hr := (inRange_iff.mp (Bool.of_not_eq_false hin)).2
  omega

theorem dropWhile_of_inRange (hsorted : (pre ++ q :: post).Pairwise fun p q => p.last < q.first)
    (hq : q.inRange x) : (pre ++ q :: post).dropWhile (fun p => !p.inRange x) = q :: post := by
  rw [dropWhile_append_of_pos, dropWhile_cons_of_neg (by simp [hq])]
  intro r hr
  rw [not_inRange_before hsorted hr hq]
  rfl

/-- The pools from the one with the address that was picked last on; all without such a pool. -/
def startPools (s : Subnet w) (type : LeaseType) (classes : ClientClasses) (a : AllocatorState w) :
    List (Pool w) :=
  let fromLast :=
    (s.allowedPools type classes).dropWhile fun p => !p.inRange (a.subnetLast s.id type)
  if fromLast.isEmpty then s.allowedPools type classes else fromLast

/-- The addresses that the allocator has before it for a client, before it starts over. -/
def pending (s : Subnet w) (type : LeaseType) (classes : ClientClasses) (a : AllocatorState w) :
    List (Address w) :=
  a.aheadIn (s.startPools type classes a)

/-- The search begins inside the list of the pools. -/
theorem startPools_suffix (s : Subnet w) (type : LeaseType) (classes : ClientClasses)
    (a : AllocatorState w) : s.startPools type classes a <:+ s.allowedPools type classes := by
  unfold startPools
  dsimp only
  split
  · exact suffix_refl _
  · exact dropWhile_suffix _

theorem startPools_subset : s.startPools type classes a ⊆ s.getPools type :=
  List.Subset.trans (s.startPools_suffix type classes a).subset filter_sublist.subset

theorem startPools_of_inRange (pre : List (Pool w))
    (hallowed : s.allowedPools type classes = pre ++ q :: post)
    (hq : q.inRange (a.subnetLast s.id type)) : s.startPools type classes a = q :: post := by
  have hsorted := hallowed ▸ s.allowedPools_sorted type classes
  unfold startPools
  rw [hallowed, dropWhile_of_inRange hsorted hq]
  rfl

theorem allowedPools_of_not_bounded (hp : p ∈ s.allowedPools type classes) (h : ¬p.Bounded) :
    s.allowedPools type classes = [p] := by
  obtain ⟨hfirst, hlast, -⟩ := whole_of_not_bounded h
  obtain ⟨pre, post, hsplit⟩ := append_of_mem hp
  have hsorted := hsplit ▸ s.allowedPools_sorted type classes
  obtain ⟨-, htail, hcross⟩ := pairwise_append.mp hsorted
  have hpre : pre = [] := by
    rw [eq_nil_iff_forall_not_mem]
    intro r hr
    have hlt := BitVec.lt_def.mp (hcross r hr p mem_cons_self)
    omega
  have hpost : post = [] := by
    rw [eq_nil_iff_forall_not_mem]
    intro r hr
    have hlt := BitVec.lt_def.mp ((pairwise_cons.mp htail).1 r hr)
    omega
  rw [hsplit, hpre, hpost, nil_append]

end Subnet

/-! ## One pick -/

/-- All pools are finished: the first one is started over, and the others are set back. -/
def startOver (clock : Time) (type : LeaseType) (s : Subnet w) (first : Pool w) (rest : List (Pool w))
    (a : AllocatorState w) : AllocatorState w :=
  ((rewindPools (first :: rest) a).setPool first first.first true).setSubnet clock s type first.first

/-- First the pools ahead, then all pools anew. -/
theorem pickAddress_eq {rest : List (Pool w)}
    (hallowed : s.allowedPools type classes = first :: rest) :
    pickAddress clock type s classes a =
      match pickFrom clock type s (s.startPools type classes a) a with
      | (some addr, a') => some (addr, a')
      | (none, a') => some (first.first, startOver clock type s first rest a') := by
  have hpools : (s.getPools type).filter (·.clientSupported classes) = first :: rest := hallowed
  simp only [pickAddress, hpools, startPools, hallowed]
  rfl

section Pick

variable (hids : ((s.getPools type).map (·.id)).Nodup)
include hids

theorem allowedPools_ids_nodup : ((s.allowedPools type classes).map (·.id)).Nodup :=
  hids.sublist (filter_sublist.map _)

theorem id_not_mem_of_not_mem {l : List (Pool w)} (hl : l ⊆ s.getPools type)
    (hp : p ∈ s.getPools type) (hnot : p ∉ l) : p.id ∉ l.map (·.id) := by
  rw [mem_map]
  rintro ⟨q, hq, hid⟩
  exact hnot (inj_on_of_nodup_map hids (hl hq) hp hid ▸ hq)

/-- After a rewind the first address is taken. -/
theorem startOver_takes {rest : List (Pool w)}
    (hallowed : s.allowedPools type classes = first :: rest)
    (hkept : ∀ p ∈ s.getPools type, p ∉ first :: rest → p.KeptHint (a.poolLast p.id)) :
    (startOver clock type s first rest a).KeptIn (s.getPools type) ∧
      first.first :: s.pending type classes (startOver clock type s first rest a) =
        s.allAddrs type classes := by
  have hnodup := hallowed ▸ allowedPools_ids_nodup hids
  have hsub : first :: rest ⊆ s.getPools type := hallowed ▸ filter_sublist.subset
  have hfirst : (startOver clock type s first rest a).poolLast first.id = (first.first, true) := by
    rw [startOver, poolLast_setSubnet, poolLast_setPool]
  have hrest : ∀ p ∈ rest, (startOver clock type s first rest a).poolLast p.id = (p.first, false) := by
    intro p hp
    have hne : p.id ≠ first.id := by
      intro heq
      rw [map_cons, nodup_cons, ← heq] at hnodup
      exact hnodup.1 (mem_map_of_mem hp)
    rw [startOver, poolLast_setSubnet, poolLast_setPool_of_ne hne,
      rewindPools_mem hnodup (mem_cons_of_mem first hp)]
  refine ⟨fun p hp => ?_, ?_⟩
  · by_cases hmem : p ∈ first :: rest
    · rcases mem_cons.mp hmem with rfl | hmem
      · exact hfirst ▸ p.keptHint_first true
      · exact hrest p hmem ▸ p.keptHint_first false
    · have hnot := id_not_mem_of_not_mem hids hsub hp hmem
      have hne : p.id ≠ first.id := fun heq => hnot (heq ▸ mem_map_of_mem mem_cons_self)
      rw [startOver, poolLast_setSubnet, poolLast_setPool_of_ne hne, rewindPools_not_mem hnot]
      exact hkept p hp hmem
  · have hin : first.inRange ((startOver clock type s first rest a).subnetLast s.id type) := by
      rw [startOver, subnetLast_setSubnet]
      exact first.inRange_first
    have hstart := startPools_of_inRange [] hallowed hin
    have hothers : (startOver clock type s first rest a).aheadIn rest = rest.flatMap addrs :=
      flatMap_congr fun p hp => by rw [hrest p hp, ahead_first]
    rw [pending, hstart, aheadIn_cons, hfirst, hothers, allAddrs, hallowed,
      flatMap_cons, addrs_cons, ahead_valid, cons_append]

section

variable (htype : type ≠ .pd) (hkept : a.KeptIn (s.getPools type))

include htype hkept

/-- The head of the queue is picked, and the rest of it remains. -/
theorem pickAddress_of_pending {queue : List (Address w)}
    (hqueue : s.pending type classes a = x :: queue) :
    ∃ a', pickAddress clock type s classes a = some (x, a') ∧ a'.KeptIn (s.getPools type) ∧
      s.pending type classes a' = queue := by
  obtain ⟨front, hfront⟩ := s.startPools_suffix type classes a
  have hstart : s.startPools type classes a ⊆ s.allowedPools type classes :=
    (s.startPools_suffix type classes a).subset
  have hbounded : ∀ p ∈ s.startPools type classes a,
      p.Bounded ∨ s.startPools type classes a = [p] := by
    intro p hp
    refine or_iff_not_imp_left.mpr fun h => ?_
    rw [allowedPools_of_not_bounded (hstart hp) h] at hfront
    obtain ⟨-, hsingle⟩ | ⟨-, hnil⟩ := append_eq_singleton_iff.mp hfront
    · exact hsingle
    · rw [hnil] at hp
      cases hp
  obtain ⟨a', pre, q, post, hpick, hsplit, hin, hleft, hlast, hkept', hframe⟩ :=
    pickFrom_some htype hbounded
      ((allowedPools_ids_nodup hids).sublist
        ((s.startPools_suffix type classes a).sublist.map _))
      (fun p hp => hkept p (startPools_subset hp)) hqueue
  have hq : q ∈ s.allowedPools type classes :=
    hstart (hsplit ▸ mem_append_right pre mem_cons_self)
  obtain ⟨first, rest, hallowed⟩ := exists_cons_of_ne_nil (ne_nil_of_mem hq)
  refine ⟨a', by rw [pickAddress_eq hallowed, hpick], fun p hp => ?_, ?_⟩
  · by_cases hmem : p ∈ s.startPools type classes a
    · exact hkept' p hmem
    · rw [hframe p.id (id_not_mem_of_not_mem hids startPools_subset hp hmem)]
      exact hkept p hp
  · have hall : s.allowedPools type classes = (front ++ pre) ++ q :: post := by
      rw [← hfront, hsplit, append_assoc]
    rw [pending, startPools_of_inRange _ hall (hlast.symm ▸ hin), hleft]

/-- With nothing left in the queue, the search starts over. -/
theorem pickAddress_startOver {rest : List (Pool w)}
    (hallowed : s.allowedPools type classes = first :: rest)
    (hqueue : s.pending type classes a = []) :
    ∃ b, pickAddress clock type s classes a = some (first.first, startOver clock type s first rest b) ∧
      ∀ id, id ∉ (first :: rest).map (·.id) → b.poolLast id = a.poolLast id := by
  have hsuffix := s.startPools_suffix type classes a
  by_cases hbounded : ∀ p ∈ s.startPools type classes a, p.Bounded
  · obtain ⟨b, hpick, hframe⟩ := pickFrom_none htype hbounded
      ((allowedPools_ids_nodup hids).sublist (hsuffix.sublist.map _))
      (fun p hp => hkept p (startPools_subset hp)) hqueue
    refine ⟨b, by rw [pickAddress_eq hallowed, hpick], fun id hid => hframe id fun hmem => hid ?_⟩
    rw [← hallowed]
    exact (hsuffix.sublist.map _).subset hmem
  · -- The only pool is the whole address space, which wraps around by itself.
    push Not at hbounded
    obtain ⟨p, hp, hwhole⟩ := hbounded
    have hone := allowedPools_of_not_bounded (hsuffix.subset hp) hwhole
    obtain ⟨rfl, rfl⟩ : p = first ∧ [] = rest := cons.inj (hone.symm.trans hallowed)
    obtain ⟨-, -, hwrap⟩ := whole_of_not_bounded hwhole
    have hstart : s.startPools type classes a = [p] := by
      rw [hone] at hsuffix
      exact (suffix_cons_iff.mp hsuffix).resolve_right fun h => by
        rw [suffix_nil.mp h] at hp
        cases hp
    rw [pending, hstart, aheadIn_cons, append_eq_nil_iff] at hqueue
    have hkeptp := hkept p (startPools_subset hp)
    refine ⟨a, ?_, fun _ _ => rfl⟩
    rw [pickAddress_eq hallowed, hstart, pickFrom]
    generalize a.poolLast p.id = hint at *
    obtain ⟨last, valid⟩ := hint
    cases valid with
    | false => simp [ahead_invalid_eq_nil hqueue.1, pickFrom]
    | true =>
      have hin : p.inRange last := hkeptp.valid rfl
      obtain rfl := ahead_valid_eq_nil hin hqueue.1
      simp only [Bool.not_true, Bool.false_and, Bool.true_and, Bool.false_eq_true, if_false, if_true,
        hin, increaseAddress_of_ne_pd htype, hwrap, p.inRange_first, startOver, rewindPools,
        foldl_cons, foldl_nil, setPool_setPool]

/-- `pickAddress` takes the head of the queue, which it fills anew if it is empty. -/
theorem pickAddress_takes (hallowed : s.allowedPools type classes ≠ []) :
    ∃ x a', pickAddress clock type s classes a = some (x, a') ∧ a'.KeptIn (s.getPools type) ∧
      x :: s.pending type classes a' =
        if s.pending type classes a = [] then s.allAddrs type classes
        else s.pending type classes a := by
  cases hqueue : s.pending type classes a with
  | cons x queue =>
    obtain ⟨a', hpick, hkept', hleft⟩ :=
      pickAddress_of_pending hids htype hkept hqueue
    exact ⟨x, a', hpick, hkept', by rw [hleft, if_neg (cons_ne_nil x queue)]⟩
  | nil =>
    obtain ⟨first, rest, hcons⟩ := exists_cons_of_ne_nil hallowed
    obtain ⟨b, hpick, hframe⟩ :=
      pickAddress_startOver hids htype hkept hcons hqueue
    have hsub : first :: rest ⊆ s.getPools type := hcons ▸ filter_sublist.subset
    obtain ⟨hkept', htakes⟩ := startOver_takes (a := b) hids hcons
      fun p hp hnot => by
        rw [hframe p.id (id_not_mem_of_not_mem hids hsub hp hnot)]
        exact hkept p hp
    exact ⟨_, _, hpick, hkept', by rw [htakes, if_pos rfl]⟩

end

end Pick

/-! ## Sequences of picks -/

/-- The cursors of a subnet whose pools have just been configured. -/
structure IsFresh (s : Subnet w) (type : LeaseType) (a : AllocatorState w) : Prop where
  pools : ∀ p ∈ s.getPools type, a.poolLast p.id = (p.first, false)
  subnet : a.subnetLast s.id type = lastAddrInPrefix s.subnetPrefix s.prefixLen

/-- A pick at a time for a client with some classes; without a pool for the client it throws. -/
def pickStep (s : Subnet w) (type : LeaseType) (pick : Time × ClientClasses) (a : AllocatorState w) :
    AllocatorState w :=
  ((pickAddress pick.1 type s pick.2 a).map Prod.snd).getD a

/-- The cursors after any picks for any clients. -/
def PicksReach (s : Subnet w) (type : LeaseType) (fresh a : AllocatorState w) : Prop :=
  Reaches (pickStep s type) (fun _ _ => True) fresh a

theorem pickAddress_of_no_pool (h : s.allowedPools type classes = []) :
    pickAddress clock type s classes a = none := by
  have hpools : (s.getPools type).filter (·.clientSupported classes) = [] := h
  simp only [pickAddress, hpools]

theorem pickStep_kept (hids : ((s.getPools type).map (·.id)).Nodup) (htype : type ≠ .pd)
    {pick : Time × ClientClasses} (hkept : a.KeptIn (s.getPools type)) :
    (pickStep s type pick a).KeptIn (s.getPools type) := by
  unfold pickStep
  by_cases hallowed : s.allowedPools type pick.2 = []
  · rw [pickAddress_of_no_pool hallowed]
    exact hkept
  · obtain ⟨x, a', hpick, hkept', -⟩ := pickAddress_takes hids htype hkept hallowed
    rw [hpick]
    exact hkept'

/-- The hints stay in their pools in every run. -/
theorem PicksReach.kept {fresh : AllocatorState w} (h : PicksReach s type fresh a)
    (hfresh : IsFresh s type fresh) (hids : ((s.getPools type).map (·.id)).Nodup)
    (htype : type ≠ .pd) : a.KeptIn (s.getPools type) :=
  Reaches.inv (I := fun b => b.KeptIn (s.getPools type)) h
    (fun p hp => hfresh.pools p hp ▸ p.keptHint_first false)
    fun _ _ hkept _ => pickStep_kept hids htype hkept

end Dhcp
