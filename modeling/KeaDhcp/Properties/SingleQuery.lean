import KeaDhcp.Infra.Assoc
import KeaDhcp.Properties.Allocate6

/-!
# One query for all reservations of a client

In a shared network `findReservation` may fetch the reservations of a client with one query per
identifier, and not with one per subnet and identifier. A query per subnet stops at the first
identifier that has a host; the map of the single queries keeps the last one.
-/

namespace Dhcp

open Infra Host Sample HostMgr SubnetPtr List

variable {env : Env} {m : HostMgr} {subnetOf : Host → SubnetID} {subnet : SubnetID}
  {ids : List IdentifierPair}

/-! ## The host of an identifier -/

variable {id : IdentifierPair}

namespace HostMgr

/-- All hosts, source by source. -/
def hosts (m : HostMgr) : List Host := m.sources.flatMap CfgHosts.hosts

/-- At most one host of the subnet per identifier. -/
def SingleIn (m : HostMgr) (subnetOf : Host → SubnetID) (subnet : SubnetID) : Prop :=
  ((m.hosts.filter (subnetOf · = subnet)).map fun h => (h.identifierType, h.identifier)).Nodup

instance (m : HostMgr) (subnetOf : Host → SubnetID) (subnet : SubnetID) :
    Decidable (m.SingleIn subnetOf subnet) :=
  inferInstanceAs (Decidable (List.Nodup _))

/-- The host of the subnet with the identifier. -/
def hostIn (m : HostMgr) (subnetOf : Host → SubnetID) (subnet : SubnetID) (id : IdentifierPair) :
    Option Host :=
  m.hosts.find? fun h => subnetOf h = subnet && h.hasIdentifier id

theorem getAll_eq : m.getAll id = m.hosts.filter (·.hasIdentifier id) := by
  unfold getAll hosts
  rw [filter_flatMap]
  rfl

theorem identifier_eq {h : Host} (hh : subnetOf h = subnet && h.hasIdentifier id) :
    (h.identifierType, h.identifier) = id := by
  simp only [hasIdentifier, Bool.and_eq_true, decide_eq_true_eq] at hh
  exact Prod.ext hh.2.1 hh.2.2

/-- Where an identifier has one host at most, a query for the identifier leaves that one. -/
theorem getAll_filter (hsingle : m.SingleIn subnetOf subnet) :
    (m.getAll id).filter (subnetOf · = subnet) = (m.hostIn subnetOf subnet id).toList := by
  have hall : (m.getAll id).filter (subnetOf · = subnet) =
      m.hosts.filter fun h => subnetOf h = subnet && h.hasIdentifier id := by
    rw [getAll_eq, filter_filter]
  have hkey : ∀ h ∈ (m.getAll id).filter (subnetOf · = subnet),
      (h.identifierType, h.identifier) = id := by
    intro h hh
    rw [hall] at hh
    exact identifier_eq (mem_filter.mp hh).2
  have hsub : ((m.getAll id).filter (subnetOf · = subnet)).Sublist
      (m.hosts.filter (subnetOf · = subnet)) := by
    rw [getAll_eq]
    exact filter_sublist.filter _
  have hnodup := List.Nodup.sublist (hsub.map fun h : Host => (h.identifierType, h.identifier)) hsingle
  rw [map_congr_left hkey, map_const', nodup_replicate] at hnodup
  unfold hostIn
  rw [← head?_filter, ← hall]
  cases hlist : (m.getAll id).filter (subnetOf · = subnet) with
  | nil => rfl
  | cons h hs =>
    rw [hlist, length_cons] at hnodup
    obtain rfl : hs = [] := length_eq_zero_iff.mp (by omega)
    rfl

end HostMgr

/-! ## What each way finds -/

theorem get4_eq (m : HostMgr) (subnet : SubnetID) (id : IdentifierPair) :
    m.get4 subnet id = m.hostIn ipv4SubnetId subnet id := by
  unfold get4 hostIn hosts
  rw [find?_flatMap]
  congr 1
  funext c
  unfold CfgHosts.get4 CfgHosts.getAll
  rw [find?_filter]
  congr 1
  funext h
  rw [Bool.decide_and, Bool.decide_eq_true, Bool.decide_eq_true, Bool.and_comm]

theorem get6From_eq {sources : List CfgHosts}
    (hone : ((sources.flatMap (·.getAll id)).filter (·.ipv6SubnetId = subnet)).length ≤ 1) :
    get6From subnet id sources =
      .ok ((sources.flatMap (·.getAll id)).filter (·.ipv6SubnetId = subnet)).head? := by
  induction sources with
  | nil => rfl
  | cons c cs ih =>
    rw [flatMap_cons, filter_append, length_append] at hone
    rw [flatMap_cons, filter_append]
    unfold get6From CfgHosts.get6
    cases hc : (c.getAll id).filter (·.ipv6SubnetId = subnet) with
    | nil => exact ih (by omega)
    | cons h hs =>
      rw [hc, length_cons] at hone
      obtain rfl : hs = [] := length_eq_zero_iff.mp (by omega)
      rfl

theorem get6_eq (hsingle : m.SingleIn ipv6SubnetId subnet) :
    m.get6 subnet id = .ok (m.hostIn ipv6SubnetId subnet id) := by
  have hall : ((m.sources.flatMap (·.getAll id)).filter (·.ipv6SubnetId = subnet)) =
      (m.hostIn ipv6SubnetId subnet id).toList := getAll_filter hsingle
  unfold get6
  rw [get6From_eq, hall]
  · cases m.hostIn ipv6SubnetId subnet id <;> rfl
  · rw [hall]
    cases m.hostIn ipv6SubnetId subnet id <;> simp

theorem lastHost_eq (hsubnet : 0 < subnet) (hsingle : m.SingleIn subnetOf subnet) :
    ((ids.flatMap m.getAll).filter fun h => 0 < subnetOf h && subnetOf h = subnet).getLast? =
      ids.reverse.findSome? (m.hostIn subnetOf subnet) := by
  have hfilter : ∀ h : Host, (0 < subnetOf h && subnetOf h = subnet : Bool) =
      decide (subnetOf h = subnet) := by
    intro h
    by_cases heq : subnetOf h = subnet <;> simp [heq, hsubnet]
  simp only [hfilter, filter_flatMap, getAll_filter hsingle]
  rw [← filterMap_eq_flatMap_toList, getLast?_filterMap]

theorem firstHost6_eq (hsingle : env.hostMgr.SingleIn ipv6SubnetId subnet) :
    firstHost6 env subnet ids =
      .ok (ids.findSome? (env.hostMgr.hostIn ipv6SubnetId subnet)) := by
  induction ids with
  | nil => rfl
  | cons id ids ih =>
    unfold firstHost6
    rw [get6_eq hsingle, findSome?_cons]
    cases env.hostMgr.hostIn ipv6SubnetId subnet id with
    | none => exact ih
    | some h => rfl

/-- The host that either way gives for a subnet. -/
def hostBy (m : HostMgr) (subnetOf : Host → SubnetID) (ids : List IdentifierPair) (singleQuery : Bool)
    (subnet : SubnetID) : Option Host :=
  (if singleQuery then ids.reverse else ids).findSome? (m.hostIn subnetOf subnet)

variable {singleQuery : Bool}

theorem hostInSubnet4_eq {t : SubnetPtr 32} (hsingle : env.hostMgr.SingleIn ipv4SubnetId t.getID) :
    hostInSubnet4 env ids singleQuery t =
      hostBy env.hostMgr ipv4SubnetId ids singleQuery t.getID := by
  unfold hostInSubnet4 hostBy
  cases ids with
  | nil => cases singleQuery <;> rfl
  | cons id ids =>
    cases singleQuery with
    | true => exact lastHost_eq t.subnet.id_pos hsingle
    | false =>
      have hget : env.hostMgr.get4 t.getID = env.hostMgr.hostIn ipv4SubnetId t.getID :=
        funext (get4_eq env.hostMgr t.getID)
      simp only [hget, isEmpty_cons, Bool.false_eq_true, if_false]

theorem hostInSubnet6_eq {t : SubnetPtr 128} (hsingle : env.hostMgr.SingleIn ipv6SubnetId t.getID) :
    hostInSubnet6 env ids singleQuery t =
      .ok (hostBy env.hostMgr ipv6SubnetId ids singleQuery t.getID) := by
  cases ids with
  | nil => cases singleQuery <;> rfl
  | cons id ids =>
    cases singleQuery with
    | true => exact congrArg Except.ok (lastHost_eq t.subnet.id_pos hsingle)
    | false => exact firstHost6_eq hsingle

/-! ## The two ways -/

section Tables

variable {w : Nat} {classes : ClientClasses} {s : SubnetPtr w}

/-- Reservations are looked for in the subnet. -/
def Searches (classes : ClientClasses) (t : SubnetPtr w) : Bool :=
  t.clientSupported classes && t.mode ≠ .disabled

/-- What is stored for a subnet. -/
def storedHost (m : HostMgr) (subnetOf : Host → SubnetID) (ids : List IdentifierPair)
    (singleQuery : Bool) (classes : ClientClasses) (t : SubnetPtr w) : Option Host :=
  if Searches classes t then hostBy m subnetOf ids singleQuery t.getID else none

/-- The table of hosts by subnet. -/
def hostTable (m : HostMgr) (subnetOf : Host → SubnetID) (ids : List IdentifierPair)
    (singleQuery : Bool) (classes : ClientClasses) (ts : List (SubnetPtr w)) :
    List (SubnetID × Host) :=
  filled getID (storedHost m subnetOf ids singleQuery classes) ts

/-- In a subnet where both ways search, the first and the last identifier with a host are the same. -/
def FirstIsLast (m : HostMgr) (subnetOf : Host → SubnetID) (ids : List IdentifierPair)
    (subnet : SubnetID) : Prop :=
  (ids.find? fun id => (m.hostIn subnetOf subnet id).isSome) =
    ids.reverse.find? fun id => (m.hostIn subnetOf subnet id).isSome

theorem walkFor_ids_nodup : ((s.walkFor classes).map getID).Nodup := by
  have hsub : (s.walkFor classes).Sublist s.walk := by
    have hcons : (s :: s.walk.tail.filter (·.clientSupported classes)).Sublist (s :: s.walk.tail) :=
      filter_sublist.cons_cons s
    rwa [← walk_eq_cons, ← walkFor_eq] at hcons
  exact (walk_ids_nodup).sublist (hsub.map _)

theorem hostTable_agree_iff :
    (∀ id, (hostTable m subnetOf ids true classes (s.walkFor classes)).lookup id =
        (hostTable m subnetOf ids false classes (s.walkFor classes)).lookup id) ↔
      ∀ t ∈ s.walkFor classes, Searches classes t → FirstIsLast m subnetOf ids t.getID := by
  unfold hostTable
  rw [filled_agree_iff walkFor_ids_nodup]
  refine forall₂_congr fun t _ => ?_
  have hinj : ∀ i j h, m.hostIn subnetOf t.getID i = some h → m.hostIn subnetOf t.getID j = some h →
      i = j := by
    intro i j h hi hj
    have hi := find?_some hi
    have hj := find?_some hj
    exact (identifier_eq hi).symm.trans (identifier_eq hj)
  unfold storedHost
  cases hsearch : Searches classes t with
  | false => simp
  | true =>
    simp only [if_true, forall_const, hostBy, Bool.false_eq_true, if_false]
    rw [findSome_agree_iff hinj, FirstIsLast, eq_comm]

end Tables

/-- The DHCPv6 loop fills the table, and does not throw. -/
theorem collectHosts6_eq {ctx : ClientContext6} {ts : List (SubnetPtr 128)}
    (hsingle : ∀ t ∈ ts, env.hostMgr.SingleIn ipv6SubnetId t.getID) :
    collectHosts6 env ctx singleQuery ts =
      .ok (hostTable env.hostMgr ipv6SubnetId ctx.hostIdentifiers singleQuery ctx.classes ts) := by
  induction ts with
  | nil => rfl
  | cons t ts ih =>
    rw [forall_mem_cons] at hsingle
    unfold collectHosts6
    rw [ih hsingle.2, hostInSubnet6_eq hsingle.1]
    unfold hostTable
    cases hvalue : storedHost env.hostMgr ipv6SubnetId ctx.hostIdentifiers singleQuery ctx.classes t with
    | none =>
      rw [filled_cons_none hvalue]
      unfold storedHost Searches at hvalue
      split
      · rename_i hsearch
        rw [if_pos hsearch] at hvalue
        rw [hvalue]
        rfl
      · rfl
    | some h =>
      rw [filled_cons_some hvalue]
      unfold storedHost Searches at hvalue
      split at hvalue
      · rename_i hsearch
        rw [if_pos hsearch, hvalue]
        rfl
      · cases hvalue

theorem findReservationWith4_eq {ctx : ClientContext4} {s : SubnetPtr 32} (hs : ctx.subnet = some s)
    (hsingle : ∀ t ∈ s.siblings, env.hostMgr.SingleIn ipv4SubnetId t.getID)
    (hglobal : (if s.mode = .global then findGlobalReservation4 env ctx.hostIdentifiers else none) = none) :
    findReservationWith4 env ctx singleQuery =
      hostTable env.hostMgr ipv4SubnetId ctx.hostIdentifiers singleQuery ctx.classes
        (s.walkFor ctx.classes) := by
  unfold findReservationWith4 hostTable filled
  rw [hs]
  simp only [hglobal]
  refine filterMap_congr fun t ht => ?_
  rw [hostInSubnet4_eq (hsingle t (sibling_of_mem_walkFor ht))]
  unfold storedHost Searches
  split <;> rfl

/--
The two ways agree for a DHCPv4 client: a global reservation comes before the subnets, or in each
subnet the first and the last identifier with a host are the same.
-/
def PathsAgree4 (env : Env) (ctx : ClientContext4) : Prop :=
  ∀ s, ctx.subnet = some s →
    (if s.mode = .global then findGlobalReservation4 env ctx.hostIdentifiers else none) = none →
    ∀ t ∈ s.walkFor ctx.classes, Searches ctx.classes t →
      FirstIsLast env.hostMgr ipv4SubnetId ctx.hostIdentifiers t.getID

/-- The two ways agree for a DHCPv6 client. -/
def PathsAgree6 (env : Env) (ctx : ClientContext6) : Prop :=
  ∀ s, ctx.subnet = some s → ∀ t ∈ s.walkFor ctx.classes, Searches ctx.classes t →
    FirstIsLast env.hostMgr ipv6SubnetId ctx.hostIdentifiers t.getID

/-- At most one host per subnet of the network and identifier. -/
def SingleHosts {w : Nat} (m : HostMgr) (subnetOf : Host → SubnetID) (subnet : Option (SubnetPtr w)) :
    Prop :=
  ∀ s, subnet = some s → ∀ t ∈ s.siblings, m.SingleIn subnetOf t.getID

/--
**When the single query finds the same hosts.** With at most one host per subnet and identifier,
exactly if in each subnet where reservations are looked for the first identifier of the client with
a host is also the last one.
-/
theorem findReservation_paths_agree_iff (env : Env) (ctx4 : ClientContext4) (ctx6 : ClientContext6)
    (hsingle4 : SingleHosts env.hostMgr ipv4SubnetId ctx4.subnet)
    (hsingle6 : SingleHosts env.hostMgr ipv6SubnetId ctx6.subnet) :
    ((∀ id, (findReservationWith4 env ctx4 true).lookup id =
        (findReservationWith4 env ctx4 false).lookup id) ↔ PathsAgree4 env ctx4) ∧
    ∃ fast slow, findReservationWith6 env ctx6 true = .ok fast ∧
      findReservationWith6 env ctx6 false = .ok slow ∧
      ((∀ id, fast.lookup id = slow.lookup id) ↔ PathsAgree6 env ctx6) := by
  constructor
  · cases hs : ctx4.subnet with
    | none => simp [findReservationWith4, PathsAgree4, hs]
    | some s =>
      have honly : PathsAgree4 env ctx4 ↔
          ((if s.mode = .global then findGlobalReservation4 env ctx4.hostIdentifiers else none) = none →
            ∀ t ∈ s.walkFor ctx4.classes, Searches ctx4.classes t →
              FirstIsLast env.hostMgr ipv4SubnetId ctx4.hostIdentifiers t.getID) := by
        simp [PathsAgree4, hs]
      rw [honly]
      cases hglobal : (if s.mode = .global then findGlobalReservation4 env ctx4.hostIdentifiers
          else none) with
      | some ghost => simp [findReservationWith4, hs, hglobal]
      | none =>
        rw [findReservationWith4_eq hs (hsingle4 s hs) hglobal,
          findReservationWith4_eq hs (hsingle4 s hs) hglobal, hostTable_agree_iff]
        simp
  · cases hs : ctx6.subnet with
    | none => exact ⟨[], [], by simp [findReservationWith6, hs], by simp [findReservationWith6, hs],
        by simp [PathsAgree6, hs]⟩
    | some s =>
      have hcollect : ∀ singleQuery, findReservationWith6 env ctx6 singleQuery =
          .ok (hostTable env.hostMgr ipv6SubnetId ctx6.hostIdentifiers singleQuery ctx6.classes
            (s.walkFor ctx6.classes)) := by
        intro singleQuery
        unfold findReservationWith6
        rw [hs]
        refine collectHosts6_eq (fun t ht => hsingle6 s hs t ?_)
        exact sibling_of_mem_walkFor ht
      refine ⟨_, _, hcollect true, hcollect false, ?_⟩
      rw [hostTable_agree_iff]
      simp [PathsAgree6, hs]

namespace Sample

/-- The client is known by its hardware address, and then by its client identifier. -/
def twoIds (n : UInt8) : ClientContext4 :=
  { client n 0 false [] with
    subnet := some ptr13, hostIdentifiers := [(.hwaddr, [n]), (.clientId, [n])] }

/-- The reservation 192.0.2.50 for hardware address 1, and 192.0.2.51 for client identifier `n`. -/
def hostsOfTwo (n : UInt8) : CfgHosts :=
  { hosts := [host4 1 1 0xC0000232#32, { host4 n 1 0xC0000233#32 with identifierType := .clientId }]
    identifiers_unique := by simp [host4]
    addresses_unique := by simp [host4]
    hosts6_unique := by simp [resrv6Tuples, host4] }

end Sample

/-- A client with one reservation gets it either way. -/
theorem paths_agree_sample :
    let env := envAt 0 (hostsOfTwo 2)
    SingleHosts env.hostMgr ipv4SubnetId (twoIds 1).subnet ∧
    ∀ id, (findReservationWith4 env (twoIds 1) true).lookup id =
      (findReservationWith4 env (twoIds 1) false).lookup id := by
  intro env
  have hsingle4 : SingleHosts env.hostMgr ipv4SubnetId (twoIds 1).subnet := by
    rintro s ⟨⟩
    decide
  have hsingle6 : SingleHosts env.hostMgr ipv6SubnetId (client6 1 false []).subnet := by
    rintro s ⟨⟩
    decide
  refine ⟨hsingle4, (findReservation_paths_agree_iff env _ _ hsingle4 hsingle6).1.mpr ?_⟩
  rintro s ⟨⟩ -
  unfold FirstIsLast
  decide

/--
A client with reservations for two of its identifiers: `findReservation` makes the single query and
takes the host of the client identifier, where the query per subnet takes the preferred one.
-/
theorem single_query_takes_last_host :
    let env := envAt 0 (hostsOfTwo 1)
    SingleHosts env.hostMgr ipv4SubnetId (twoIds 1).subnet ∧
    ((findReservation4 env (twoIds 1)).lookup 1).map ipv4Reservation =
      some 0xC0000233#32 ∧
    ((findReservationWith4 env (twoIds 1) false).lookup 1).map ipv4Reservation =
      some 0xC0000232#32 := by
  refine ⟨?_, by decide, by decide⟩
  rintro s ⟨⟩
  decide

end Dhcp
