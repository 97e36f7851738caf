import KeaDhcp.Dhcpsrv.LeaseStats
import KeaDhcp.Properties.Accounting4

/-!
# Recounting and counting

The statistics that a recount of the database leaves, compared with those that were kept by hand.
-/

namespace Dhcp

open Infra Keeps Sample MultiIndex Stats Lease4 LeaseStatsQuery4

variable {s₀ : Stats} {pre : List Lease4} {q : LeaseStatsQuery4} {id : SubnetID} {l : Lease4}

/-! ## The loop over the leases -/

/-- The statistics after the rows of the query. -/
def LeaseStatsQuery4.value (s₀ : Stats) (q : LeaseStatsQuery4) : Stats := q.rows.foldl countRow s₀

/-- The leases of a subnet in a state. -/
def inState (id : SubnetID) (state : LeaseState) (l : Lease4) : Bool :=
  id = l.subnetId && l.state = state

/-- A count of zero leaves no row, and the statistic stays as it was. -/
def recounted (n : Nat) (old : Int) : Int := if 0 < n then n else old

/-- The leases of the current subnet that no row has yet. -/
def LeaseStatsQuery4.pending (q : LeaseStatsQuery4) : LeaseState → Nat
  | .default => q.assigned
  | .declined => q.declined
  | .expiredReclaimed => 0

/-- The statistic that is set from the rows of a state. -/
def rowStat : LeaseState → StatName
  | .default => .assignedAddresses
  | .declined => .declinedAddresses
  | .expiredReclaimed => .reclaimedLeases

variable {state : LeaseState}

/-- The rows of a subnet that is complete. -/
theorem value_addRows (q : LeaseStatsQuery4) (id : SubnetID) (hstate : state ≠ .expiredReclaimed) :
    q.addRows.value s₀ (.subnet id (rowStat state)) =
      if id = q.curId then recounted (q.pending state) (q.value s₀ (.subnet id (rowStat state)))
      else q.value s₀ (.subnet id (rowStat state)) := by
  unfold value addRows recounted
  by_cases ha : 0 < q.assigned <;> by_cases hd : 0 < q.declined <;> cases state <;>
    simp_all [countRow, setValue, rowStat, pending]

theorem value_addRows_global :
    q.addRows.value s₀ (.global .declinedAddresses) =
      q.value s₀ (.global .declinedAddresses) + q.declined := by
  unfold value addRows
  by_cases ha : 0 < q.assigned <;> by_cases hd : 0 < q.declined <;>
    simp [ha, hd, countRow, setValue]
  all_goals omega

/-- The invariant of the loop: the leases in `pre` are counted, those of `curId` not yet in rows. -/
structure CountedUpTo (s₀ : Stats) (pre : List Lease4) (q : LeaseStatsQuery4) : Prop where
  le : ∀ l ∈ pre, l.subnetId ≤ q.curId
  pending : ∀ state, state ≠ .expiredReclaimed →
    q.pending state = pre.countP (inState q.curId state)
  rows : ∀ state, state ≠ .expiredReclaimed → ∀ id,
    q.value s₀ (.subnet id (rowStat state)) =
      if id = q.curId then s₀ (.subnet id (rowStat state))
      else recounted (pre.countP (inState id state)) (s₀ (.subnet id (rowStat state)))
  globalRows : q.value s₀ (.global .declinedAddresses) + q.declined =
    s₀ (.global .declinedAddresses) + pre.countP fun l => l.state = .declined

section

variable (h : CountedUpTo s₀ pre q)
include h

theorem CountedUpTo.countP_later (hid : q.curId < id) : pre.countP (inState id state) = 0 := by
  rw [List.countP_eq_zero]
  intro l hl
  have hle := h.le l hl
  simp only [inState, Bool.and_eq_true, decide_eq_true_eq, not_and]
  rintro rfl
  exact absurd hle (Nat.not_le.mpr hid)

theorem CountedUpTo.value_addRows (hstate : state ≠ .expiredReclaimed) (id : SubnetID) :
    q.addRows.value s₀ (.subnet id (rowStat state)) =
      recounted (pre.countP (inState id state)) (s₀ (.subnet id (rowStat state))) := by
  rw [Dhcp.value_addRows q id hstate, h.rows state hstate]
  split
  · rename_i hid
    rw [h.pending state hstate, hid]
  · rfl

theorem CountedUpTo.addRows_of_zero (hpos : ∀ l ∈ pre, 0 < l.subnetId)
    (hzero : q.curId = 0) : q.addRows = q := by
  have hnone : ∀ state, state ≠ .expiredReclaimed → q.pending state = 0 := by
    intro state hstate
    rw [h.pending state hstate, hzero, List.countP_eq_zero]
    intro l hl
    have hl := hpos l hl
    simp only [inState, Bool.and_eq_true, decide_eq_true_eq, not_and]
    intro heq
    exact absurd heq (Nat.ne_of_lt hl)
  have ha : q.assigned = 0 := hnone .default (by decide)
  have hd : q.declined = 0 := hnone .declined (by decide)
  cases q
  simp_all [addRows]

/-- Moving on to another subnet completes the rows of the one before. -/
theorem CountedUpTo.moveTo (hpos : ∀ l ∈ pre, 0 < l.subnetId)
    (hle : q.curId ≤ id) : CountedUpTo s₀ pre (q.moveTo id) := by
  unfold LeaseStatsQuery4.moveTo
  split
  · rename_i hne
    have hlt : q.curId < id := Nat.lt_of_le_of_ne hle (Ne.symm hne)
    have hrows : (if q.curId > 0 then q.addRows else q) = q.addRows := by
      split
      · rfl
      · rename_i hzero
        exact (h.addRows_of_zero hpos (Nat.eq_zero_of_not_pos hzero)).symm
    rw [hrows]
    refine ⟨fun l hl => (h.le l hl).trans hle, fun state hstate => ?_, fun state hstate j => ?_, ?_⟩
    · rw [h.countP_later hlt]
      cases state <;> rfl
    · show q.addRows.value s₀ _ = if j = id then _ else _
      rw [h.value_addRows hstate]
      split
      · rename_i hj
        rw [hj, h.countP_later hlt]
        rfl
      · rfl
    · show q.addRows.value s₀ _ + ((0 : Nat) : Int) = _
      rw [value_addRows_global, h.globalRows]
      omega
  · exact h

/-- A lease of the current subnet is counted. -/
theorem CountedUpTo.bump (hid : l.subnetId = q.curId) :
    CountedUpTo s₀ (pre ++ [l]) (q.bump l.state) := by
  have hcur : (q.bump l.state).curId = q.curId := by cases l.state <;> rfl
  have hvalue : (q.bump l.state).value s₀ = q.value s₀ := by cases l.state <;> rfl
  refine ⟨?_, fun state hstate => ?_, fun state hstate j => ?_, ?_⟩
  · intro l' hl'
    rw [hcur]
    rcases List.mem_append.mp hl' with hl' | hl'
    · exact h.le l' hl'
    · rw [List.mem_singleton.mp hl', hid]
  · have hp := h.pending state hstate
    cases hs : l.state <;> cases state <;>
      simp_all [inState, LeaseStatsQuery4.pending, LeaseStatsQuery4.bump]
  · rw [hvalue, hcur, h.rows state hstate]
    split
    · rfl
    rename_i hj
    rw [List.countP_append, List.countP_singleton, if_neg, Nat.add_zero]
    simp only [inState, Bool.and_eq_true, decide_eq_true_eq, not_and]
    intro heq
    exact absurd (heq.trans hid) hj
  · have hg := h.globalRows
    cases hs : l.state <;> simp_all [LeaseStatsQuery4.bump]
    omega

/-- What the loop preserves over the leases that are left, which come in the order of subnets. -/
theorem CountedUpTo.loop {rest : List Lease4} (hcur : ∀ l ∈ rest, q.curId ≤ l.subnetId)
    (hsorted : rest.Pairwise fun a b => a.subnetId ≤ b.subnetId)
    (hpos : ∀ l ∈ pre ++ rest, 0 < l.subnetId) :
    CountedUpTo s₀ (pre ++ rest) (rest.foldl next q) := by
  induction rest generalizing pre q with
  | nil =>
    rw [List.append_nil]
    exact h
  | cons l ls ih =>
    obtain ⟨hl, hls⟩ := List.pairwise_cons.mp hsorted
    have hmove := h.moveTo (fun l' hl' => hpos l' (List.mem_append_left _ hl'))
      (hcur l List.mem_cons_self)
    have hcurId : (q.moveTo l.subnetId).curId = l.subnetId := by
      unfold LeaseStatsQuery4.moveTo
      split
      · rfl
      · rename_i heq
        exact (not_not.mp heq).symm
    have hnextId : (q.next l).curId = l.subnetId := by
      rw [next, ← hcurId]
      cases l.state <;> rw [hcurId] <;> exact hcurId
    rw [List.append_cons pre l ls]
    refine ih (hmove.bump hcurId.symm) (fun l' hl' => ?_) hls ?_
    · rw [hnextId]
      exact hl l' hl'
    · rw [← List.append_cons]
      exact hpos

end

theorem countedUpTo_nil :
    CountedUpTo s₀ [] { curId := 0, assigned := 0, declined := 0, rows := [] } := by
  refine ⟨fun l hl => absurd hl List.not_mem_nil, fun state _ => ?_, fun state _ id => ?_, ?_⟩
  · cases state <;> rfl
  · show s₀ _ = if _ then s₀ _ else recounted 0 (s₀ _)
    split <;> rfl
  · show s₀ _ + ((0 : Nat) : Int) = s₀ _ + ((0 : Nat) : Int)
    rfl

variable {db : Lease4Storage}

/-- The query counts all leases. -/
theorem countedUpTo_all (s₀ : Stats) (hpos : ∀ l ∈ db, 0 < l.subnetId) :
    CountedUpTo s₀ (db.seq .subnetId) ((db.seq .subnetId).foldl next
      { curId := 0, assigned := 0, declined := 0, rows := [] }) := by
  refine (countedUpTo_nil).loop (fun l _ => Nat.zero_le _) ?_ ?_
  · refine (db.ascending .subnetId).imp ?_
    intro a b hab
    exact Std.isLE_compare.mp hab
  · intro l hl
    exact hpos l (mem_seq.mp hl)

/-! ## What a recount leaves -/

variable {stats : Stats} {k : StatKey}

theorem clearSubnetStats_apply :
    clearSubnetStats stats id k = 0 ∨ clearSubnetStats stats id k = stats k := by
  simp only [clearSubnetStats, setValue]
  repeat' split
  all_goals simp

variable {subnets : List SubnetID}

theorem clearSubnets_zero
    (h : stats k = 0 ∨ ∃ id ∈ subnets, ∀ stats, clearSubnetStats stats id k = 0) :
    subnets.foldl clearSubnetStats stats k = 0 := by
  induction subnets generalizing stats with
  | nil => simpa using h
  | cons id ids ih =>
    refine ih ?_
    rcases h with hzero | ⟨j, hj, hclear⟩
    · refine .inl ?_
      rcases clearSubnetStats_apply with hk | hk
      · exact hk
      · rw [hk, hzero]
    · rcases List.mem_cons.mp hj with rfl | hj
      · exact .inl (hclear stats)
      · exact .inr ⟨j, hj, hclear⟩

/-- A recount starts from zero. -/
theorem clearStats_subnet (hid : id ∈ subnets) (hstate : state ≠ .expiredReclaimed) :
    clearStats subnets stats (.subnet id (rowStat state)) = 0 := by
  refine clearSubnets_zero (.inr ⟨id, hid, fun stats => ?_⟩)
  cases state <;> simp_all [clearSubnetStats, setValue, rowStat]

theorem clearStats_global : clearStats subnets stats (.global .declinedAddresses) = 0 :=
  clearSubnets_zero (.inl (by simp [setValue]))

section

variable (hpos : ∀ l ∈ db, 0 < l.subnetId)
include hpos

/-- What a recount leaves for a subnet. -/
theorem recount_subnet (hid : id ∈ subnets) (stats : Stats)
    (state : LeaseState) (hstate : state ≠ .expiredReclaimed) :
    recountLeaseStats4 subnets db stats (.subnet id (rowStat state)) =
      db.count (inState id state) := by
  have hall := (countedUpTo_all (clearStats subnets stats) hpos).value_addRows hstate id
  rw [countP_seq, clearStats_subnet hid hstate] at hall
  refine hall.trans ?_
  unfold recounted
  split <;> omega

theorem recount_assigned (hid : id ∈ subnets) :
    recountLeaseStats4 subnets db stats (.subnet id .assignedAddresses) =
      db.count (inState id .default) :=
  recount_subnet hpos hid stats .default (by decide)

theorem recount_declined (hid : id ∈ subnets) :
    recountLeaseStats4 subnets db stats (.subnet id .declinedAddresses) = declinedIn id db :=
  recount_subnet hpos hid stats .declined (by decide)

/-- The declined addresses of all subnets. -/
theorem recount_global (subnets : List SubnetID) (stats : Stats) :
    recountLeaseStats4 subnets db stats (.global .declinedAddresses) =
      db.count fun l => l.state = .declined := by
  have hall := (countedUpTo_all (clearStats subnets stats) hpos).globalRows
  rw [countP_seq, clearStats_global, Int.zero_add] at hall
  rw [← hall, ← value_addRows_global]
  rfl

end

/-! ## Leases are numbered -/

section Numbered

open Engine4

variable {env : Env} {ctx : ClientContext4} {s : SubnetPtr 32} {st st' : Server4}

/-- Every lease is recorded in a subnet; none has the number zero. -/
def Numbered (st : Server4) : Prop := ∀ l ∈ st.leases, 0 < l.subnetId

variable {n : Lease4} {addr : Address 32}

section

variable (h : Numbered st)

include h

theorem numbered_erase : Numbered { st with leases := st.leases.erase addr } :=
  fun l hl => h l (mem_erase.mp hl).1

theorem numbered_replace (hn : 0 < n.subnetId) :
    Numbered { st with leases := st.leases.replace n } := by
  intro l hl
  rcases mem_of_mem_replace hl with rfl | hl
  · exact hn
  · exact h l hl

theorem numbered_of_leases (hleases : st'.leases = st.leases) : Numbered st' := by
  intro l hl
  rw [hleases] at hl
  exact h l hl

theorem Placed4.numbered {lease : Lease4} {old : Option Lease4}
    (hplaced : Placed4 env ctx s addr st st' lease old) : Numbered st' := by
  cases hplaced with
  | created _ _ hleases =>
    intro l hl
    rw [hleases] at hl
    rcases mem_of_mem_insert hl with rfl | hl
    · exact s.subnet.id_pos
    · exact h l hl
  | reused _ _ _ hleases => exact numbered_of_leases (numbered_replace h s.subnet.id_pos) hleases
  | offered _ _ _ hsame => exact numbered_of_leases h hsame.leases

theorem Removed4.numbered {previous : Option Lease4} (hremoved : Removed4 previous st st') :
    Numbered st' := by
  cases previous with
  | none => exact numbered_of_leases h hremoved.leases
  | some l => exact numbered_of_leases (numbered_erase h) hremoved.1

theorem Outcome4.numbered {result : EStateM.Result EngineError Server4 Allocation4}
    (hout : Outcome4 env ctx s st result) : Numbered (finalState result) := by
  cases hout with
  | crashed => exact h
  | refused _ hsame => exact numbered_of_leases h hsame.leases
  | @renewed _ _ t _ _ _ hleases =>
    exact numbered_of_leases (numbered_replace h t.subnet.id_pos) hleases
  | allocated _ hplaced _ hremoved => exact hremoved.numbered (hplaced.numbered h)
  | picked _ _ _ _ hpicked _ hremoved => exact hremoved.numbered (hpicked.2.2.numbered h)

end

theorem allocateLease4_numbered : Keeps Numbered (allocateLease4 env ctx) := by
  intro st h
  cases hfake : ctx.fakeAllocation with
  | true => exact numbered_of_leases h (unchanged_of_fake env hfake st).leases
  | false =>
    cases hstart : startSubnet ctx with
    | none =>
      rw [after, allocateLease4_no_subnet hstart]
      exact h
    | some s => exact (allocateLease4_outcome env hfake hstart st).numbered h

theorem reclaimExpiredLease4_numbered {mode : DbReclaimMode} (hmode : mode ≠ .leaveUnchanged)
    (hl : l ∈ st.leases) (h : Numbered st) :
    Numbered (after (reclaimExpiredLease4 env mode l) st) := by
  rw [after, reclaimExpiredLease4_run hmode hl]
  unfold finalState
  dsimp only
  split
  · exact numbered_erase h
  · exact numbered_replace h (h l hl)

/-- No operation makes a lease without a subnet. -/
theorem step4_numbered {o : Operation4} (h : Numbered st) : Numbered (step4 o st) := by
  cases o with
  | allocate env ctx => exact allocateLease4_numbered st h
  | release env m =>
    show Numbered (finalState (processRelease env m st))
    cases hown : m.ownLease st.leases with
    | none =>
      rw [processRelease_none hown]
      exact h
    | some l =>
      rw [processRelease_some hown]
      exact numbered_erase h
  | decline env period m =>
    show Numbered (finalState (processDecline env period m st))
    cases hown : m.ownLease st.leases with
    | none =>
      rw [processDecline_none hown]
      exact h
    | some l =>
      rw [processDecline_some hown]
      exact numbered_replace h (h l (ownLease_spec hown).1)
  | reclaim env maxLeases inTime removeLease =>
    exact reclaimExpiredLeases4_inv (fun _ _ _ hmode hl _ h =>
      reclaimExpiredLease4_numbered hmode hl h) h
  | deleteReclaimed env secs => exact fun l hl => h l (mem_filter.mp hl).1

end Numbered

/-! ## Recounting after a run -/

/-- A recount leaves the statistics of the configured subnets, and the global one, as they are. -/
def RecountAgrees (subnets : List SubnetID) (st : Server4) : Prop :=
  let stats := recountLeaseStats4 subnets st.leases st.stats
  (∀ id ∈ subnets,
    stats (.subnet id .assignedAddresses) = st.stats (.subnet id .assignedAddresses) ∧
    stats (.subnet id .declinedAddresses) = st.stats (.subnet id .declinedAddresses)) ∧
  stats (.global .declinedAddresses) = st.stats (.global .declinedAddresses)

theorem assignedIn_eq : assignedIn id db = db.count (inState id .default) + declinedIn id db := by
  unfold assignedIn declinedIn count inState
  induction db.rows with
  | nil => rfl
  | cons l ls ih =>
    simp only [List.countP_cons, ih]
    cases hs : l.state <;> by_cases hid : id = l.subnetId <;> simp [hid] <;> omega

theorem declinedIn_eq_zero :
    declinedIn id db = 0 ↔ ∀ l ∈ db, l.subnetId = id → l.state ≠ .declined := by
  unfold declinedIn count
  rw [List.countP_eq_zero]
  refine forall₂_congr fun l _ => ?_
  simp only [Bool.and_eq_true, decide_eq_true_eq, not_and]
  exact ⟨fun h hid => h hid.symm, fun h hid => h hid.symm⟩

/--
**A recount confirms the statistics of a run if and only if no address is declined.** The engine
counts a declined address as assigned until it is recovered, the recount does not.
-/
theorem recount_agrees_iff (subnets : List SubnetID) (st₀ st : Server4) (hfresh : st₀.Fresh)
    (hrun : Reaches step4 SoundStep4 st₀ st) :
    RecountAgrees subnets st ↔ ∀ l ∈ st.leases, l.subnetId ∈ subnets → l.state ≠ .declined := by
  have hbal : Balanced4 st :=
    hrun.inv (balanced4_of_fresh hfresh) fun _ _ hbal hsound => step4_balanced hbal hsound
  have hpos : Numbered st := by
    refine hrun.inv (fun l hl => ?_) fun o _ h _ => step4_numbered h
    rw [hfresh.1] at hl
    exact absurd hl not_mem_empty
  have hassigned : ∀ id, st.stats (.subnet id .assignedAddresses) = assignedIn id st.leases :=
    fun id => hbal.count (k := .subnet id .assignedAddresses) trivial fun l => by simp [weight]
  have hdeclined : ∀ id, st.stats (.subnet id .declinedAddresses) = declinedIn id st.leases :=
    fun id => hbal.count (k := .subnet id .declinedAddresses) trivial fun l => by simp [weight]
  have hglobal : st.stats (.global .declinedAddresses) =
      st.leases.count fun l => l.state = .declined :=
    hbal.count (k := .global .declinedAddresses) trivial fun l => by simp [weight]
  constructor
  · intro hagree l hl hid
    have hcount := (hagree.1 l.subnetId hid).1
    have hzero : declinedIn l.subnetId st.leases = 0 := by
      rw [recount_assigned hpos hid, hassigned, assignedIn_eq] at hcount
      omega
    exact (declinedIn_eq_zero).mp hzero l hl rfl
  · intro hnone
    refine ⟨fun id hid => ?_, ?_⟩
    · have hzero : declinedIn id st.leases = 0 :=
        (declinedIn_eq_zero).mpr fun l hl heq => hnone l hl (heq ▸ hid)
      rw [recount_assigned hpos hid, recount_declined hpos hid, hassigned, hdeclined, assignedIn_eq]
      exact ⟨by omega, rfl⟩
    · rw [hglobal]
      exact recount_global hpos subnets st.stats

/-- After a lease was given out and reclaimed, a recount confirms the statistics. -/
theorem recount_agrees_sample :
    let st := step4 reclaimAll (step4 take (serverWith []))
    RecountAgrees [1, 2] st ↔ ∀ l ∈ st.leases, l.subnetId ∈ [1, 2] → l.state ≠ .declined := by
  have htake : SoundStep4 take (serverWith []) :=
    soundStep4_allocate ptr1 ptr1 none (by decide) (by decide) (by simp)
  exact recount_agrees_iff [1, 2] _ _ fresh (.next _ (.next _ .start htake) trivial)

/-- After a lease was given out and declined, a recount takes the address from the assigned ones. -/
theorem recount_forgets_declined :
    ∃ st, (serverWith []).Fresh ∧ Reaches step4 SoundStep4 (serverWith []) st ∧
      st.stats (.subnet 1 .assignedAddresses) = 1 ∧
      recountLeaseStats4 [1, 2] st.leases st.stats (.subnet 1 .assignedAddresses) = 0 ∧
      ¬RecountAgrees [1, 2] st := by
  refine ⟨step4 declineIt (step4 take (serverWith [])), fresh, ?_,
    by decide, by decide, fun hagree => absurd (hagree.1 1 (by decide)).1 (by decide)⟩
  refine .next _ (.next _ .start (soundStep4_allocate ptr1 ptr1 none (by decide)
    (by decide) (by simp))) ?_
  intro l hl
  obtain rfl := Option.some.inj hl
  rfl

end Dhcp
