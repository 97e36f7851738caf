import KeaDhcp.Properties.Accounting4

/-!
# Expired leases

`getExpiredLeases4` and `getExpiredLeases6` read the expiration index up to the upper bound of
`(false, now)`. A lease whose last second it is lies below that bound, but `Lease::expired` does
not hold of it yet.
-/

namespace Dhcp

open Infra Lease4Storage MultiIndex Lease Lease4 Sample

/-! ## The leases that are listed -/

/-- A lease that the expiration index has in front of the upper bound. -/
def Lease.due {w : Nat} (now : Time) (l : Lease w) : Bool :=
  !l.stateExpiredReclaimed && decide (l.getExpirationTime ≤ now)

variable {w : Nat} {now : Time}

theorem Lease.due_iff {l : Lease w} :
    l.due now ↔ l.state ≠ .expiredReclaimed ∧ l.getExpirationTime ≤ now := by
  simp [due, stateExpiredReclaimed]

/--
What a look-up of the expired leases promises, by the number that it may return: with `0` all of
them in the order of their times, otherwise the first of these.
-/
structure ListsExpired {α : Type} {w : Nat} (base : α → Lease w) (stored : α → Prop) (now : Time)
    (get : Nat → List α) : Prop where
  nodup : (get 0).Nodup
  exact : ∀ l, l ∈ get 0 ↔
    stored l ∧ (base l).state ≠ .expiredReclaimed ∧ (base l).expired now = true
  ordered : (get 0).Pairwise fun a b => (base a).getExpirationTime ≤ (base b).getExpirationTime
  limited : ∀ n > 0, get n = (get 0).take (min n (get 0).length)

section Index

variable {α κ ι : Type} {S : IndexSpec α κ ι} {i : ι} {base : α → Lease w}
  (hcmp : S.cmp i = compareLex (compareOn fun l => (base l).stateExpiredReclaimed)
    (compareOn fun l => (base l).getExpirationTime))
  (d : MultiIndex S)

include hcmp

theorem due_of_le {a b : α} (hle : (S.cmp i a b).isLE) (hb : (base b).due now) :
    (base a).due now ∧ (base a).getExpirationTime ≤ (base b).getExpirationTime := by
  rw [due_iff] at hb ⊢
  obtain ⟨hstate, htime⟩ := hb
  have hb' : (base b).stateExpiredReclaimed = false := by
    simpa [stateExpiredReclaimed] using hstate
  rw [hcmp, compareLex, compareOn, compareOn, hb'] at hle
  cases ha : (base a).stateExpiredReclaimed with
  | true =>
    rw [ha] at hle
    exact absurd hle Bool.false_ne_true
  | false =>
    have htimes : (base a).getExpirationTime ≤ (base b).getExpirationTime := by
      simpa [ha, Std.isLE_compare] using hle
    exact ⟨⟨by simpa [stateExpiredReclaimed] using ha, Int.le_trans htimes htime⟩, htimes⟩

theorem takeWhile_due :
    ((d.seq i).takeWhile fun l => (base l).due now) = (d.seq i).filter fun l => (base l).due now :=
  d.takeWhile_seq fun _ _ hle hb => (due_of_le hcmp hle hb).1

theorem mem_due_iff {l : α} : l ∈ ((d.seq i).takeWhile fun l => (base l).due now) ↔
      l ∈ d ∧ (base l).state ≠ .expiredReclaimed ∧ (base l).getExpirationTime ≤ now := by
  rw [takeWhile_due hcmp d, List.mem_filter, mem_seq, due_iff]

/-- The look-up in the index is right unless a lease is in its last second. -/
theorem listsExpired_iff {get : Nat → List α}
    (hget : ∀ n, get n = let due := (d.seq i).takeWhile fun l => (base l).due now
      if n = 0 then due else due.take n) :
    ListsExpired base (· ∈ d) now get ↔
      ∀ l ∈ d, (base l).state ≠ .expiredReclaimed → (base l).getExpirationTime ≠ now := by
  have hzero : get 0 = (d.seq i).takeWhile fun l => (base l).due now := hget 0
  have hfilter := hzero.trans (takeWhile_due hcmp d)
  have hmem : ∀ l, l ∈ get 0 ↔ l ∈ d ∧ (base l).state ≠ .expiredReclaimed ∧
      (base l).getExpirationTime ≤ now := fun l => hzero ▸ mem_due_iff hcmp d
  constructor
  · intro h l hl hstate htime
    have hlisted := (h.exact l).mp ((hmem l).mpr ⟨hl, hstate, Int.le_of_eq htime⟩)
    simp [expired, htime] at hlisted
  · intro h
    refine ⟨?_, fun l => ?_, ?_, fun n hn => ?_⟩
    · rw [hfilter]
      have hkeys := nodup_of_sublist_seq (d := d) (i := i)
        (List.filter_sublist (p := fun l => (base l).due now))
      exact hkeys.of_map _
    · rw [hmem]
      refine and_congr_right fun hl => and_congr_right fun hstate => ?_
      simp only [expired, decide_eq_true_eq, Int.lt_iff_le_and_ne]
      exact (and_iff_left (h l hl hstate)).symm
    · rw [hfilter]
      refine ((d.ascending i).filter _).imp_of_mem fun _ hb hle => ?_
      exact (due_of_le hcmp hle (List.mem_filter.mp hb).2).2
    · rw [hget n, hget 0, if_neg hn.ne', if_pos rfl]
      exact List.take_eq_take_iff.mpr (by omega)

end Index

/-! ## Reclamation in rounds -/

section Rounds

variable {env : Env} {st st' : Server4} {mode : DbReclaimMode} {l m : Lease4}

/-- A lease that stays in the database when it is reclaimed. -/
def Lease4.outlives (removeLease : Bool) (l : Lease4) : Bool := !l.stateDeclined && !removeLease

variable (removeLease : Bool) {db : Lease4Storage}

/-- The mode of a call that reclaims expired leases. -/
def reclaimMode : DbReclaimMode := if removeLease then .remove else .update

theorem reclaimMode_ne : reclaimMode removeLease ≠ .leaveUnchanged := by
  cases removeLease <;> decide

/-- The leases `done`, and nothing else, were reclaimed in the database. -/
def Reclaimed4 (done : List Lease4) (db db' : Lease4Storage) : Prop :=
  ∀ m, m ∈ db' ↔
    (m ∈ db ∧ m ∉ done) ∨ ∃ l ∈ done, l.outlives removeLease = true ∧ m = l.reclaimed

theorem reclaimExpiredLease4_reclaimed {removeLease : Bool} (hl : l ∈ st.leases) :
    Reclaimed4 removeLease [l] st.leases
      (after (reclaimExpiredLease4 env (reclaimMode removeLease) l) st).leases := by
  intro m
  have hsame : m ∈ st.leases → (m.addr = l.addr ↔ m = l) := fun hm =>
    ⟨fun h => eq_of_key_eq hm hl h, fun h => h ▸ rfl⟩
  have hfind : st.leases.find (lease4Spec.key l.reclaimed) = some l :=
    getLease4_of_mem hl
  have hmode : decide (reclaimMode removeLease = .remove) = removeLease := by
    cases removeLease <;> decide
  rw [after, reclaimExpiredLease4_run (reclaimMode_ne removeLease) hl, hmode]
  simp only [finalState, List.mem_singleton, exists_eq_left, outlives]
  cases hout : l.stateDeclined || removeLease with
  | true =>
    rw [if_pos rfl, mem_erase]
    simp only [← Bool.not_or, hout, Bool.not_true, Bool.false_eq_true, false_and, or_false]
    exact and_congr_right fun hm => not_congr (hsame hm)
  | false =>
    rw [if_neg Bool.false_ne_true, mem_replace hfind, or_comm]
    simp only [← Bool.not_or, hout, Bool.not_false, true_and]
    exact or_congr_left (and_congr_right fun hm => not_congr (hsame hm))

variable {db' : Lease4Storage}

/-- Leases that are reclaimed one batch after the other are reclaimed together. -/
theorem Reclaimed4.append {removeLease : Bool} {xs ys : List Lease4} {db₁ : Lease4Storage}
    (hxs : Reclaimed4 removeLease xs db db₁) (hys : Reclaimed4 removeLease ys db₁ db')
    (hlive : ∀ l ∈ ys, l.state ≠ .expiredReclaimed) : Reclaimed4 removeLease (xs ++ ys) db db' := by
  intro m
  have hnot : (∃ l ∈ xs, l.outlives removeLease = true ∧ m = l.reclaimed) → m ∉ ys := by
    rintro ⟨l, -, -, rfl⟩ hm
    exact hlive _ hm rfl
  rw [hys m, hxs m]
  simp only [List.mem_append, or_and_right, exists_or, not_or, and_assoc]
  rw [and_iff_left_of_imp hnot, or_assoc]

theorem reclaimEach4_reclaimed {removeLease : Bool} {due : List Lease4}
    (hdue : ∀ l ∈ due, l ∈ st.leases ∧ l.state ≠ .expiredReclaimed)
    (hnodup : (due.map (·.addr)).Nodup) :
    Reclaimed4 removeLease due st.leases
      (after (reclaimEach4 env (reclaimMode removeLease) due) st).leases := by
  induction due generalizing st with
  | nil =>
    intro m
    simp [after, finalState, reclaimEach4]
  | cons l ls ih =>
    obtain ⟨hl, hstate⟩ := hdue l List.mem_cons_self
    rw [List.map_cons, List.nodup_cons] at hnodup
    rw [after_reclaimEach4_cons]
    refine (reclaimExpiredLease4_reclaimed hl).append
      (ih (fun l' hl' => ?_) hnodup.2) fun l' hl' => (hdue l' (List.mem_cons_of_mem l hl')).2
    obtain ⟨hmem, hs⟩ := hdue l' (List.mem_cons_of_mem l hl')
    refine ⟨reclaimExpiredLease4_keeps (reclaimMode_ne removeLease) hl hmem fun haddr => ?_, hs⟩
    exact hnodup.1 (List.mem_map.mpr ⟨l', hl', haddr⟩)

theorem mem_getExpiredLeases4_zero :
    l ∈ db.getExpiredLeases4 now 0 ↔
      l ∈ db ∧ l.state ≠ .expiredReclaimed ∧ l.getExpirationTime ≤ now :=
  mem_due_iff (S := lease4Spec) (i := .expiration) rfl db

/-- After a reclamation the leases are due that were due before and were left. -/
theorem Reclaimed4.mem_expired {removeLease : Bool} {done : List Lease4}
    (h : Reclaimed4 removeLease done db db') :
    l ∈ db'.getExpiredLeases4 now 0 ↔ l ∈ db.getExpiredLeases4 now 0 ∧ l ∉ done := by
  rw [mem_getExpiredLeases4_zero, mem_getExpiredLeases4_zero, h l]
  constructor
  · rintro ⟨⟨hl, hnot⟩ | ⟨l, -, -, rfl⟩, hstate, htime⟩
    · exact ⟨⟨hl, hstate, htime⟩, hnot⟩
    · exact absurd rfl hstate
  · rintro ⟨⟨hl, hstate, htime⟩, hnot⟩
    exact ⟨.inl ⟨hl, hnot⟩, hstate, htime⟩

theorem getExpiredLeases4_eq_nil {n : Nat} :
    db.getExpiredLeases4 now n = [] ↔ db.getExpiredLeases4 now 0 = [] := by
  unfold getExpiredLeases4
  by_cases hn : n = 0 <;> simp [hn]

variable {inTime : Option Nat} {maxLeases : Nat}

/-- A call finds none only when there is none. -/
theorem dueLeases4_eq_nil :
    dueLeases4 env db maxLeases inTime = [] ↔ db.getExpiredLeases4 env.now 0 = [] := by
  have hmax : (if maxLeases > 0 then (db.getExpiredLeases4 env.now (maxLeases + 1)).take maxLeases
      else db.getExpiredLeases4 env.now maxLeases) = [] ↔ db.getExpiredLeases4 env.now 0 = [] := by
    split
    · rw [List.take_eq_nil_iff, getExpiredLeases4_eq_nil]
      exact or_iff_right (by omega)
    · rw [getExpiredLeases4_eq_nil]
  unfold dueLeases4
  cases inTime with
  | none => exact hmax
  | some n =>
    rw [List.take_eq_nil_iff, hmax]
    exact or_iff_right (by omega)

/--
Calls of `reclaimExpiredLeases4` one after the other, for what the stop watch says in each: the
leases that they reclaim and the state that they leave behind.
-/
def reclaimRepeatedly4 (env : Env) (maxLeases : Nat) (removeLease : Bool) :
    List (Option Nat) → Server4 → List Lease4 × Server4
  | [], st => ([], st)
  | inTime :: readings, st =>
    let rest := reclaimRepeatedly4 env maxLeases removeLease readings
      (after (reclaimExpiredLeases4 env maxLeases inTime removeLease) st)
    (dueLeases4 env st.leases maxLeases inTime ++ rest.1, rest.2)

/-- What one call does: it reclaims the leases that it works through. -/
theorem reclaimExpiredLeases4_reclaimed (env : Env) (maxLeases : Nat) (inTime : Option Nat)
    (removeLease : Bool) (st : Server4) :
    Reclaimed4 removeLease (dueLeases4 env st.leases maxLeases inTime) st.leases
      (after (reclaimExpiredLeases4 env maxLeases inTime removeLease) st).leases := by
  refine reclaimEach4_reclaimed (fun l hl => ?_) dueLeases4_nodup
  obtain ⟨hmem, hstate, -⟩ := mem_dueLeases4 hl
  exact ⟨hmem, hstate⟩

/--
What the calls do together: no lease is reclaimed twice, only leases that were due are, and as long
as leases are left every call has reclaimed one.
-/
theorem reclaimRepeatedly4_done (env : Env) (maxLeases : Nat) (removeLease : Bool)
    (readings : List (Option Nat)) (st : Server4) :
    let r := reclaimRepeatedly4 env maxLeases removeLease readings st
    r.1.Nodup ∧ (∀ l ∈ r.1, l ∈ st.leases.getExpiredLeases4 env.now 0) ∧
      Reclaimed4 removeLease r.1 st.leases r.2.leases ∧
      (r.2.leases.getExpiredLeases4 env.now 0 ≠ [] → readings.length ≤ r.1.length) := by
  induction readings generalizing st with
  | nil => exact ⟨List.nodup_nil, by simp [reclaimRepeatedly4],
      by simp [reclaimRepeatedly4, Reclaimed4], fun _ => le_rfl⟩
  | cons inTime readings ih =>
    have hcall := reclaimExpiredLeases4_reclaimed env maxLeases inTime removeLease st
    obtain ⟨hnodup, hmem, hrest, hlen⟩ :=
      ih (after (reclaimExpiredLeases4 env maxLeases inTime removeLease) st)
    have hlive : ∀ l ∈ (reclaimRepeatedly4 env maxLeases removeLease readings
        (after (reclaimExpiredLeases4 env maxLeases inTime removeLease) st)).1,
        l ∈ st.leases.getExpiredLeases4 env.now 0 ∧ l ∉ dueLeases4 env st.leases maxLeases inTime :=
      fun l hl => hcall.mem_expired.mp (hmem l hl)
    have hall := hcall.append hrest fun l hl =>
      (mem_getExpiredLeases4_zero.mp (hlive l hl).1).2.1
    refine ⟨?_, ?_, hall, fun hleft => ?_⟩
    · refine List.nodup_append.mpr ⟨(dueLeases4_nodup).of_map _, hnodup, ?_⟩
      rintro a ha b hb rfl
      exact (hlive a hb).2 ha
    · intro l hl
      rcases List.mem_append.mp hl with hl | hl
      · exact mem_getExpiredLeases4_zero.mpr (mem_dueLeases4 hl)
      · exact (hlive l hl).1
    · obtain ⟨l, hl⟩ := List.exists_mem_of_ne_nil _ hleft
      have hone : dueLeases4 env st.leases maxLeases inTime ≠ [] := fun hnil =>
        List.ne_nil_of_mem (hall.mem_expired.mp hl).1 (dueLeases4_eq_nil.mp hnil)
      have hpos := List.length_pos_of_ne_nil hone
      have hrounds := hlen hleft
      simp only [reclaimRepeatedly4, List.length_append, List.length_cons]
      omega

/--
What repeated reclamation promises: with a call for each lease none is left, and then each expired
lease was reclaimed once and no other lease touched.
-/
def ReclaimsOnce4 (env : Env) (maxLeases : Nat) (removeLease : Bool) (st : Server4) : Prop :=
  ∀ readings, let r := reclaimRepeatedly4 env maxLeases removeLease readings st
    ((st.leases.getExpiredLeases4 env.now 0).length ≤ readings.length →
      r.2.leases.getExpiredLeases4 env.now maxLeases = []) ∧
    (r.2.leases.getExpiredLeases4 env.now maxLeases = [] →
      r.1.Nodup ∧ Reclaimed4 removeLease r.1 st.leases r.2.leases ∧
        ∀ l, l ∈ r.1 ↔ l ∈ st.leases ∧ l.state ≠ .expiredReclaimed ∧ l.expired env.now = true)

theorem reclaimsOnce4_of_lists {removeLease : Bool}
    (h : ListsExpired toLease (· ∈ st.leases) env.now (st.leases.getExpiredLeases4 env.now)) :
    ReclaimsOnce4 env maxLeases removeLease st := by
  intro readings r
  obtain ⟨hnodup, hmem, hdone, hlen⟩ :=
    reclaimRepeatedly4_done env maxLeases removeLease readings st
  rw [getExpiredLeases4_eq_nil]
  refine ⟨fun hlong => ?_, fun hnone => ⟨hnodup, hdone, fun l => ?_⟩⟩
  · by_contra hleft
    -- A lease that is left was due and was not reclaimed, so the calls outnumber the others.
    obtain ⟨l, hl⟩ := List.exists_mem_of_ne_nil _ hleft
    obtain ⟨hdue, hnot⟩ := hdone.mem_expired.mp hl
    have hsub : l :: r.1 ⊆ st.leases.getExpiredLeases4 env.now 0 :=
      List.cons_subset.mpr ⟨hdue, hmem⟩
    have hle : (l :: r.1).length ≤ _ :=
      (List.subperm_of_subset (List.nodup_cons.mpr ⟨hnot, hnodup⟩) hsub).length_le
    have hrounds : readings.length ≤ r.1.length := hlen hleft
    rw [List.length_cons] at hle
    omega
  · refine Iff.trans ⟨hmem l, fun hl => ?_⟩ (h.exact l)
    by_contra hnot
    exact List.ne_nil_of_mem (hdone.mem_expired.mpr ⟨hl, hnot⟩) hnone

end Rounds

/-- A lease that is in its last second: it is due by the index, and not expired. -/
def Lease.lastSecond {w : Nat} (now : Time) (l : Lease w) : Prop :=
  l.state ≠ .expiredReclaimed ∧ l.getExpirationTime = now

/--
The look-ups return the expired leases, and repeated reclamation reclaims them, if and only if no
lease is in its last second.
-/
theorem expired_leases_iff (env : Env) (st : Server4) (db6 : Lease6Storage) :
    ((ListsExpired toLease (· ∈ st.leases) env.now (st.leases.getExpiredLeases4 env.now) ∧
        ∀ maxLeases > 0, ∀ removeLease, ReclaimsOnce4 env maxLeases removeLease st) ↔
      ∀ l ∈ st.leases, ¬ l.lastSecond env.now) ∧
    (ListsExpired Lease6.toLease (· ∈ db6) env.now (db6.getExpiredLeases6 env.now) ↔
      ∀ l ∈ db6, ¬ l.lastSecond env.now) := by
  have h4 : ListsExpired toLease (· ∈ st.leases) env.now
      (st.leases.getExpiredLeases4 env.now) ↔ _ :=
    listsExpired_iff (i := .expiration) rfl st.leases fun _ => rfl
  have h6 : ListsExpired Lease6.toLease (· ∈ db6) env.now (db6.getExpiredLeases6 env.now) ↔ _ :=
    listsExpired_iff (i := .expiration) rfl db6 fun _ => rfl
  simp only [lastSecond, not_and]
  refine ⟨⟨fun h => h4.mp h.1, fun h => ⟨h4.mpr h, fun n _ removeLease => ?_⟩⟩, h6⟩
  exact reclaimsOnce4_of_lists (h4.mpr h)

/-- At the second in which its lifetime ends, a lease is listed as expired and is not. -/
theorem last_second_listed :
    ¬ ListsExpired toLease (· ∈ (serverWith [lease 1 1 0xC000020A#32]).leases)
      100 ((serverWith [lease 1 1 0xC000020A#32]).leases.getExpiredLeases4 100) := by
  intro h
  have hlisted := (h.exact (lease 1 1 0xC000020A#32)).mp (by decide)
  exact absurd hlisted (by decide)

end Dhcp
