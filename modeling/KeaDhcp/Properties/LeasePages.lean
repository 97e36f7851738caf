import KeaDhcp.Properties.Allocate4

/-!
# Leases page by page

A client of the lease manager fetches all leases in pages, while leases come and go. Nothing is lost
or repeated, because each page begins behind the last address of the page before it.
-/

namespace Dhcp

open Infra MultiIndex List

section Pages

variable {α : Type} {w : Nat} {addr : α → Address w} {lowerBound : Address w} {pageSize : Nat}

theorem leasePage_eq {idx : List α} (h : idx.Pairwise (addr · < addr ·)) :
    leasePage addr lowerBound pageSize idx = (idx.filter (lowerBound < addr ·)).take pageSize := by
  unfold leasePage
  dsimp only
  induction idx with
  | nil => rfl
  | cons l idx ih =>
    obtain ⟨hl, hidx⟩ := pairwise_cons.mp h
    by_cases hlt : addr l < lowerBound
    · have hnot : ¬lowerBound < addr l := by bv_omega
      rw [dropWhile_cons_of_pos (by simpa using hlt), ih hidx,
        filter_cons_of_neg (by simpa using hnot)]
    · -- All leases behind this one are behind the lower bound.
      have hall : idx.filter (lowerBound < addr ·) = idx := by
        refine filter_eq_self.mpr fun k hk => decide_eq_true ?_
        have hk := hl k hk
        bv_omega
      rw [dropWhile_cons_of_neg (by simpa using hlt)]
      by_cases heq : addr l = lowerBound
      · simp [heq, hall]
      · have hgt : lowerBound < addr l := by bv_omega
        simp [heq, hall, hgt]

/-- The last lease of a page parts the leases behind the lower bound. -/
theorem leasePage_split {idx : List α} (h : idx.Pairwise (addr · < addr ·)) {last : α}
    (hlast : (leasePage addr lowerBound pageSize idx).getLast? = some last) :
    let page := leasePage addr lowerBound pageSize idx
    last ∈ page ∧ page.Pairwise (addr · < addr ·) ∧
      (∀ l ∈ page, l ∈ idx ∧ lowerBound < addr l ∧ addr l ≤ addr last) ∧
      ∀ l ∈ idx, lowerBound < addr l → addr l ≤ addr last → l ∈ page := by
  rw [leasePage_eq h] at hlast ⊢
  have hfound : (idx.filter (lowerBound < addr ·)).Pairwise (addr · < addr ·) := h.filter _
  have hmem : ∀ l, l ∈ idx.filter (lowerBound < addr ·) ↔ l ∈ idx ∧ lowerBound < addr l := by simp
  generalize idx.filter (lowerBound < addr ·) = found at hlast hfound hmem
  obtain ⟨front, hfront⟩ := getLast?_eq_some_iff.mp hlast
  rw [hfront]
  rw [← take_append_drop pageSize found, hfront] at hfound hmem
  obtain ⟨hpage, -, hdrop⟩ := pairwise_append.mp hfound
  have hlastmem : last ∈ front ++ [last] := mem_append_right _ mem_cons_self
  refine ⟨hlastmem, hpage, fun l hl => ?_, fun l hl hup hle => ?_⟩
  · obtain ⟨hin, hup⟩ := (hmem l).mp (mem_append_left _ hl)
    refine ⟨hin, hup, ?_⟩
    rcases mem_append.mp hl with hl | hl
    · exact BitVec.le_of_lt ((pairwise_append.mp hpage).2.2 l hl last mem_cons_self)
    · rw [mem_singleton.mp hl]
      exact BitVec.le_refl _
  · rcases mem_append.mp ((hmem l).mpr ⟨hl, hup⟩) with hl | hl
    · exact hl
    · have hlt := hdrop last hlastmem l hl
      exact absurd hle (by bv_omega)

/--
Page after page, each with the last address of the one before as lower bound, until a page is empty.
`page i` is the page at the call `i`; `none` stands for more calls than allowed.
-/
def fetchPages (addr : α → Address w) :
    (calls : Nat) → (page : Nat → Address w → List α) → (lowerBound : Address w) → Option (List α)
  | 0, _, _ => none
  | calls + 1, page, lowerBound =>
    match (page 0 lowerBound).getLast? with
    | none => some []
    | some last =>
      (fetchPages addr calls (fun i => page (i + 1)) (addr last)).map (page 0 lowerBound ++ ·)

/-- What the pages are meant to contain together, with the storage in the order `idx i` at a call. -/
structure Fetched (addr : α → Address w) (idx : Nat → List α) (lowerBound : Address w)
    (leases : List α) : Prop where
  ascending : leases.Pairwise (addr · < addr ·)
  behind : ∀ l ∈ leases, lowerBound < addr l
  stored : ∀ l ∈ leases, ∃ i, l ∈ idx i
  complete : ∀ x, lowerBound < x → (∀ i, ∃ l ∈ idx i, addr l = x) → ∃ l ∈ leases, addr l = x

/-- Each call moves the lower bound up, so the addresses above it bound the number of calls. -/
theorem fetchPages_spec (hsize : 0 < pageSize) {calls : Nat} {idx : Nat → List α}
    (h : ∀ i, (idx i).Pairwise (addr · < addr ·)) (hcalls : 2 ^ w ≤ lowerBound.toNat + calls) :
    ∃ leases, fetchPages addr calls (fun i bound => leasePage addr bound pageSize (idx i))
      lowerBound = some leases ∧ Fetched addr idx lowerBound leases := by
  induction calls generalizing idx lowerBound with
  | zero => exact absurd lowerBound.isLt (by omega)
  | succ calls ih =>
    unfold fetchPages
    cases hlast : (leasePage addr lowerBound pageSize (idx 0)).getLast? with
    | none =>
      refine ⟨[], rfl, .nil, nofun, nofun, fun x hx hstored => ?_⟩
      obtain ⟨l, hl, rfl⟩ := hstored 0
      have hin : l ∈ (idx 0).filter (lowerBound < addr ·) := by simp [hl, hx]
      rw [leasePage_eq (h 0), getLast?_eq_none_iff, take_eq_nil_iff] at hlast
      rcases hlast with hzero | hnil
      · omega
      · rw [hnil] at hin
        cases hin
    | some last =>
      obtain ⟨hlastmem, hasc, hpage, hon⟩ := leasePage_split (h 0) hlast
      have hup := (hpage last hlastmem).2.1
      have hcalls' : 2 ^ w ≤ (addr last).toNat + calls := by bv_omega
      obtain ⟨rest, hrest, hfetched⟩ := ih (fun i => h (i + 1)) hcalls'
      refine ⟨leasePage addr lowerBound pageSize (idx 0) ++ rest,
        by simp only [hrest, Option.map_some], ?_, fun l hl => ?_, fun l hl => ?_, ?_⟩
      · refine pairwise_append.mpr ⟨hasc, hfetched.ascending, fun l hl k hk => ?_⟩
        have hl := (hpage l hl).2.2
        have hk := hfetched.behind k hk
        bv_omega
      · rcases mem_append.mp hl with hl | hl
        · exact (hpage l hl).2.1
        · have hl := hfetched.behind l hl
          bv_omega
      · rcases mem_append.mp hl with hl | hl
        · exact ⟨0, (hpage l hl).1⟩
        · obtain ⟨i, hi⟩ := hfetched.stored l hl
          exact ⟨i + 1, hi⟩
      · intro x hx hstored
        by_cases hbehind : addr last < x
        · obtain ⟨l, hl, heq⟩ := hfetched.complete x hbehind fun i => hstored (i + 1)
          exact ⟨l, mem_append_right _ hl, heq⟩
        · obtain ⟨l, hl, rfl⟩ := hstored 0
          exact ⟨l, mem_append_left _ (hon l hl hx (by bv_omega)), rfl⟩

theorem ascending_addresses {ι : Type} {S : IndexSpec α (Address w) ι} (d : MultiIndex S) {i : ι}
    (hcmp : S.cmp i = compareOn S.key) : (d.seq i).Pairwise (S.key · < S.key ·) := by
  have hasc := d.ascending i
  have hnodup := nodup_of_sublist_seq (d := d) (i := i) (.refl _)
  rw [hcmp] at hasc
  refine (hasc.and (pairwise_map.mp hnodup)).imp ?_
  rintro a b ⟨hle, hne⟩
  have hcompare : (compareOfLessAndEq (S.key a) (S.key b)).isLE := hle
  unfold compareOfLessAndEq at hcompare
  split at hcompare
  · assumption
  · cases hcompare

end Pages

/--
**Paging is complete and free of duplicates**, whatever is added, updated and deleted between two
calls: `dbs i` is the storage at the call `i`. There are at most as many calls as addresses.
-/
theorem paging_complete {pageSize : Nat} (hsize : 0 < pageSize) :
    (∀ (dbs : Nat → Lease4Storage) (lowerBound : Address 32), ∃ leases,
      fetchPages (·.addr) (2 ^ 32) (fun i bound => (dbs i).getLeases4From bound pageSize)
        lowerBound = some leases ∧
      Fetched (·.addr) (fun i => (dbs i).seq .address) lowerBound leases) ∧
    ∀ (dbs : Nat → Lease6Storage) (lowerBound : Address 128), ∃ leases,
      fetchPages (·.addr) (2 ^ 128) (fun i bound => (dbs i).getLeases6From bound pageSize)
        lowerBound = some leases ∧
      Fetched (·.addr) (fun i => (dbs i).seq .address) lowerBound leases := by
  refine ⟨fun dbs _ => ?_, fun dbs _ => ?_⟩
  all_goals
    exact fetchPages_spec hsize (fun i => ascending_addresses (dbs i) rfl)
      (Nat.le_add_left _ _)

open Sample in
/-- One lease per page: a lease that is always there is fetched, although the one before it goes. -/
theorem paging_behind_deleted :
    ∃ leases, fetchPages (·.addr) (2 ^ 32) (fun i bound => ((if i = 0 then
        serverWith [lease 1 1 0xC000020A#32, lease 2 1 0xC000020B#32] else
        serverWith [lease 2 1 0xC000020B#32]).leases).getLeases4From bound 1) 0 = some leases ∧
      ∃ l ∈ leases, l.addr = 0xC000020B#32 := by
  obtain ⟨leases, hrun, hfetched⟩ := (paging_complete Nat.one_pos).1 (fun i => (if i = 0 then
    serverWith [lease 1 1 0xC000020A#32, lease 2 1 0xC000020B#32] else
    serverWith [lease 2 1 0xC000020B#32]).leases) 0
  refine ⟨leases, hrun, hfetched.complete _ (by decide) fun i => ?_⟩
  cases i with
  | zero => exact ⟨lease 2 1 0xC000020B#32, by decide, rfl⟩
  | succ i =>
    rw [if_neg i.succ_ne_zero]
    exact ⟨lease 2 1 0xC000020B#32, by decide, rfl⟩

end Dhcp
