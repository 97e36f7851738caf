import KeaDhcp.Properties.Allocate6

/-!
# The leases that are not reserved

`removeNonreservedLeases6` is meant to keep one lease at least. Its loop stops when the number of
leases that are left reaches one after a removal, so a list that begins with one lease is emptied.
-/

namespace Dhcp

open Infra List Option

variable {keep : Lease6 → Except EngineError Bool} {pre kept : List Lease6} {l : Lease6}

/--
What removing the leases that are not reserved promises: a lease stays, every reserved lease stays,
the database loses what is dropped, and a lease that is not reserved stays only alone.
-/
def KeepsOne6 (env : Env) (ctx : ClientContext6) (leases : List Lease6) (sn : Session6) : Prop :=
  Post (removeNonreservedLeases6 env ctx leases) sn
    (fun kept sn' => kept ≠ [] ∧
      (∀ l ∈ leases, isReserved6 ctx l = .ok true → l ∈ kept) ∧
      (∀ m, m ∈ sn'.server.leases ↔ m ∈ sn.server.leases ∧ ¬ (m ∈ leases ∧ m ∉ kept)) ∧
      ∀ l ∈ kept, isReserved6 ctx l = .ok true ∨ kept = [l])
    fun _ _ => False

/-- The leases that a pass drops are the ones that the database loses. -/
theorem mem_dropped_iff {leases : List Lease6} {total : Option Nat} {sn sn' : Session6}
    {ctx : ClientContext6} (hnodup : leases.Nodup) (hdb : ∀ l ∈ leases, l ∈ sn.server.leases)
    (hkept : (sift keep total leases).kept = .ok kept)
    (h : Dropped6 ctx (sift keep total leases).removed sn sn') (m : Lease6) :
    m ∈ sn'.server.leases ↔ m ∈ sn.server.leases ∧ ¬ (m ∈ leases ∧ m ∉ kept) := by
  have hperm := sift_perm hkept
  rw [h.leases, mem_eraseAll]
  refine and_congr_right fun hm => ⟨?_, ?_⟩
  · rintro hne ⟨hmem, hnot⟩
    exact hne m ((mem_append.mp (hperm.mem_iff.mpr hmem)).resolve_right hnot) rfl
  intro hnot x hx haddr
  have hxl : x ∈ leases := (sift_removed_sublist keep total leases).subset hx
  obtain rfl : m = x := MultiIndex.eq_of_key_eq hm (hdb x hxl) haddr
  have hdisjoint := disjoint_of_nodup_append (hperm.nodup_iff.mpr hnodup)
  exact hnot ⟨hxl, fun hk => hdisjoint hx hk⟩

/--
The promise is kept for the leases `pre` and a last one `l` when `IPv6Resrv` accepts every lease
that is looked at, unless there is a single lease and it is not reserved.
-/
theorem keepsOne6_iff (env : Env) (ctx : ClientContext6) (pre : List Lease6) (l : Lease6)
    (sn : Session6) (hnodup : (pre ++ [l]).Nodup) (hdb : ∀ m ∈ pre ++ [l], m ∈ sn.server.leases) :
    KeepsOne6 env ctx (pre ++ [l]) sn ↔ (∀ m ∈ pre, ∃ b, isReserved6 ctx m = .ok b) ∧
      (isReserved6 ctx l = .ok true ∨
        pre ≠ [] ∧ (isReserved6 ctx l = .ok false ∨ ∀ m ∈ pre, isReserved6 ctx m = .ok false)) := by
  have hrun := removeNonreserved_post env ctx (pre ++ [l]) sn
  have hsift := sift_counted (isReserved6 ctx) 0 pre l
  rw [Nat.zero_add, show pre.length + 1 = (pre ++ [l]).length by simp] at hsift
  set p := sift (isReserved6 ctx) (some (pre ++ [l]).length) (pre ++ [l]) with hp
  constructor
  · intro h
    obtain ⟨kept, hkept, hne⟩ : ∃ kept, p.kept = .ok kept ∧ kept ≠ [] := by
      cases hx : removeNonreservedLeases6 env ctx (pre ++ [l]) sn with
      | ok kept sn' => exact ⟨kept, (hrun.ok hx).1, (Post.ok h hx).1⟩
      | error e sn' => exact (Post.error h hx).elim
    rw [hsift] at hkept
    split at hkept
    · rename_i hall
      exact ⟨fun m hm => ⟨false, hall.2.2 m hm⟩, .inr ⟨hall.2.1, .inr hall.2.2⟩⟩
    have hlooked := looked_of_sift hkept
    refine ⟨fun m hm => hlooked m (mem_append_left _ hm), ?_⟩
    obtain ⟨_ | _, hl⟩ := hlooked l (by simp)
    · refine .inr ⟨?_, .inl hl⟩
      rintro rfl
      obtain ⟨m, hm⟩ := exists_mem_of_ne_nil kept hne
      have hml : m = l := by
        simpa using (sift_perm hkept).mem_iff.mp (mem_append_right _ hm)
      have htrue := keep_of_sift hkept hm
      rw [hml, hl] at htrue
      cases htrue
    · exact .inl hl
  · rintro ⟨hpre, hl⟩
    refine hrun.mono ?_ ?_
    · rintro kept sn' ⟨hkept, hdrop⟩
      have hdropped := mem_dropped_iff hnodup hdb hkept hdrop
      have hreserved : ∀ m ∈ pre ++ [l], isReserved6 ctx m = .ok true → m ∈ kept :=
        fun m hm => mem_of_sift hkept hm
      rw [hsift] at hkept
      split at hkept
      · obtain rfl : [l] = kept := by simpa using hkept
        exact ⟨by simp, hreserved, hdropped, fun m hm => .inr (by rw [mem_singleton.mp hm])⟩
      rename_i hsome
      refine ⟨?_, hreserved, hdropped, fun m hm => .inl (keep_of_sift hkept hm)⟩
      rcases hl with hl | ⟨hne, hl⟩
      · exact ne_nil_of_mem (hreserved l (by simp) hl)
      obtain ⟨m, hm, hnot⟩ : ∃ m ∈ pre, isReserved6 ctx m ≠ .ok false := by
        simpa [hne] using hsome
      obtain ⟨_ | _, hb⟩ := hpre m hm
      · exact absurd hb hnot
      · exact ne_nil_of_mem (hreserved m (by simp [hm]) hb)
    · rintro e sn' ⟨herr, -⟩
      rw [hsift] at herr
      split at herr
      · cases herr
      rename_i hsome
      obtain ⟨m, hm, hme⟩ := sift_error herr
      rcases mem_append.mp hm with hm | hm
      · obtain ⟨b, hb⟩ := hpre m hm
        rw [hb] at hme
        cases hme
      · obtain rfl := mem_singleton.mp hm
        rcases hl with hl | ⟨hne, hl | hl⟩
        · rw [hl] at hme
          cases hme
        · rw [hl] at hme
          cases hme
        · exact hsome ⟨rfl, hne, hl⟩

section Inputs

open Sample

def host11 : Host := host6 1 1 0x20010db8000100000000000000000011#128

/-- A client that has ::11 reserved. -/
def reserved11 : ClientContext6 := client6 1 false [(1, host11)]

def lease12 : Lease6 := lease6 1 1 0x20010db8000100000000000000000012#128 .default

def lease13 : Lease6 := lease6 1 1 0x20010db8000100000000000000000013#128 .default

def holding (leases : List Lease6) : Session6 := reserved11.session ptr61 (serverWith6 leases)

/-- Of two leases that are not reserved, one stays. -/
theorem keepsOne6_two :
    KeepsOne6 (envAt 10 (hostsOf host11)) reserved11 [lease12, lease13]
      (holding [lease12, lease13]) :=
  (keepsOne6_iff _ reserved11 [lease12] lease13 _ (by decide) (by decide)).mpr
    ⟨by decide, by decide⟩

/-- A single lease that is not reserved is removed. -/
theorem single_lease_lost :
    ¬ KeepsOne6 (envAt 10 (hostsOf host11)) reserved11 [lease12] (holding [lease12]) := by
  intro h
  obtain ⟨hne, -⟩ := h
  exact hne rfl

end Inputs

end Dhcp
