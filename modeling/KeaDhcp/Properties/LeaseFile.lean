import KeaDhcp.Infra.Run
import KeaDhcp.Dhcpsrv.LeaseFile

/-!
# The lease file replays memory

Every change of the leases is written to the lease file before it is made in memory, so that
loading the file gives the leases in memory.
-/

namespace Dhcp

open Infra MultiIndex Memfile Memfile6 LeaseFileFormat Journal Lease6Storage Bool Option

variable {α κ ι : Type} [DecidableEq κ] {S : IndexSpec α κ ι} {F : LeaseFileFormat S}
  {m : Memfile S} {l : α}

namespace Memfile

/-! ## What the calls do -/

omit [DecidableEq κ] in
theorem append_run :
    append F l m = if F.writable l then .ok () { m with leaseFile := m.leaseFile ++ [l] }
      else .error .badValue m := by
  unfold append
  cases F.writable l <;> rfl

theorem after_add {present : MultiIndex S → α → Bool} :
    after (add F present l) m =
      if !present m.storage l && F.writable l then
        { storage := m.storage.insert l, leaseFile := m.leaseFile ++ [l] }
      else m := by
  unfold after add
  simp only [run_bind, run_get]
  cases present m.storage l with
  | true => rfl
  | false =>
    simp only [false_eq_true, if_false, run_bind, append_run]
    cases F.writable l <;> rfl

/-- An update is refused without a lease to update. -/
theorem after_update :
    after (update F l) m =
      if (m.storage.find (S.key l)).isSome && F.writable l then
        { storage := m.storage.replace l, leaseFile := m.leaseFile ++ [l] }
      else m := by
  unfold after update
  simp only [run_bind, run_get]
  cases m.storage.find (S.key l) with
  | none => rfl
  | some _ =>
    simp only [run_bind, append_run]
    cases F.writable l <;> rfl

theorem after_delete_none {addr : κ} (h : m.storage.find addr = none) :
    after (delete F addr) m = m := by
  unfold after delete
  simp only [run_bind, run_get, h]
  rfl

theorem after_delete_some {addr : κ} (h : m.storage.find addr = some l) (hwritable : F.writable l) :
    after (delete F addr) m =
      { storage := m.storage.erase addr, leaseFile := m.leaseFile ++ [F.removed l] } := by
  unfold after delete
  simp only [run_bind, run_get, h, append_run, F.removed_writable, hwritable]
  rfl

omit [DecidableEq κ] in
theorem forM_append {leases : List α} (h : ∀ l ∈ leases, F.writable l) :
    (leases.forM fun l => append F (F.expiredRemoved l)) m =
      .ok () { m with leaseFile := m.leaseFile ++ leases.map F.expiredRemoved } := by
  induction leases generalizing m with
  | nil =>
    rw [List.map_nil, List.append_nil]
    rfl
  | cons l leases ih =>
    obtain ⟨hl, hleases⟩ := List.forall_mem_cons.mp h
    show (append F (F.expiredRemoved l) >>= fun _ =>
      leases.forM fun l => append F (F.expiredRemoved l)) m = _
    have happend : append F (F.expiredRemoved l) m =
        .ok () { m with leaseFile := m.leaseFile ++ [F.expiredRemoved l] } := by
      rw [append_run, F.expiredRemoved_writable, if_pos hl]
    rw [run_bind_ok happend, ih hleases, List.append_assoc]
    rfl

variable {expiration : ι} {due : α → Bool} {addr : κ}

omit [DecidableEq κ] in
theorem after_deleteExpiredReclaimed (h : ∀ l ∈ m.storage, F.writable l) :
    after (deleteExpiredReclaimed F expiration due) m =
      { storage := m.storage.filter fun l => !due l
        leaseFile := m.leaseFile ++
          ((m.storage.seq expiration).filter due).map F.expiredRemoved } := by
  have hdue : ∀ l ∈ (m.storage.seq expiration).filter due, F.writable l := fun l hl =>
    h l (mem_seq.mp (List.mem_of_mem_filter hl))
  unfold after deleteExpiredReclaimed
  simp only [run_bind, run_get, forM_append hdue]
  rfl

/-! ## The file means what is in memory -/

/-- The leases that are read from the file are those in memory, and all of these can be written. -/
structure Synced (F : LeaseFileFormat S) (m : Memfile S) : Prop where
  replay : F.journal.meaning blank m.leaseFile = m.storage.find
  writable : ∀ l ∈ m.storage, F.writable l

theorem find_empty : (empty : MultiIndex S).find = blank := rfl

theorem synced_fresh : Synced F fresh :=
  ⟨rfl, fun _ hl => absurd hl not_mem_empty⟩

/-- Rows without a lifetime remove their leases. -/
theorem meaning_removals {rows : List α} (hrows : ∀ r ∈ rows, F.validLft r = 0)
    {f : κ → Option α} {k : κ} :
    F.journal.meaning f rows k = if ∃ r ∈ rows, S.key r = k then none else f k := by
  induction rows generalizing f with
  | nil => simp
  | cons row rows ih =>
    obtain ⟨hrow, hrows⟩ := List.forall_mem_cons.mp hrows
    have hlive : F.journal.live row = false := by simp [journal, hrow]
    rw [meaning_cons, ih hrows]
    by_cases hk : S.key row = k
    · have henter : F.journal.enter f row k = none := by
        rw [← hk]
        show F.journal.enter f row (F.journal.key row) = none
        rw [enter_self, hlive]
        rfl
      simp [hk, henter]
    · have henter : F.journal.enter f row k = f k := enter_of_ne _ (Ne.symm hk)
      simp [hk, henter]

section

variable (h : Synced F m)

include h

/-- The file is loaded as what is in memory. -/
theorem Synced.load (l : α) : l ∈ F.load empty m.leaseFile ↔ l ∈ m.storage := by
  have hfind : (F.load empty m.leaseFile).find = m.storage.find := by
    rw [F.find_load, find_empty, h.replay]
  exact mem_congr hfind l

/-- A row that says what the storage did. -/
theorem Synced.concat {row : α} {storage : MultiIndex S}
    (hfind : storage.find = F.journal.enter m.storage.find row)
    (hwritable : ∀ l ∈ storage, F.writable l) :
    Synced F { storage := storage, leaseFile := m.leaseFile ++ [row] } :=
  ⟨by rw [meaning_concat, h.replay, hfind], hwritable⟩

theorem Synced.insert (hnone : m.storage.find (S.key l) = none) (hlive : F.validLft l ≠ 0)
    (hwritable : F.writable l) :
    Synced F { storage := m.storage.insert l, leaseFile := m.leaseFile ++ [l] } := by
  refine h.concat ?_ fun l' hl' => ?_
  · rw [← F.find_loadRow, loadRow, hnone]
    simp [Nat.pos_of_ne_zero hlive]
  · rcases mem_of_mem_insert hl' with rfl | hl'
    · exact hwritable
    · exact h.writable l' hl'

theorem Synced.replace {old : α} (hsome : m.storage.find (S.key l) = some old)
    (hlive : F.validLft l ≠ 0) (hwritable : F.writable l) :
    Synced F { storage := m.storage.replace l, leaseFile := m.leaseFile ++ [l] } := by
  refine h.concat ?_ fun l' hl' => ?_
  · rw [← F.find_loadRow, loadRow, hsome]
    simp [hlive]
  · rcases mem_of_mem_replace hl' with rfl | hl'
    · exact hwritable
    · exact h.writable l' hl'

theorem Synced.erase (hsome : m.storage.find addr = some l) :
    Synced F { storage := m.storage.erase addr, leaseFile := m.leaseFile ++ [F.removed l] } := by
  have hkey : S.key (F.removed l) = addr := (F.removed_key l).trans (key_of_find hsome)
  refine h.concat ?_ fun l' hl' => h.writable l' (mem_erase.mp hl').1
  rw [← F.find_loadRow, loadRow, hkey, hsome]
  simp [F.removed_validLft]

theorem Synced.filter (expiration : ι) (due : α → Bool) :
    Synced F
      { storage := m.storage.filter fun l => !due l
        leaseFile := m.leaseFile ++
          ((m.storage.seq expiration).filter due).map F.expiredRemoved } := by
  refine ⟨?_, fun l hl => h.writable l (mem_filter.mp hl).1⟩
  funext k
  have hzero : ∀ r ∈ ((m.storage.seq expiration).filter due).map F.expiredRemoved,
      F.validLft r = 0 := by
    intro r hr
    obtain ⟨l, -, rfl⟩ := List.mem_map.mp hr
    exact F.expiredRemoved_validLft l
  rw [meaning_append, h.replay, meaning_removals hzero]
  ext l
  rw [find_eq_some_iff, mem_filter]
  -- A lease with the key `k` is due exactly if a row with that key was written.
  have hwritten : l ∈ m.storage → S.key l = k →
      ((∃ r ∈ ((m.storage.seq expiration).filter due).map F.expiredRemoved, S.key r = k) ↔
        due l) := by
    rintro hl rfl
    constructor
    · rintro ⟨r, hr, hkey⟩
      obtain ⟨l', hl', rfl⟩ := List.mem_map.mp hr
      obtain ⟨hseq, hdue⟩ := List.mem_filter.mp hl'
      rw [F.expiredRemoved_key] at hkey
      rwa [eq_of_key_eq (mem_seq.mp hseq) hl hkey] at hdue
    · intro hdue
      have hmem : l ∈ (m.storage.seq expiration).filter due :=
        List.mem_filter.mpr ⟨mem_seq.mpr hl, hdue⟩
      exact ⟨_, List.mem_map_of_mem hmem, F.expiredRemoved_key l⟩
  constructor
  · intro hvalue
    split at hvalue
    · cases hvalue
    rename_i hnone
    obtain ⟨hl, hk⟩ := find_eq_some_iff.mp hvalue
    refine ⟨⟨hl, ?_⟩, hk⟩
    simpa using fun hdue => hnone ((hwritten hl hk).mpr hdue)
  · rintro ⟨⟨hl, hdue⟩, hk⟩
    rw [if_neg, find_eq_some_iff]
    · exact ⟨hl, hk⟩
    · intro hrow
      simp [(hwritten hl hk).mp hrow] at hdue

/-! ## The calls -/

theorem synced_add {present : MultiIndex S → α → Bool}
    (hseen : present m.storage l = false → m.storage.find (S.key l) = none)
    (hlive : F.validLft l ≠ 0) : Synced F (after (add F present l) m) := by
  rw [after_add]
  split
  · rename_i hadd
    rw [and_eq_true, not_eq_true'] at hadd
    exact h.insert (hseen hadd.1) hlive hadd.2
  · exact h

theorem synced_update (hlive : F.validLft l ≠ 0) : Synced F (after (update F l) m) := by
  rw [after_update]
  split
  · rename_i hupdate
    rw [and_eq_true] at hupdate
    obtain ⟨old, hold⟩ := isSome_iff_exists.mp hupdate.1
    exact h.replace hold hlive hupdate.2
  · exact h

theorem synced_delete : Synced F (after (delete F addr) m) := by
  cases hfind : m.storage.find addr with
  | none =>
    rw [after_delete_none hfind]
    exact h
  | some l =>
    rw [after_delete_some hfind (h.writable l (mem_of_find hfind))]
    exact h.erase hfind

theorem synced_deleteExpiredReclaimed :
    Synced F (after (deleteExpiredReclaimed F expiration due) m) := by
  rw [after_deleteExpiredReclaimed h.writable]
  exact h.filter expiration due

/-- The lease file changes nothing of what a call does in memory, as `LeaseMgr` models it. -/
theorem storage_calls (present : MultiIndex S → α → Bool) (hl : F.writable l) :
    (after (add F present l) m).storage =
        (if present m.storage l then m.storage else m.storage.insert l) ∧
      (after (update F l) m).storage =
        (if (m.storage.find (S.key l)).isSome then m.storage.replace l else m.storage) ∧
      (after (delete F addr) m).storage = m.storage.erase addr ∧
      (after (deleteExpiredReclaimed F expiration due) m).storage =
        m.storage.filter fun l => !due l := by
  rw [after_add, after_update, after_deleteExpiredReclaimed h.writable, hl]
  refine ⟨?_, ?_, ?_, rfl⟩
  · cases present m.storage l <;> rfl
  · cases (m.storage.find (S.key l)).isSome <;> rfl
  · cases hfind : m.storage.find addr with
    | none =>
      rw [after_delete_none hfind]
      exact (erase_of_find_none hfind).symm
    | some l => rw [after_delete_some hfind (h.writable l (mem_of_find hfind))]

end

/--
A lease with the address of another one that the check does not see: the file gets it, memory
does not.
-/
theorem add_of_occupied (present : MultiIndex S → α → Bool) {held : α}
    (hunseen : present m.storage l = false) (hheld : m.storage.find (S.key l) = some held)
    (hlive : F.validLft l ≠ 0) (hwritable : F.writable l) :
    (F.load empty (after (add F present l) m).leaseFile).find (S.key l) = some l ∧
      (after (add F present l) m).storage = m.storage := by
  rw [after_add, hunseen, hwritable]
  refine ⟨?_, insert_taken hheld⟩
  show (F.load empty (m.leaseFile ++ [l])).find (S.key l) = some l
  rw [F.find_load, meaning_concat]
  show F.journal.enter _ l (F.journal.key l) = some l
  rw [enter_self]
  simp [journal, Nat.pos_of_ne_zero hlive]

end Memfile

/-! ## Whole runs -/

/-- A lease that is added or updated has a lifetime. -/
def MemfileCall.Lasting (F : LeaseFileFormat S) : MemfileCall α κ → Prop
  | .addLease lease | .updateLease lease => F.validLft lease ≠ 0
  | .deleteLease _ | .deleteExpiredReclaimedLeases _ _ => True

/-- Loading the lease file gives exactly the leases in memory. -/
def Memfile.Replays (F : LeaseFileFormat S) (m : Memfile S) : Prop :=
  ∀ l, l ∈ F.load empty m.leaseFile ↔ l ∈ m.storage

theorem Memfile4.synced_step {m : Memfile lease4Spec} (h : Synced leaseFile4 m)
    {call : MemfileCall Lease4 (Address 32)} (hcall : call.Lasting leaseFile4) :
    Synced leaseFile4 (Memfile4.step call m) := by
  cases call with
  | addLease lease =>
    refine synced_add h (fun hseen => ?_) hcall
    simpa [Lease4Storage.getLease4] using hseen
  | updateLease lease => exact synced_update h hcall
  | deleteLease addr => exact synced_delete h
  | deleteExpiredReclaimedLeases now secs => exact synced_deleteExpiredReclaimed h

/-- The lease that is added has the address of a lease of another type. -/
def Memfile6.Clashes (m : Memfile lease6Spec) : MemfileCall Lease6 (Address 128) → Prop
  | .addLease lease =>
    lease.duid.isSome ∧ ∃ held ∈ m.storage, held.addr = lease.addr ∧ held.type ≠ lease.type
  | .updateLease _ | .deleteLease _ | .deleteExpiredReclaimedLeases _ _ => False

variable {call : MemfileCall Lease6 (Address 128)}

/-- For DHCPv6, as long as there is no clash. -/
theorem Memfile6.synced_step {m : Memfile lease6Spec} (h : Synced leaseFile6 m)
    (hcall : call.Lasting leaseFile6) (hclash : ¬Memfile6.Clashes m call) :
    Synced leaseFile6 (step call m) := by
  cases call with
  | addLease lease =>
    by_cases hduid : lease.duid.isSome
    · refine synced_add h (fun hunseen => ?_) hcall
      by_contra hfind
      obtain ⟨held, hheld⟩ := ne_none_iff_exists'.mp hfind
      obtain ⟨hmem, haddr⟩ := find_eq_some_iff.mp hheld
      by_cases htype : held.type = lease.type
      · have hseen : getLease6 m.storage lease.type lease.addr = some held :=
          getLease6_eq_some.mpr ⟨hmem, haddr, htype⟩
        simp [hseen] at hunseen
      · exact hclash ⟨hduid, held, hmem, haddr, htype⟩
    · -- The lease cannot be written, so that nothing happens.
      show Synced leaseFile6 (after (add leaseFile6 _ lease) m)
      rw [after_add, if_neg]
      · exact h
      · simpa [leaseFile6] using fun _ => hduid
  | updateLease lease => exact synced_update h hcall
  | deleteLease addr => exact synced_delete h
  | deleteExpiredReclaimedLeases now secs => exact synced_deleteExpiredReclaimed h

/-- A call leaves the file in step with memory exactly if it does not clash. -/
theorem Memfile6.replays_step_iff {m : Memfile lease6Spec} (h : Synced leaseFile6 m)
    (hcall : call.Lasting leaseFile6) :
    (step call m).Replays leaseFile6 ↔ ¬Memfile6.Clashes m call := by
  refine ⟨fun hreplays hclash => ?_, fun hclash => (synced_step h hcall hclash).load⟩
  cases call with
  | addLease lease =>
    obtain ⟨hduid, held, hheld, haddr, htype⟩ := hclash
    have hunseen : (getLease6 m.storage lease.type lease.addr).isSome = false := by
      by_contra hsome
      obtain ⟨l, hl⟩ := isSome_iff_exists.mp (not_eq_false _ ▸ hsome)
      obtain ⟨hmem, hladdr, hltype⟩ := getLease6_eq_some.mp hl
      rw [eq_of_key_eq hmem hheld (hladdr.trans haddr.symm)] at hltype
      exact htype hltype
    have hfind : m.storage.find (lease6Spec.key lease) = some held :=
      find_eq_some_iff.mpr ⟨hheld, haddr⟩
    obtain ⟨hloaded, hstorage⟩ := add_of_occupied
      (fun storage l => (getLease6 storage l.type l.addr).isSome)
      hunseen hfind hcall hduid
    have hmem : lease ∈ (step (.addLease lease) m).storage :=
      (hreplays lease).mp (mem_of_find hloaded)
    have hold : lease ∈ m.storage := by
      have hsame : (step (.addLease lease) m).storage = m.storage := hstorage
      rwa [hsame] at hmem
    rw [eq_of_key_eq hheld hold haddr] at htype
    exact htype rfl
  | updateLease lease | deleteLease addr | deleteExpiredReclaimedLeases now secs => exact hclash

/--
**Replaying the lease file.** For DHCPv4 the file gives the leases in memory after any calls, for
DHCPv6 until a lease is added at the address of a lease of another type.
-/
theorem lease_file_replays (m₄ : Memfile lease4Spec) (m₆ : Memfile lease6Spec) :
    (Reaches Memfile4.step (fun call _ => call.Lasting leaseFile4) fresh m₄ →
      m₄.Replays leaseFile4) ∧ (Reaches step
        (fun call m => call.Lasting leaseFile6 ∧ ¬Memfile6.Clashes m call) fresh m₆ →
      m₆.Replays leaseFile6 ∧ ∀ call, call.Lasting leaseFile6 →
        ((step call m₆).Replays leaseFile6 ↔ ¬Memfile6.Clashes m₆ call)) := by
  constructor
  · intro hreach
    have hsynced : Synced leaseFile4 m₄ :=
      hreach.inv synced_fresh fun _ _ h hcall => Memfile4.synced_step h hcall
    exact hsynced.load
  · intro hreach
    have hsynced : Synced leaseFile6 m₆ :=
      hreach.inv synced_fresh fun _ _ h hcall => synced_step h hcall.1 hcall.2
    exact ⟨hsynced.load, fun _ hcall => replays_step_iff hsynced hcall⟩

namespace Sample

/-- A lease for 2001:db8:1::, as an address or as a prefix. -/
def stored6 (type : LeaseType) : Lease6 :=
  { addr := 0x20010db8000100000000000000000000#128, t1 := 50, t2 := 80, validLft := 100
    cltt := 0, subnetId := 1, hostname := "", fqdnFwd := false, fqdnRev := false, hwaddr := none
    state := .default, type := type, prefixlen := 64, iaid := 1, duid := some DUID.empty
    preferredLft := 60 }

end Sample

theorem lease_file_replays_sample :
    let m := step (.addLease (Sample.stored6 .na)) fresh
    m.Replays leaseFile6 ∧
      ¬(step (.addLease (Sample.stored6 .pd)) m).Replays leaseFile6 := by
  intro m
  have hreach : Reaches step
      (fun call m => call.Lasting leaseFile6 ∧ ¬Memfile6.Clashes m call) fresh m := by
    refine .next _ .start ⟨Nat.succ_ne_zero 99, ?_⟩
    rintro ⟨-, held, hheld, -⟩
    exact not_mem_empty hheld
  obtain ⟨hreplays, hstep⟩ := (lease_file_replays fresh m).2 hreach
  have hsecond := hstep (.addLease (Sample.stored6 .pd)) (Nat.succ_ne_zero 99)
  refine ⟨hreplays, fun hnext => hsecond.mp hnext ?_⟩
  exact ⟨rfl, Sample.stored6 .na, by decide, rfl, by decide⟩

/-- The prefix is in the file, but not in memory. -/
theorem lease_written_not_stored :
    let m := step (.addLease (Sample.stored6 .pd))
      (step (.addLease (Sample.stored6 .na)) fresh)
    m.storage.rows = [Sample.stored6 .na] ∧
      (leaseFile6.load empty m.leaseFile).rows = [Sample.stored6 .pd] := by
  decide

end Dhcp
