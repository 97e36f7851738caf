import KeaDhcp.Infra.Run
import KeaDhcp.Lfc.LfcController

/-!
# Lease file cleanup loses nothing

The files that are loaded mean what all rows that were ever appended mean, wherever the server and
`kea-lfc` crash. The rotation of the lease file is the one step that can go wrong: it must not meet
a `kea-lfc` that has looked for the input file already, nor what such a process left behind.
-/

namespace Dhcp

namespace Lfc

open Infra List Journal MultiIndex Option LeaseFileFormat

variable {α κ ι : Type} [DecidableEq κ] {S : IndexSpec α κ ι} {F : LeaseFileFormat S}
  {s : System S} {files : LeaseFiles α}

/-! ## What the files mean -/

/-- What the previous and the input file mean together, which is what `kea-lfc` is to write. -/
def merged (F : LeaseFileFormat S) (files : LeaseFiles α) : κ → Option α :=
  F.journal.meaning blank (files.previous.getD [] ++ files.input.getD [])

/-- What the files besides the current one mean to a server that loads them. -/
def base (F : LeaseFileFormat S) (files : LeaseFiles α) : κ → Option α :=
  match files.finish with
  | some rows => F.journal.meaning blank rows
  | none => merged F files

theorem find_loadLeasesFromFiles :
    (F.loadLeasesFromFiles files).find =
      F.journal.meaning (base F files) (files.current.getD []) := by
  unfold loadLeasesFromFiles base merged
  cases files.finish with
  | some rows =>
    simp only [F.find_load]
    rfl
  | none =>
    simp only [F.find_load, meaning_append]
    rfl

variable {rows : List α}

theorem base_of_finish (h : files.finish = some rows) :
    base F files = F.journal.meaning blank rows := by
  rw [base, h]

theorem base_of_none (h : files.finish = none) : base F files = merged F files := by
  rw [base, h]

theorem proper_merged : F.journal.Proper (merged F files) :=
  proper_blank.meaning _

/-! ## The invariant -/

/-- The row is one that `kea-lfc` is to write. -/
def IsMerged (F : LeaseFileFormat S) (files : LeaseFiles α) (row : α) : Prop :=
  merged F files (S.key row) = some row

theorem merged_of_no_output (h : files.output = none) : ∀ written, files.output = some written →
    files.finish = none ∧ ∀ row ∈ written, IsMerged F files row := by
  intro written hwritten
  rw [h] at hwritten
  cases hwritten

/-- What `kea-lfc` relies on in each of its phases. -/
def LfcSound (F : LeaseFileFormat S) (files : LeaseFiles α) : Option (LfcPhase S) → Prop
  | none | some .checkFinish => True
  | some .loadPrevious => files.finish = none
  | some (.loadInput storage) =>
    files.finish = none ∧
      storage.find = F.journal.meaning blank (files.previous.getD [])
  | some (.openOutput storage) => files.finish = none ∧ storage.find = merged F files
  | some (.write rows) =>
    files.finish = none ∧ ∃ written, files.output = some written ∧
      (∀ row ∈ rows, IsMerged F files row) ∧
      ∀ k row, merged F files k = some row → row ∈ written ∨ row ∈ rows
  | some .removePrevious | some .removeInput => files.finish.isSome
  | some .renameFinish => files.finish.isSome ∧ files.input = none

structure Sound (F : LeaseFileFormat S) (s : System S) : Prop where
  /-- The files mean what all rows mean. -/
  loads : F.journal.meaning (base F s.files) (s.files.current.getD []) =
    F.journal.meaning blank s.history
  /-- An output file, also one that a crash left, has only rows that are to be written. -/
  output : ∀ written, s.files.output = some written →
    s.files.finish = none ∧ ∀ row ∈ written, IsMerged F s.files row
  /-- Nobody but the server itself makes an input file. -/
  server : s.server = .rename → s.files.input = none
  lfc : LfcSound F s.files s.lfc

theorem sound_init : Sound F (System.init : System S) where
  loads := rfl
  output := merged_of_no_output rfl
  server := by
    intro h
    cases h
  lfc := trivial

/-! ## The server -/

variable {phase : Option (LfcPhase S)} {current : Option (List α)}

theorem lfcSound_current :
    LfcSound F { files with current := current } phase ↔ LfcSound F files phase := by
  cases phase with
  | none => rfl
  | some phase => cases phase <;> rfl

theorem sound_append (h : Sound F s) {row : α} : Sound F (s.append row) := by
  unfold System.append
  split
  case h_1 rows hrunning hcurrent =>
    refine ⟨?_, h.output, fun hrename => ?_, (lfcSound_current).mpr h.lfc⟩
    · have hloads := h.loads
      rw [hcurrent] at hloads
      show F.journal.meaning (base F s.files) (rows ++ [row]) =
        F.journal.meaning blank (s.history ++ [row])
      rw [meaning_concat, meaning_concat, ← hloads]
      rfl
    · exact h.server hrename
  case h_2 => exact h

variable {spawned : Nat}

theorem Sound.withServer (h : Sound F s) {server : ServerPhase}
    (hcurrent : current.getD [] = s.files.current.getD [])
    (hserver : server = .rename → s.files.input = none) :
    Sound F { s with
      files := { s.files with current := current }, server := server, spawned := spawned } where
  loads := by
    rw [hcurrent]
    exact h.loads
  output := h.output
  server := hserver
  lfc := (lfcSound_current).mpr h.lfc

/-- `kea-lfc` has looked for the input file. -/
def PastInput : Option (LfcPhase S) → Prop
  | none | some .checkFinish | some .loadPrevious | some (.loadInput _) => False
  | some (.openOutput _) | some (.write _) | some .removePrevious | some .removeInput
  | some .renameFinish => True

/-- Before the server renames the lease file, nothing has come in between. -/
def RotatesSafely (s : System S) : Prop :=
  s.server = .rename → s.files.finish = none ∧ s.files.output = none ∧ ¬PastInput s.lfc

section

variable (h : Sound F s)
include h

/-- The current file becomes the input file. -/
theorem sound_rotate (hsafe : RotatesSafely s) (hserver : s.server = .rename)
    (hcurrent : s.files.current = some rows) :
    Sound F { s with
      files := { s.files with input := some rows, current := none }, server := .reopen true } := by
  obtain ⟨hfinish, houtput, hpast⟩ := hsafe hserver
  have hinput := h.server hserver
  refine ⟨?_, ?_, ?_, ?_⟩
  · have hloads := h.loads
    rw [base_of_none hfinish, merged, hinput, hcurrent] at hloads
    have hbase : base F { s.files with input := some rows, current := none } =
        F.journal.meaning blank (s.files.previous.getD [] ++ rows) :=
      base_of_none hfinish
    rw [hbase, ← hloads, meaning_append]
    simp
  · exact merged_of_no_output houtput
  · intro hrename
    cases hrename
  · have hlfc := h.lfc
    -- The phases in which the input file matters are those that the condition excludes.
    rcases hphase : s.lfc with _ | phase
    · trivial
    rw [hphase] at hpast hlfc
    cases phase with
    | checkFinish => trivial
    | loadPrevious => exact hfinish
    | loadInput storage => exact ⟨hfinish, hlfc.2⟩
    | openOutput _ | write _ | removePrevious | removeInput | renameFinish =>
      exact absurd trivial hpast

theorem sound_lfcExecute (hsafe : RotatesSafely s) : Sound F s.lfcExecute := by
  unfold System.lfcExecute
  split
  case h_1 =>
    refine h.withServer rfl fun hrename => ?_
    split at hrename <;> cases hrename
  case h_2 =>
    refine h.withServer rfl fun hrename => ?_
    split at hrename
    · cases hrename
    · rename_i hinput
      simpa using hinput
  case h_3 hserver =>
    split
    · rename_i rows hcurrent
      exact sound_rotate h hsafe hserver hcurrent
    · refine h.withServer rfl fun hrename => ?_
      cases hrename
  case h_4 doLfc =>
    refine h.withServer rfl fun hrename => ?_
    split at hrename <;> cases hrename
  case h_5 =>
    refine h.withServer rfl fun hrename => ?_
    cases hrename
  case h_6 => exact h

theorem sound_start : Sound F s.start := by
  unfold System.start
  split
  · refine h.withServer rfl fun hrename => ?_
    cases hrename
  · exact h

/-! ## kea-lfc -/

theorem Sound.withLfc (hphase : LfcSound F s.files phase) :
    Sound F { s with lfc := phase, spawned := spawned } :=
  ⟨h.loads, h.output, h.server, hphase⟩

theorem sound_launch : Sound F s.launch := by
  unfold System.launch
  split
  · exact h
  · exact h.withLfc h.lfc
  · exact h.withLfc trivial

theorem Sound.output_eq_none (hfinish : s.files.finish.isSome) : s.files.output = none := by
  cases houtput : s.files.output with
  | none => rfl
  | some written =>
    rw [(h.output written houtput).1] at hfinish
    cases hfinish

theorem sound_openOutput {storage : MultiIndex S}
    (hlfc : s.lfc = some (.openOutput storage)) :
    Sound F { s with
      files := { s.files with output := some (s.files.output.getD []) }
      lfc := some (.write storage.rows) } := by
  have hphase := h.lfc
  rw [hlfc] at hphase
  obtain ⟨hfinish, hstorage⟩ := hphase
  refine ⟨h.loads, ?_, h.server, ?_⟩
  · rintro written ⟨⟩
    refine ⟨hfinish, fun row hrow => ?_⟩
    cases houtput : s.files.output with
    | none =>
      rw [houtput] at hrow
      cases hrow
    | some written =>
      rw [houtput] at hrow
      exact (h.output written houtput).2 row hrow
  · refine ⟨hfinish, _, rfl, fun row hrow => ?_, fun k row hrow => .inr ?_⟩
    · show merged F s.files (S.key row) = some row
      rw [← hstorage]
      exact find_eq_some_iff.mpr ⟨hrow, rfl⟩
    · have hfind : storage.find k = some row := by
        rw [hstorage]
        exact hrow
      exact mem_of_find hfind

theorem sound_writeRow {row : α} (hlfc : s.lfc = some (.write (row :: rows))) :
    Sound F { s with
      files := { s.files with output := s.files.output.map (· ++ [row]) }
      lfc := some (.write rows) } := by
  have hphase := h.lfc
  rw [hlfc] at hphase
  obtain ⟨hfinish, written, houtput, hrows, hcomplete⟩ := hphase
  obtain ⟨hrow, hrest⟩ := forall_mem_cons.mp hrows
  refine ⟨h.loads, ?_, h.server, hfinish, written ++ [row], ?_, hrest, ?_⟩
  · intro written' hwritten'
    have heq : written ++ [row] = written' := by
      simpa [houtput] using hwritten'
    subst heq
    refine ⟨hfinish, fun r hr => ?_⟩
    rcases mem_append.mp hr with hr | hr
    · exact (h.output written houtput).2 r hr
    · rw [mem_singleton.mp hr]
      exact hrow
  · show s.files.output.map (· ++ [row]) = _
    rw [houtput]
    rfl
  · intro k r hr
    rcases hcomplete k r hr with hr | hr
    · exact .inl (mem_append_left _ hr)
    rcases mem_cons.mp hr with rfl | hr
    · exact .inl (mem_append_right _ (mem_singleton.mpr rfl))
    · exact .inr hr

theorem sound_renameOutput (hlfc : s.lfc = some (.write []))
    (houtput : s.files.output = some rows) :
    Sound F { s with
      files := { s.files with output := none, finish := some rows }
      lfc := some .removePrevious } := by
  have hphase := h.lfc
  rw [hlfc] at hphase
  obtain ⟨hfinish, written, hwritten, -, hcomplete⟩ := hphase
  rw [houtput, some.injEq] at hwritten
  subst hwritten
  have hmeaning : F.journal.meaning blank rows = merged F s.files := by
    refine meaning_eq_of_rows proper_merged (h.output rows houtput).2 ?_
    intro k r hr
    exact (hcomplete k r hr).resolve_right not_mem_nil
  refine ⟨?_, ?_, h.server, rfl⟩
  · have hloads := h.loads
    rw [base_of_none hfinish, ← hmeaning] at hloads
    exact hloads
  · exact merged_of_no_output rfl

/-- Behind a completed file, the files that it replaces do not matter. -/
theorem Sound.withReplaced (hfinish : s.files.finish.isSome)
    {previous input : Option (List α)} (hserver : s.server = .rename → input = none)
    (hphase : LfcSound F { s.files with previous := previous, input := input } phase) :
    Sound F { s with
      files := { s.files with previous := previous, input := input }, lfc := phase } := by
  have houtput := h.output_eq_none hfinish
  obtain ⟨rows, hrows⟩ := isSome_iff_exists.mp hfinish
  refine ⟨?_, ?_, hserver, hphase⟩
  · have hloads := h.loads
    have hbase : base F { s.files with previous := previous, input := input } =
        F.journal.meaning blank rows :=
      base_of_finish hrows
    rw [base_of_finish hrows, ← hbase] at hloads
    exact hloads
  · exact merged_of_no_output houtput

theorem sound_renameFinish (hlfc : s.lfc = some .renameFinish)
    (hfinish : s.files.finish = some rows) :
    Sound F { s with
      files := { s.files with finish := none, previous := some rows }, lfc := none } := by
  have hphase := h.lfc
  rw [hlfc] at hphase
  have houtput := h.output_eq_none hphase.1
  refine ⟨?_, ?_, h.server, trivial⟩
  · have hloads := h.loads
    have hbase : base F { s.files with finish := none, previous := some rows } =
        F.journal.meaning blank (rows ++ s.files.input.getD []) := rfl
    rw [hbase, hphase.2, getD_none, append_nil, ← base_of_finish hfinish]
    exact hloads
  · exact merged_of_no_output houtput

theorem sound_lfcStep : Sound F (s.lfcStep F) := by
  have hphase := h.lfc
  unfold System.lfcStep
  split
  case h_1 => exact h
  case h_2 hlfc =>
    refine h.withLfc ?_
    split
    · rename_i hfinish
      exact hfinish
    · rename_i hfinish
      show s.files.finish = none
      simpa using hfinish
  case h_3 hlfc =>
    rw [hlfc] at hphase
    exact h.withLfc ⟨hphase, F.find_load _ _⟩
  case h_4 storage hlfc =>
    rw [hlfc] at hphase
    refine h.withLfc ⟨hphase.1, ?_⟩
    rw [F.find_load, hphase.2, merged, meaning_append]
  case h_5 storage hlfc => exact sound_openOutput h hlfc
  case h_6 row rows hlfc => exact sound_writeRow h hlfc
  case h_7 hlfc =>
    split
    · rename_i rows houtput
      exact sound_renameOutput h hlfc houtput
    · exact h.withLfc trivial
  case h_8 hlfc =>
    rw [hlfc] at hphase
    exact h.withReplaced hphase h.server hphase
  case h_9 hlfc =>
    rw [hlfc] at hphase
    exact h.withReplaced hphase (fun _ => rfl) ⟨hphase, rfl⟩
  case h_10 hlfc =>
    split
    · rename_i rows hfinish
      exact sound_renameFinish h hlfc hfinish
    · exact h.withLfc trivial

end

/-! ## Every run -/

/-- The condition on a step: only the rotation has one. -/
def Safe : Event α → System S → Prop
  | .lfcExecute, s => RotatesSafely s
  | _, _ => True

theorem sound_step (h : Sound F s) {event : Event α} (hsafe : Safe event s) :
    Sound F (step F event s) := by
  cases event with
  | append row => exact sound_append h
  | lfcExecute => exact sound_lfcExecute h hsafe
  | serverCrash =>
    refine h.withServer rfl fun hrename => ?_
    cases hrename
  | serverStart => exact sound_start h
  | launch => exact sound_launch h
  | lfcStep => exact sound_lfcStep h
  | lfcCrash =>
    show Sound F (if s.lfc.isSome then { s with lfc := none, spawned := s.spawned + 1 } else s)
    split
    · exact h.withLfc trivial
    · exact h

/-- The files give exactly the leases that all appended rows give. -/
def LoadsAll (F : LeaseFileFormat S) (s : System S) : Prop :=
  ∀ l, l ∈ F.loadLeasesFromFiles s.files ↔ l ∈ F.load empty s.history

theorem Sound.loadsAll (h : Sound F s) : LoadsAll F s := by
  have hfind : (F.loadLeasesFromFiles s.files).find = (F.load empty s.history).find := by
    rw [find_loadLeasesFromFiles, F.find_load, h.loads]
    rfl
  exact mem_congr hfind

/--
**Lease file cleanup keeps all leases**, with crashes anywhere, as long as the server renames the
lease file only while there is no completed file, no output file and no `kea-lfc` that has looked
for the input file already.
-/
theorem cleanup_preserves_leases (F : LeaseFileFormat S) (s : System S)
    (h : Reaches (step F) Safe System.init s) : LoadsAll F s := by
  have hsound : Sound F s := h.inv sound_init fun _ _ ht hsafe => sound_step ht hsafe
  exact hsound.loadsAll

namespace Sample

def row (n : Nat) : Lease4 :=
  { addr := 0xC0000200#32 + BitVec.ofNat 32 n, t1 := 50, t2 := 80, validLft := 100, cltt := 0
    subnetId := 1, hostname := "", fqdnFwd := false, fqdnRev := false
    hwaddr := some HWAddr.empty, state := .default, clientId := none }

/-- The steps of a whole `lfcExecute` that rotates the lease file. -/
def rotation : List (Event Lease4) := replicate 5 .lfcExecute

/--
The second `lfcExecute` starts a `kea-lfc` while the first process is about to end. The new
process finds no input file, and the server makes one before it is done.
-/
def overlap : List (Event Lease4) :=
  [.append (row 1)] ++ rotation ++
  [.launch] ++ replicate 8 .lfcStep ++
  [.lfcExecute, .lfcExecute] ++
  [.lfcStep] ++
  [.launch] ++ replicate 3 .lfcStep ++
  [.append (row 2)] ++ rotation ++
  replicate 6 .lfcStep

end Sample

/-- The state between the rename of the lease file and its creation. -/
theorem cleanup_preserves_leases_sample :
    let s := step leaseFile4 .lfcExecute (step leaseFile4 .lfcExecute (step leaseFile4 .lfcExecute
      (step leaseFile4 (.append (Sample.row 1)) System.init)))
    s.files.input = some [Sample.row 1] ∧ s.files.current = none ∧ LoadsAll leaseFile4 s := by
  intro s
  have hreach : Reaches (step leaseFile4) Safe System.init s := by
    refine .next _ (.next _ (.next _ (.next _ .start trivial) ?_) ?_) ?_
    · intro hrename
      cases hrename
    · intro hrename
      cases hrename
    · exact fun _ => ⟨rfl, rfl, id⟩
  exact ⟨rfl, rfl, cleanup_preserves_leases leaseFile4 s hreach⟩

/-- A run that ends with no `kea-lfc` active, in which the second row is lost. -/
theorem rotation_loses_lease :
    let s := Sample.overlap.foldl (fun s event => step leaseFile4 event s) System.init
    s.lfc.isNone ∧ s.history = [Sample.row 1, Sample.row 2] ∧
      (leaseFile4.load empty s.history).rows = [Sample.row 1, Sample.row 2] ∧
      (leaseFile4.loadLeasesFromFiles s.files).rows = [Sample.row 1] := by
  decide

end Lfc

end Dhcp
