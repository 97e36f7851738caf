import KeaDhcp.Infra.Run
import KeaDhcp.Properties.HaContact

/-!
# Replies that wait for lease updates
-/

/-- An entry with one reference. -/
abbrev Hooks.ParkingInfo.once {α κ : Type} (a : α) (callback : Option κ) : ParkingInfo α κ :=
  { parkedObject := a, unparkCallback := callback, refcount := 1 }

namespace Hooks.ParkingLot

open List ParkingInfo

variable {α κ : Type} [DecidableEq α] {lot : ParkingLot α κ} {a b : α} {info : ParkingInfo α κ}
  {f : ParkingInfo α κ → ParkingInfo α κ}

/-! ## The entries of an object -/

def entries (lot : ParkingLot α κ) (a : α) : List (ParkingInfo α κ) :=
  filter (·.parkedObject = a) lot

theorem find_eq : lot.find a = (lot.entries a).head? := by
  unfold find entries
  rw [head?_filter]

/-- The first entry of the object is changed. -/
theorem entries_updateEntry (hf : ∀ info, (f info).parkedObject = info.parkedObject) :
    (lot.updateEntry f b).entries a =
      if b = a then (lot.entries a).modifyHead f else lot.entries a := by
  fun_induction updateEntry f b lot with
  | case1 => simp [entries]
  | case2 info lot hb => by_cases hba : b = a <;> simp [entries, hf, hb, hba]
  | case3 info lot hb ih =>
    unfold entries at ih ⊢
    rw [filter_cons, filter_cons, ih]
    by_cases hba : b = a
    · simp [hba ▸ hb, hba]
    · simp [hba]

/-- The first entry of the object goes. -/
theorem entries_erase :
    (lot.erase b).entries a = if b = a then (lot.entries a).tail else lot.entries a := by
  induction lot with
  | nil => simp [entries, erase]
  | cons info lot ih =>
    unfold entries erase at ih ⊢
    by_cases hb : info.parkedObject = b
    · by_cases hba : b = a <;> simp [hb, hba]
    · rw [eraseP_cons_of_neg (by simpa using hb), filter_cons, filter_cons, ih]
      by_cases hba : b = a
      · simp [hba ▸ hb, hba]
      · simp [hba]

/-! ## What the operations do to them -/

theorem entries_reference_ne (hne : b ≠ a) : (lot.reference b).entries a = lot.entries a := by
  unfold reference
  split
  · simp [entries, hne]
  · rw [entries_updateEntry, if_neg hne]
    exact fun _ => rfl

/-- The first reference makes an entry. -/
theorem entries_reference (h : lot.entries a = []) :
    (lot.reference a).entries a = [once a none] := by
  have happend : entries (lot ++ [once a none]) a = lot.entries a ++ [once a none] := by
    simp [entries]
  unfold reference
  rw [find_eq, h]
  exact happend.trans (by rw [h]; rfl)

variable {callback : κ}

theorem entries_park_ne {lot' : ParkingLot α κ} (hne : b ≠ a) (h : lot.park b callback = some lot') :
    lot'.entries a = lot.entries a := by
  unfold park at h
  split at h
  · cases h
  split at h
  · cases h
  cases h
  rw [entries_updateEntry, if_neg hne]
  exact fun _ => rfl

/-- An object that has been referenced is parked with its callback. -/
theorem park_eq (h : lot.entries a = [once a none]) :
    ∃ lot', lot.park a callback = some lot' ∧ lot'.entries a = [once a (some callback)] := by
  unfold park
  rw [find_eq, h]
  refine ⟨_, rfl, ?_⟩
  rw [entries_updateEntry, if_pos rfl, h]
  · rfl
  · exact fun _ => rfl

theorem entries_unpark_ne (hne : b ≠ a) {force : Bool} :
    (lot.unpark b force).lot.entries a = lot.entries a := by
  unfold unpark
  split
  · rfl
  rename_i info _
  dsimp only
  generalize (if force = true then 0 else info.refcount - 1) = refcount
  split
  · rw [entries_erase, if_neg hne]
  · rw [entries_updateEntry, if_neg hne]
    exact fun _ => rfl

theorem unpark_nil (h : lot.entries a = []) :
    lot.unpark a false = { lot := lot, found := false, callback := none } := by
  unfold unpark
  rw [find_eq, h]
  rfl

/-- With the last reference the entry goes, and the callback is to be run. -/
theorem unpark_last {callback : Option κ} (h : lot.entries a = [once a callback]) :
    lot.unpark a false = { lot := lot.erase a, found := true, callback := some callback } := by
  unfold unpark
  rw [find_eq, h]
  rfl

theorem entries_drop_ne (hne : b ≠ a) : (lot.drop b).1.entries a = lot.entries a := by
  unfold drop
  split
  · rfl
  · rw [entries_erase, if_neg hne]

/-- Nothing is left of an object that is dropped. -/
theorem entries_drop (h : lot.entries a = [] ∨ ∃ info, lot.entries a = [info]) :
    (lot.drop a).1.entries a = [] := by
  unfold drop
  rcases h with h | ⟨info, h⟩
  · rw [find_eq, h]
    exact h
  · rw [find_eq, h]
    show (lot.erase a).entries a = []
    rw [entries_erase, if_pos rfl, h]
    rfl

/-! ## Callbacks -/

/-- An object is parked with itself: this is what its callback resumes. -/
def Honest (lot : ParkingLot α α) : Prop :=
  ∀ info ∈ lot, ∀ k, info.unparkCallback = some k → k = info.parkedObject

section Honest

variable {lot : ParkingLot α α} {f : ParkingInfo α α → ParkingInfo α α}

section

variable (h : lot.Honest)

include h

theorem Honest.updateEntry (hf : ∀ info, info.parkedObject = a →
    (∀ k, info.unparkCallback = some k → k = info.parkedObject) →
    ∀ k, (f info).unparkCallback = some k → k = (f info).parkedObject) :
    (lot.updateEntry f a).Honest := by
  fun_induction ParkingLot.updateEntry f a lot with
  | case1 => exact h
  | case2 info lot ha =>
    obtain ⟨hhead, htail⟩ := forall_mem_cons.mp h
    exact forall_mem_cons.mpr ⟨hf info ha hhead, htail⟩
  | case3 info lot ha ih =>
    obtain ⟨hhead, htail⟩ := forall_mem_cons.mp h
    exact forall_mem_cons.mpr ⟨hhead, ih htail⟩

theorem Honest.erase (a : α) : (lot.erase a).Honest :=
  fun info hinfo => h info (mem_of_mem_eraseP hinfo)

theorem Honest.reference (a : α) : (lot.reference a).Honest := by
  unfold ParkingLot.reference
  split
  · intro info hinfo
    rcases mem_append.mp hinfo with hinfo | hinfo
    · exact h info hinfo
    · rw [List.mem_singleton.mp hinfo]
      exact nofun
  · refine h.updateEntry ?_
    exact fun _ _ hold => hold

theorem Honest.park {lot' : ParkingLot α α} (hpark : lot.park a a = some lot') : lot'.Honest := by
  unfold ParkingLot.park at hpark
  split at hpark
  · cases hpark
  split at hpark
  · cases hpark
  cases hpark
  refine h.updateEntry ?_
  rintro info rfl - k hk
  exact (Option.some.inj hk).symm

/-- What is resumed is the object itself. -/
theorem Honest.unpark (a : α) (force : Bool) : (lot.unpark a force).lot.Honest ∧
    ∀ k, (lot.unpark a force).callback = some (some k) → k = a := by
  unfold ParkingLot.unpark
  split
  · exact ⟨h, nofun⟩
  rename_i info hfind
  dsimp only
  generalize (if force = true then 0 else info.refcount - 1) = refcount
  split
  · refine ⟨h.erase a, fun k hk => ?_⟩
    have hobject : info.parkedObject = a := by simpa using find?_some hfind
    rw [h info (mem_of_find?_eq_some hfind) k (Option.some.inj hk), hobject]
  · refine ⟨h.updateEntry ?_, nofun⟩
    exact fun _ _ hold => hold

theorem Honest.drop (a : α) : (lot.drop a).1.Honest := by
  unfold ParkingLot.drop
  split
  · exact h
  · exact h.erase a

end

end Honest

end Hooks.ParkingLot

namespace Ha

open Infra Util Dhcp Hooks

namespace HAServer

open HAConfig HAService

variable {t : HAServerType} {c : HAConfig} {this partner : PeerConfig} {s s₀ : HAServer t} {q : Nat}

/-! ## The view of a query -/

/-- What a server has of a query. -/
structure View where
  /-- the updates that have not been completed -/
  outstanding : Nat
  /-- the entry of `pending_requests_` -/
  pending : Option Int
  /-- the entries of the parking lot -/
  parked : List (ParkingInfo Nat Nat)
  /-- how often the reply has been resumed -/
  resumed : Nat

def view (q : Nat) (s : HAServer t) : View :=
  { outstanding := s.service.members.leaseUpdates.countP (·.query = q)
    pending := s.service.members.pendingRequests q
    parked := s.parkingLot.entries q
    resumed := s.resumed.count q }

/-- What holds in every state of a run, with the view of a query. -/
structure Aside (c : HAConfig) (q : Nat) (v : View) (s : HAServer t) : Prop where
  config : s.service.members.config = c
  steady : Steady s.service.members.communicationState
  honest : s.parkingLot.Honest
  view : view q s = v

variable {v : View} {lot : ParkingLot Nat Nat}

theorem Aside.withLot (h : Aside c q v s) (hhonest : lot.Honest)
    (hentries : lot.entries q = s.parkingLot.entries q) :
    Aside c q v { s with parkingLot := lot } := by
  refine ⟨h.config, h.steady, hhonest, ?_⟩
  rw [← h.view]
  unfold HAServer.view
  rw [hentries]

theorem Aside.withComm (h : Aside c q v s) {k : CommunicationState t} (hk : Steady k) :
    Aside c q v { s with service := s.service.withComm k } :=
  ⟨h.config, hk, h.honest, h.view⟩

/-- What is done for another query does not change the view. -/
theorem aside_tolerates {query : Nat} (hne : query ≠ q) :
    Tolerates (Aside (t := t) c q v) query := by
  refine ⟨⟨?sent, ?referenced, ?parked⟩, ?completed, ?poked, ?lost, ?dropped, ?unparked, ?counted⟩
  case sent =>
    intro lot resumed peer
    refine Keeps.modify fun d h => ⟨h.config, h.steady, h.honest, ?_⟩
    rw [← h.view]
    simp [HAServer.view, hne, hne.symm]
  case referenced =>
    exact fun s h => h.withLot (h.honest.reference query) (ParkingLot.entries_reference_ne hne)
  case parked =>
    intro rsp
    refine Keeps.ite (fun _ s h => ?_) fun _ => Keeps.pure ()
    unfold after
    rw [run_bind_ok (run_get s)]
    cases hpark : s.parkingLot.park query query with
    | some lot => exact h.withLot (h.honest.park hpark) (ParkingLot.entries_park_ne hne hpark)
    | none => exact h
  case completed =>
    rintro update rfl
    refine Keeps.modify fun s h => ⟨h.config, h.steady, h.honest, ?_⟩
    rw [← h.view]
    unfold HAServer.view
    dsimp only
    by_cases hmem : update ∈ s.service.members.leaseUpdates
    · rw [(List.perm_cons_erase hmem).countP_eq, List.countP_cons_of_neg (by simpa using hne)]
    · rw [List.erase_of_not_mem hmem]
  case poked =>
    intro now
    refine Keeps.zoom fun s h => ?_
    unfold after
    rw [HAService.comm, run_zoom, poke_run h.steady]
    exact h.withComm h.steady
  case lost => exact Keeps.zoom fun s h => h.withComm h.steady
  case dropped =>
    exact fun s h => h.withLot (h.honest.drop query) (ParkingLot.entries_drop_ne hne)
  case unparked =>
    intro s h
    obtain ⟨hhonest, hcallback⟩ := h.honest.unpark query false
    have hlot := h.withLot hhonest (ParkingLot.entries_unpark_ne hne)
    unfold after unparkQuery
    rw [run_bind_ok (run_get s)]
    rcases hback : (s.parkingLot.unpark query false).callback with _ | _ | k
    · exact hlot
    · exact hlot
    obtain rfl := hcallback k hback
    refine ⟨hlot.config, hlot.steady, hlot.honest, ?_⟩
    rw [← hlot.view]
    simp [HAServer.view, finalState, hne]
  case counted =>
    intro pending
    refine Keeps.modify fun s h => ⟨h.config, h.steady, h.honest, ?_⟩
    rw [← h.view]
    unfold HAServer.view
    dsimp only
    rw [Function.update_of_ne hne.symm]

/-- What a happening is about, if it is about lease updates. -/
def Concerns (q : Nat) : Happening t → Prop
  | .committed query _ _ _ => query = q
  | .leaseUpdate update _ _ _ => update.query = q
  | _ => False

variable {d : HAService t}

theorem Aside.kept (h : Aside c q v s) (hd : Kept s.service d) :
    Aside c q v { s with service := d } := by
  refine ⟨hd.config.trans h.config, hd.steady h.steady, h.honest, ?_⟩
  rw [← h.view]
  unfold HAServer.view
  rw [hd.leaseUpdates, hd.pendingRequests]

variable {o : Happening t}

/-- What happens to others leaves the view of a query as it is. -/
theorem begin_aside (ho : ¬Concerns q o) (h : Aside c q v s) : Aside c q v (begin o s).1 := by
  have hnetwork : ∀ n, Aside c q v { s with service := { s.service with
      members := { s.service.members with networkState := n } } } := fun n =>
    ⟨h.config, h.steady, h.honest, h.view⟩
  have honService : ∀ {α : Type} {x : ServiceM t α}, Kept s.service (after x s.service) →
      Aside c q v (after (onService x) s) := by
    intro α x hkept
    rw [onService, after_zoom]
    exact h.kept hkept
  cases o with
  | start rounds =>
    unfold begin
    dsimp only
    split
    · exact ⟨h.config, h.steady, h.honest, h.view⟩
    · exact h
  | heartbeat answer now rounds =>
    obtain ⟨k, hrun, hheard⟩ := heartbeatCompleted_run answer now h.steady
    rw [begin_heartbeat]
    refine honService ?_
    unfold after
    rw [hrun]
    exact ⟨rfl, rfl, rfl, fun _ => hheard.steady⟩
  | leaseUpdate update success now rounds =>
    rw [begin_leaseUpdate]
    exact (aside_tolerates ho).leaseUpdateCompleted success now s h
  | committed query leases deletedLeases rsp =>
    exact (aside_tolerates ho).toToleratesCommit.committed leases deletedLeases rsp s h
  | received query now => exact honService inScope_kept
  | heartbeatTimer => exact honService (x := modifyComm _) heartbeatTimerExpired_kept
  | haSync serverName sync => exact honService synchronize_kept
  | haContinue => exact ⟨h.config, h.steady, h.honest, h.view⟩
  | haScopes scopes => exact honService processScopes_kept
  | dhcpDisable | dhcpEnable | enableTimer => exact hnetwork _

/-! ## The life of a query -/

/-- What becomes of a query whose lease updates are sent. -/
inductive Life where
  | unsent
  /-- It waits for one update and `more`; one that was sent to a partner may have failed. -/
  | waiting (more : Nat) (failed : Bool)
  | finished (failed : Bool)

namespace Life

/-- One more update has been completed. -/
def complete (fatal : Bool) : Life → Life
  | .waiting 0 failed => .finished (failed || fatal)
  | .waiting (more + 1) failed => .waiting more (failed || fatal)
  | life => life

/-- The parking lot holds the query until an update fails. -/
def parked (q : Nat) (failed : Bool) : List (ParkingInfo Nat Nat) :=
  if failed then [] else [{ parkedObject := q, unparkCallback := some q, refcount := 1 }]

def view (q : Nat) : Life → View
  | .unsent => { outstanding := 0, pending := none, parked := [], resumed := 0 }
  | .waiting more failed =>
    { outstanding := more + 1, pending := some (more + 1), parked := parked q failed, resumed := 0 }
  | .finished failed =>
    { outstanding := 0, pending := none, parked := [], resumed := if failed then 0 else 1 }

end Life

/-! ## The completion of an update -/

variable {update : LeaseUpdate} {failed : Bool} {more : Nat}

section Completion

/-- One of the updates that are outstanding has been completed. -/
theorem Aside.completed (h : Aside c update.query v s)
    (hmem : update ∈ s.service.members.leaseUpdates) :
    Aside c update.query { v with outstanding := v.outstanding - 1 }
      { s with service := { s.service with members := { s.service.members with
        leaseUpdates := s.service.members.leaseUpdates.erase update } } } := by
  refine ⟨h.config, h.steady, h.honest, ?_⟩
  have hcount := (List.perm_cons_erase hmem).countP_eq (fun u => decide (u.query = update.query))
  rw [List.countP_cons_of_pos (by simp)] at hcount
  rw [← h.view]
  unfold HAServer.view
  rw [hcount]
  rfl

/-- A failure at a partner drops the query from the parking lot. -/
theorem Aside.noted (h : Aside c update.query v s) (success : Bool) (now : Int)
    (hparked : v.parked = Life.parked update.query failed) :
    Aside c update.query { v with parked := Life.parked update.query (failed || fatal update success) }
      { service := s.service.withComm (noted update success now s.service.members.communicationState)
        parkingLot :=
          if fatal update success then (s.parkingLot.drop update.query).1 else s.parkingLot
        resumed := s.resumed } := by
  have hentries : s.parkingLot.entries update.query = Life.parked update.query failed := by
    rw [← hparked, ← h.view]
    rfl
  have hview := h.view
  cases hfatal : fatal update success with
  | true =>
    refine ⟨h.config, noted_steady _ _ _ h.steady, ?_, ?_⟩
    · exact h.honest.drop update.query
    have hdrop : (s.parkingLot.drop update.query).1.entries update.query = [] := by
      refine ParkingLot.entries_drop ?_
      rw [hentries]
      cases failed with
      | true => exact .inl rfl
      | false => exact .inr ⟨_, rfl⟩
    rw [← hview, Bool.or_true]
    unfold HAServer.view
    rw [if_pos rfl, hdrop]
    rfl
  | false =>
    refine ⟨h.config, noted_steady _ _ _ h.steady, h.honest, ?_⟩
    rw [Bool.or_false, ← hparked]
    exact hview

theorem Aside.counted (h : Aside c q v s) (pending : Option Int) :
    Aside c q { v with pending := pending }
      { s with service := { s.service with members := { s.service.members with
        pendingRequests := Function.update s.service.members.pendingRequests q pending } } } := by
  refine ⟨h.config, h.steady, h.honest, ?_⟩
  rw [← h.view]
  simp [HAServer.view]

/-- A query that is still parked is resumed. -/
theorem Aside.unparked (h : Aside c q v s) (hparked : v.parked = Life.parked q failed) :
    Yields (unparkQuery q) s
      fun _ s' => Aside c q { v with
        parked := [], resumed := v.resumed + if failed then 0 else 1 } s' := by
  have hentries : s.parkingLot.entries q = Life.parked q failed := by
    rw [← hparked, ← h.view]
    rfl
  refine .step (run_get s) (.step run_modify ?_)
  cases failed with
  | true =>
    rw [ParkingLot.unpark_nil hentries]
    refine .pure ⟨h.config, h.steady, h.honest, ?_⟩
    rw [← h.view]
    unfold HAServer.view
    rw [hentries]
    rfl
  | false =>
    rw [ParkingLot.unpark_last hentries]
    refine .of_ok run_modify ⟨h.config, h.steady, h.honest.erase q, ?_⟩
    rw [← h.view]
    unfold HAServer.view
    rw [ParkingLot.entries_erase, if_pos rfl, hentries, List.count_cons_self]
    rfl

/-- The completion of an update is a step in the life of its query. -/
theorem leaseUpdateCompleted_own (success : Bool) (now : Int)
    (h : Aside c update.query ((Life.waiting more failed).view update.query) s)
    (hmem : update ∈ s.service.members.leaseUpdates) :
    Yields (leaseUpdateCompleted update success now) s
      fun _ s' => Aside c update.query
        (((Life.waiting more failed).complete (fatal update success)).view update.query) s' := by
  have hcompleted := h.completed hmem
  have hnoted := hcompleted.noted success now rfl
  refine .step rfl (.step (noteUpdate_run hcompleted.steady) ?_)
  refine .step (run_get _) ?_
  have hpending : s.service.members.pendingRequests update.query = some ((more : Int) + 1) :=
    congrArg View.pending h.view
  dsimp only [withComm]
  rw [hpending]
  have hcounted := hnoted.counted (some ((more : Int) + 1 - 1))
  refine .step rfl ?_
  cases more with
  | zero =>
    refine .seq (hcounted.unparked rfl) fun _ s' hs' => ?_
    have hlast := hs'.counted none
    simp only [Life.view, Nat.zero_add] at hlast
    exact hlast
  | succ more =>
    have hless : ((more + 1 : Nat) : Int) + 1 - 1 = more + 1 := by omega
    rw [if_neg (by omega)]
    rw [hless] at hcounted ⊢
    exact hcounted

end Completion

/-! ## The commit -/

variable {deletedLeases leases : Nat}

section Commit

variable {resumed : List Nat}

/-- The view of a query while its updates are being sent. -/
def sending (n : Nat) : View :=
  { outstanding := n, pending := if n = 0 then none else some n, parked := [], resumed := 0 }

variable {n : Nat} {peers : List PeerConfig}

/-- One more update is sent. -/
theorem asyncSendLeaseUpdate_own (h : Aside c q (sending n) ⟨d, lot, resumed⟩) {peer : PeerConfig} :
    Yields (asyncSendLeaseUpdate q peer) d
      fun _ d' => Aside c q (sending (n + 1)) ⟨d', lot, resumed⟩ := by
  refine .of_ok run_modify ⟨h.config, h.steady, h.honest, ?_⟩
  have houtstanding : d.members.leaseUpdates.countP (fun u => decide (u.query = q)) = n :=
    congrArg View.outstanding h.view
  have hpending : d.members.pendingRequests q = if n = 0 then none else some (n : Int) :=
    congrArg View.pending h.view
  have hparked : lot.entries q = [] := congrArg View.parked h.view
  have hresumed : resumed.count q = 0 := congrArg View.resumed h.view
  have hcount : (d.members.pendingRequests q).getD 0 + 1 = ((n + 1 : Nat) : Int) := by
    rw [hpending]
    by_cases hn : n = 0
    · simp [hn]
    · simp [hn]
  simp [view, sending, houtstanding, hparked, hresumed, hcount]

theorem forM_asyncSendLeaseUpdate_own (h : Aside c q (sending n) ⟨d, lot, resumed⟩) :
    Yields (peers.forM (asyncSendLeaseUpdate q)) d
      fun _ d' => Aside c q (sending (n + peers.length)) ⟨d', lot, resumed⟩ := by
  induction peers generalizing n d with
  | nil => exact .pure h
  | cons peer peers ih =>
    refine .seq (asyncSendLeaseUpdate_own h) fun _ d' hd' => ?_
    rw [List.length_cons, Nat.add_comm peers.length, ← Nat.add_assoc]
    exact ih hd'

/-- The servers that are contacted get the updates: there is one at least if anything is sent. -/
theorem foldlM_sendToPeer_own (hc : Complete c this partner) (hleases : 0 < leases + deletedLeases)
    {sentNum : Nat} (hsent : sentNum = 0 ↔ n = 0) (h : Aside c q (sending n) ⟨d, lot, resumed⟩) :
    Yields (peers.foldlM (sendToPeer q leases deletedLeases) sentNum) d
      fun m d' => ∃ n', Aside c q (sending n') ⟨d', lot, resumed⟩ ∧ (m = 0 ↔ n' = 0) := by
  induction peers generalizing n sentNum d with
  | nil => exact .pure ⟨n, h, hsent⟩
  | cons peer peers ih =>
    have hconfig : d.members.config = c := h.config
    obtain ⟨b, hshould⟩ := shouldSendLeaseUpdates_run (hconfig ▸ hc) peer
    refine .bind (.step hshould ?_)
    cases b with
    | false => exact .pure (ih hsent h)
    | true =>
      refine .seq (forM_asyncSendLeaseUpdate_own h) fun _ d₁ hd₁ => ?_
      refine .seq (forM_asyncSendLeaseUpdate_own hd₁) fun _ d₂ hd₂ => ?_
      refine .pure (ih ?_ hd₂)
      simp only [List.length_replicate]
      omega

/-- A query that is to be parked has been referenced, and its updates have been sent. -/
theorem leasesCommitted_own (hc : Complete c this partner) (h : Aside c q (Life.unsent.view q) s) :
    Yields (leasesCommitted q leases deletedLeases) s
      fun b s' => if b then ∃ more, Aside c q { sending (more + 1) with
          parked := [.once q none] } s'
        else Aside c q (Life.unsent.view q) s' := by
  refine .step (run_get s) ?_
  by_cases hsend : s.service.members.config.sendLeaseUpdates
  · rw [if_neg (by simpa using hsend)]
    by_cases hnone : leases = 0 ∧ deletedLeases = 0
    · rw [if_pos hnone]
      exact .pure h
    rw [if_neg hnone]
    have hpos : 0 < leases + deletedLeases := by omega
    have hservice : Yields (onService (asyncSendLeaseUpdates q leases deletedLeases)) s
        fun m s' => ∃ n', Aside c q (sending n') s' ∧ (m = 0 ↔ n' = 0) := by
      refine .zoom (.step (run_get _) ?_)
      exact foldlM_sendToPeer_own hc hpos (show (0 : Nat) = 0 ↔ (0 : Nat) = 0 from Iff.rfl) h
    refine .seq hservice ?_
    rintro m s' ⟨n', hs', hm⟩
    by_cases hzero : m = 0
    · rw [if_pos hzero]
      rw [hm.mp hzero] at hs'
      exact .pure hs'
    · rw [if_neg hzero]
      obtain ⟨more, rfl⟩ : ∃ more, n' = more + 1 := ⟨n' - 1, by omega⟩
      refine .step run_modify (.pure ⟨more, ?_⟩)
      have hentries : s'.parkingLot.entries q = [] := congrArg View.parked hs'.view
      refine ⟨hs'.config, hs'.steady, hs'.honest.reference q, ?_⟩
      rw [← hs'.view]
      unfold view
      rw [ParkingLot.entries_reference hentries]
  · rw [if_pos (by simpa using hsend)]
    exact .pure h

/-- The query is parked once its updates have been sent. -/
theorem parkQuery_own (h : Aside c q { v with parked := [.once q none] } s) :
    Yields (parkQuery q true) s
      fun _ s' => Aside c q { v with parked := Life.parked q false } s' := by
  have hentries : s.parkingLot.entries q = _ := congrArg View.parked h.view
  obtain ⟨lot, hpark, hlot⟩ := ParkingLot.park_eq hentries
  unfold parkQuery
  refine .step (run_get s) ?_
  rw [hpark]
  refine .of_ok run_modify ⟨h.config, h.steady, h.honest.park hpark, ?_⟩
  have hview := h.view
  unfold view at hview ⊢
  rw [hlot]
  simp only [View.mk.injEq] at hview
  simp [hview.1, hview.2.1, hview.2.2.2, Life.parked]

/-- A commit sends updates and parks the query, or does nothing. -/
theorem committed_own (hc : Complete c this partner) (leases deletedLeases : Nat)
    (h : Aside c q (Life.unsent.view q) s) :
    Yields (do if ← leasesCommitted q leases deletedLeases then parkQuery q true) s
      fun _ s' => Aside c q (Life.unsent.view q) s' ∨
        ∃ more, Aside c q ((Life.waiting more false).view q) s' := by
  refine .seq (leasesCommitted_own hc h) fun b s' hs' => ?_
  cases b with
  | false => exact .pure (.inl hs')
  | true =>
    obtain ⟨more, hs'⟩ := hs'
    refine .imp (parkQuery_own hs') fun _ s'' hs'' => .inr ⟨more, ?_⟩
    simpa [sending, Life.view] using hs''

end Commit

/-! ## Runs with their histories -/

/-- What happened so far, each time with the state before it. -/
abbrev History (t : HAServerType) := List (Happening t × HAServer t)

def Commits (q : Nat) : Happening t → Prop
  | .committed query _ _ _ => query = q
  | _ => False

/-- A lease update for the query to a partner has failed. -/
def Fails (q : Nat) : Happening t → Prop
  | .leaseUpdate update success _ _ => update.query = q ∧ fatal update success = true
  | _ => False

def Committed (q : Nat) (hist : History t) : Prop := ∃ e ∈ hist, Commits q e.1

/-- Lease updates were sent when the query was committed. -/
def SentFor (q : Nat) (hist : History t) : Prop :=
  ∃ e ∈ hist, Commits q e.1 ∧ ∃ u ∈ (step e.1 e.2).service.members.leaseUpdates, u.query = q

def FailedFor (q : Nat) (hist : History t) : Prop := ∃ e ∈ hist, Fails q e.1

/--
What a server can rely on for one query: it is committed once and with a response, so that it is
parked afterwards, and only updates that were sent are completed.
-/
def Promised (q : Nat) (hist : History t) (o : Happening t) (s : HAServer t) : Prop :=
  Returns o s ∧
    match o with
    | .committed query _ _ rsp => query = q → rsp = true ∧ ¬Committed q hist
    | .leaseUpdate update _ _ _ => update.query = q → update ∈ s.service.members.leaseUpdates
    | _ => True

/-- The life of a query and its history. -/
def Life.Agrees (q : Nat) (hist : History t) : Life → Prop
  | .unsent => ¬SentFor q hist ∧ ¬FailedFor q hist
  | .waiting _ failed | .finished failed => Committed q hist ∧ (failed = true ↔ FailedFor q hist)

section Trace

variable {hist : History t} {life : Life}

theorem committed_cons : Committed q ((o, s) :: hist) ↔ Commits q o ∨ Committed q hist := by
  simp [Committed]

theorem failedFor_cons : FailedFor q ((o, s) :: hist) ↔ Fails q o ∨ FailedFor q hist := by
  simp [FailedFor]

theorem sentFor_cons : SentFor q ((o, s) :: hist) ↔
    (Commits q o ∧ ∃ u ∈ (step o s).service.members.leaseUpdates, u.query = q) ∨ SentFor q hist := by
  simp [SentFor]

theorem Life.Agrees.aside (h : life.Agrees q hist) (hcommit : ¬Commits q o) (hfail : ¬Fails q o) :
    life.Agrees q ((o, s) :: hist) := by
  cases life with
  | unsent =>
    obtain ⟨hsent, hfailed⟩ := h
    refine ⟨fun h => ?_, fun h => ?_⟩
    · exact (sentFor_cons.mp h).elim (fun h => hcommit h.1) hsent
    · exact (failedFor_cons.mp h).elim hfail hfailed
  | waiting more failed | finished failed =>
    refine ⟨committed_cons.mpr (.inr h.1), h.2.trans ?_⟩
    simp [failedFor_cons, hfail]

/-- The run of the state machine leaves the view alone. -/
theorem step_aside (hc : Complete c this partner) (hreturns : Returns o s)
    (h : Aside c q v (begin o s).1) : Aside c q v (step o s) := by
  rcases hreturns.cases with ⟨-, heq⟩ | ⟨event, rounds, d, -, hrun, heq⟩
  · rw [heq]
    exact h
  · rw [heq]
    exact h.kept (runModel_undisturbed (h.config ▸ hc) hrun).kept

/-- The server's view of a query is the one of its life. -/
def Lived (c : HAConfig) (q : Nat) (hist : History t) (s : HAServer t) : Prop :=
  ∃ life : Life, Aside c q (life.view q) s ∧ life.Agrees q hist

/-- The commit begins the life of the query. -/
theorem committed_lived (hc : Complete c this partner)
    (hreturns : Returns (.committed q leases deletedLeases true) s) (hfresh : ¬Committed q hist)
    (h : Lived c q hist s) :
    Lived c q ((.committed q leases deletedLeases true, s) :: hist)
      (step (.committed q leases deletedLeases true) s) := by
  obtain ⟨life, haside, hagrees⟩ := h
  cases life with
  | unsent =>
    have hpost := Post.after ((committed_own hc leases deletedLeases haside).imp fun _ _ hs' => hs')
    have hnot : ¬FailedFor q ((.committed q leases deletedLeases true, s) :: hist) := fun hfailed =>
      (failedFor_cons.mp hfailed).elim id hagrees.2
    rcases hpost with hs' | ⟨more, hs'⟩
    · have hstep := step_aside hc hreturns hs'
      refine ⟨.unsent, hstep, fun hsent => ?_, hnot⟩
      rcases sentFor_cons.mp hsent with ⟨-, u, hu, huq⟩ | hsent
      · -- nothing is outstanding, so nothing has been sent
        have hzero : (step (.committed q leases deletedLeases true) s).service.members.leaseUpdates.countP
            (fun u => decide (u.query = q)) = 0 := congrArg View.outstanding hstep.view
        exact List.countP_eq_zero.mp hzero u hu (by simpa using huq)
      · exact hagrees.1 hsent
    · refine ⟨.waiting more false, step_aside hc hreturns hs', committed_cons.mpr (.inl rfl), ?_⟩
      exact iff_of_false Bool.false_ne_true hnot
  | waiting more failed | finished failed => exact absurd hagrees.1 hfresh

variable {now : Int} {success : Bool} {rounds : List Outside}

theorem Life.Agrees.complete (h : (Life.waiting more failed).Agrees update.query hist) :
    ((Life.waiting more failed).complete (fatal update success)).Agrees update.query
      ((.leaseUpdate update success now rounds, s) :: hist) := by
  have hboth : Committed update.query ((.leaseUpdate update success now rounds, s) :: hist) ∧
      ((failed || fatal update success) = true ↔
        FailedFor update.query ((.leaseUpdate update success now rounds, s) :: hist)) := by
    refine ⟨committed_cons.mpr (.inr h.1), ?_⟩
    rw [failedFor_cons, Bool.or_eq_true, h.2, or_comm]
    simp [Fails]
  cases more with
  | zero => exact hboth
  | succ more => exact hboth

/-- Only a query that waits has updates to be completed. -/
theorem leaseUpdate_lived (hc : Complete c this partner)
    (hreturns : Returns (.leaseUpdate update success now rounds) s)
    (hmem : update ∈ s.service.members.leaseUpdates) (h : Lived c update.query hist s) :
    Lived c update.query ((.leaseUpdate update success now rounds, s) :: hist)
      (step (.leaseUpdate update success now rounds) s) := by
  obtain ⟨life, haside, hagrees⟩ := h
  have hsome : 0 < (life.view update.query).outstanding := by
    rw [← haside.view]
    exact List.countP_pos_iff.mpr ⟨update, hmem, by simp⟩
  cases life with
  | unsent => cases hsome
  | finished failed => cases hsome
  | waiting more failed =>
    have hpost := Post.after ((leaseUpdateCompleted_own success now haside hmem).imp fun _ _ hs' => hs')
    refine ⟨_, step_aside hc hreturns ?_, hagrees.complete⟩
    rw [begin_leaseUpdate]
    exact hpost

/-- Every step goes on with the life of the query. -/
theorem step_lived (hc : Complete c this partner) (hok : Promised q hist o s) (h : Lived c q hist s) :
    Lived c q ((o, s) :: hist) (step o s) := by
  obtain ⟨hreturns, hpromise⟩ := hok
  by_cases hconcerns : Concerns q o
  · cases o with
    | committed query leases deletedLeases rsp =>
      obtain rfl : query = q := hconcerns
      obtain ⟨rfl, hfresh⟩ := hpromise rfl
      exact committed_lived hc hreturns hfresh h
    | leaseUpdate update success now rounds =>
      obtain rfl : update.query = q := hconcerns
      exact leaseUpdate_lived hc hreturns (hpromise rfl) h
    | start | heartbeat | received | heartbeatTimer | haSync | haContinue | haScopes | dhcpDisable
    | dhcpEnable | enableTimer => exact hconcerns.elim
  · obtain ⟨life, haside, hagrees⟩ := h
    refine ⟨life, step_aside hc hreturns (begin_aside hconcerns haside), hagrees.aside ?_ ?_⟩
    · intro hcommits
      cases o with
      | committed => exact hconcerns hcommits
      | _ => exact hcommits
    · intro hfails
      cases o with
      | leaseUpdate => exact hconcerns hfails.1
      | _ => exact hfails

theorem Constructed.lived (h : Constructed c s) : Lived c q [] s := by
  obtain ⟨-, f, networkState, now, rfl⟩ := h.built
  refine ⟨.unsent, ⟨rfl, nofun, nofun, rfl⟩, ?_, ?_⟩
  all_goals
    rintro ⟨e, he, -⟩
    cases he

/--
**A reply waits for its lease updates.** It is resumed once at most, not while an update for it is
outstanding, and not if an update to a partner has failed. When no update is outstanding, it has
been resumed if updates were sent and none failed, and nothing is left of it.
-/
theorem reply_waits_for_updates (hs₀ : Constructed c s₀) (q : Nat)
    (hs : Traces step (Promised q) s₀ hist s) :
    s.resumed.count q ≤ 1 ∧ (q ∈ s.resumed → ∀ u ∈ s.service.members.leaseUpdates, u.query ≠ q) ∧
    (FailedFor q hist → q ∉ s.resumed) ∧ ((∀ u ∈ s.service.members.leaseUpdates, u.query ≠ q) →
      (SentFor q hist → ¬FailedFor q hist → s.resumed.count q = 1) ∧
      s.service.members.pendingRequests q = none ∧ s.parkingLot.find q = none) := by
  obtain ⟨⟨this, partner, hc⟩, -⟩ := hs₀.built
  obtain ⟨life, haside, hagrees⟩ :=
    hs.inv (hs₀.lived) fun hist o u h hok => step_lived hc hok h
  have hresumed : s.resumed.count q = (life.view q).resumed := congrArg View.resumed haside.view
  have hpending : s.service.members.pendingRequests q = (life.view q).pending :=
    congrArg View.pending haside.view
  have hparked : s.parkingLot.find q = (life.view q).parked.head? := by
    rw [ParkingLot.find_eq, ← haside.view]
    rfl
  have houtstanding : (∀ u ∈ s.service.members.leaseUpdates, u.query ≠ q) ↔
      (life.view q).outstanding = 0 := by
    rw [← haside.view]
    show _ ↔ s.service.members.leaseUpdates.countP _ = 0
    simp [List.countP_eq_zero]
  rw [← List.count_pos_iff, houtstanding, hresumed, hpending, hparked]
  cases life with
  | unsent =>
    refine ⟨Nat.zero_le 1, fun _ => rfl, fun _ => Nat.lt_irrefl 0, fun _ => ⟨fun hsent => ?_, rfl, rfl⟩⟩
    exact absurd hsent hagrees.1
  | waiting more failed => exact ⟨Nat.zero_le 1, nofun, fun _ => nofun, nofun⟩
  | finished failed =>
    cases failed with
    | true =>
      refine ⟨Nat.zero_le 1, fun _ => rfl, fun _ => Nat.lt_irrefl 0, fun _ => ⟨fun _ hnot => ?_, rfl, rfl⟩⟩
      exact absurd (hagrees.2.mp rfl) hnot
    | false =>
      refine ⟨Nat.le_refl 1, fun _ => rfl, fun hfailed => ?_, fun _ => ⟨fun _ _ => rfl, rfl, rfl⟩⟩
      exact absurd (hagrees.2.mpr hfailed) Bool.false_ne_true

end Trace

end HAServer

/-! ### A query that is answered although an update to a backup server fails -/

namespace Sample

open HAServer

def starts : Happening .dhcpv4 := .start [⟨0, ⟨"", "", ""⟩⟩]

def commit : Happening .dhcpv4 := .committed 7 1 0 true

def backupUpdate : LeaseUpdate := { query := 7, peer := (peer "server2" .backup).2 }

def backupFailure : Happening .dhcpv4 := .leaseUpdate backupUpdate false 0 [⟨0, ⟨"", "", ""⟩⟩]

end Sample

open HAServer Sample in
theorem HAServer.reply_waits_sample : ∃ (s₀ s : HAServer .dhcpv4) (hist : History .dhcpv4),
    Constructed balanced s₀ ∧ Traces step (Promised 7) s₀ hist s ∧ SentFor 7 hist ∧
      s.resumed.count 7 = 1 ∧ s.parkingLot.find 7 = none := by
  obtain ⟨d, hd⟩ : ∃ d, HAService.construct .dhcpv4 balanced .fresh 0 = .ok d := ⟨_, rfl⟩
  have hs₀ : Constructed balanced (⟨d, [], []⟩ : HAServer .dhcpv4) := ⟨⟨_, _, hd⟩, rfl, rfl⟩
  obtain ⟨s₁, hs₁⟩ : ∃ s₁, s₁ = step starts ⟨d, [], []⟩ := ⟨_, rfl⟩
  have hsent : (step commit s₁).service.members.leaseUpdates = [backupUpdate] := by
    cases hd
    subst hs₁
    decide +kernel
  have hdone : (step backupFailure (step commit s₁)).service.members.leaseUpdates = [] := by
    cases hd
    subst hs₁
    decide +kernel
  have hstarts : Returns starts ⟨d, [], []⟩ := by
    cases hd
    decide +kernel
  have hreturns : Returns backupFailure (step commit s₁) := by
    cases hd
    subst hs₁
    decide +kernel
  have hhist : Traces step (Promised 7) ⟨d, [], []⟩
      [(backupFailure, step commit s₁), (commit, s₁), (starts, ⟨d, [], []⟩)]
      (step backupFailure (step commit s₁)) := by
    subst hs₁
    refine .next _ (.next _ (.next _ .start ⟨hstarts, trivial⟩) ⟨nofun, fun _ => ⟨rfl, ?_⟩⟩)
      ⟨hreturns, fun _ => ?_⟩
    · rintro ⟨e, he, hcommits⟩
      rw [List.mem_singleton.mp he] at hcommits
      exact hcommits
    · rw [hsent]
      exact List.mem_singleton.mpr rfl
  have hwas : SentFor 7 [(backupFailure, step commit s₁), (commit, s₁), (starts, ⟨d, [], []⟩)] :=
    ⟨_, List.mem_cons_of_mem _ List.mem_cons_self, rfl, backupUpdate,
      by rw [hsent]; exact List.mem_singleton.mpr rfl, rfl⟩
  obtain ⟨-, -, -, hlast⟩ := reply_waits_for_updates hs₀ 7 hhist
  obtain ⟨hanswered, -, hfind⟩ := hlast (by rw [hdone]; nofun)
  refine ⟨_, _, _, hs₀, hhist, hwas, hanswered hwas ?_, hfind⟩
  rintro ⟨e, he, hfails⟩
  simp only [List.mem_cons, List.not_mem_nil, or_false] at he
  rcases he with rfl | rfl | rfl
  · exact absurd hfails.2 (by decide)
  · exact hfails
  · exact hfails

end Ha
