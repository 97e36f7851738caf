import KeaDhcp.Infra.Run
import KeaDhcp.Properties.HaRounds
import KeaDhcp.Ha.HaImpl

/-!
# What happens to a server outside of its state machine

Between two runs of the state machine little can change the state of the service, its scopes and the
network state.
-/

namespace Ha

open Infra Util Dhcp Hooks Keeps Derived StateModel CommunicationState Option

namespace HAService

variable {t : HAServerType} {d d' : HAService t}

/-- The state, the scopes and the network state are as before. -/
structure Quiet (d d' : HAService t) : Prop where
  currState : d'.model.currState = d.model.currState
  onEntryFlag : d'.model.onEntryFlag = d.model.onEntryFlag
  config : d'.members.config = d.members.config
  queryFilter : d'.members.queryFilter = d.members.queryFilter
  networkState : d'.members.networkState = d.members.networkState

theorem Quiet.refl (d : HAService t) : Quiet d d := ⟨rfl, rfl, rfl, rfl, rfl⟩

theorem Quiet.withComm (h : Quiet d d') (c : CommunicationState t) : Quiet d (d'.withComm c) :=
  ⟨h.currState, h.onEntryFlag, h.config, h.queryFilter, h.networkState⟩

theorem comm_keeps {α : Type} {x : CommunicationState.CommM t α} : Keeps (Quiet d) (comm x) :=
  zoom fun _ h => h.withComm _

theorem modifyComm_keeps {f : CommunicationState t → CommunicationState t} :
    Keeps (Quiet d) (modifyComm f) :=
  modify fun _ h => h.withComm _

theorem startHeartbeat_keeps : Keeps (Quiet d) startHeartbeat :=
  bind get fun _ => ite (fun _ => comm_keeps) fun _ => pure ()

theorem ofExcept_keeps {α : Type} {x : Except HAError α} {I : HAService t → Prop} :
    Keeps I (ofExcept x) := by
  cases x with
  | ok a => exact pure a
  | error e => exact throw e

theorem synchronize_keeps {serverName : String} {sync : SyncOutcome} :
    Keeps (Quiet d) (synchronize serverName sync) := by
  intro d₁ h
  refine Post.after ((synchronize_post).mono ?_ ?_)
  · rintro _ _ ⟨c, event, -, rfl⟩
    exact ⟨h.currState, h.onEntryFlag, h.config, h.queryFilter, h.networkState⟩
  · rintro _ _ rfl
    exact h

theorem shouldSendLeaseUpdates_keeps (peer : PeerConfig) {I : HAService t → Prop} :
    Keeps I (shouldSendLeaseUpdates peer) := by
  refine bind get fun _ => ?_
  refine ite (fun _ => pure _) fun _ => ite (fun _ => pure _) fun _ => ?_
  refine bind (bind get fun _ => ofExcept_keeps) fun _ => ?_
  exact ite (fun _ => pure _) fun _ => pure _

end HAService

namespace HAServer

open HAService

variable {t : HAServerType} {s s' : HAServer t}

theorem onService_keeps {α : Type} {x : ServiceM t α} {I : HAService t → Prop} (h : Keeps I x) :
    Keeps (fun s : HAServer t => I s.service) (onService x) :=
  zoom fun s hs => h s.service hs

theorem heartbeatCompleted_keeps {answer : HeartbeatAnswer} {now : Int} {d : HAService t} :
    Keeps (Quiet d) (heartbeatCompleted answer now) := by
  refine bind comm_keeps fun success => ite (fun _ => ?_) fun _ => ?_
  · exact bind comm_keeps fun _ => startHeartbeat_keeps
  · exact bind modifyComm_keeps fun _ => startHeartbeat_keeps

/-! ## Lease updates -/

/-- A property that the commit of a query does not touch, one step of it at a time. -/
structure ToleratesCommit (I : HAServer t → Prop) (query : Nat) : Prop where
  sent : ∀ lot resumed peer,
    Keeps (fun d => I ⟨d, lot, resumed⟩) (asyncSendLeaseUpdate query peer)
  referenced : ∀ s, I s → I { s with parkingLot := s.parkingLot.reference query }
  parked : ∀ rsp, Keeps I (parkQuery query rsp)

/-- The same for the completion of a lease update. -/
structure Tolerates (I : HAServer t → Prop) (query : Nat) : Prop extends ToleratesCommit I query where
  completed : ∀ update : LeaseUpdate, update.query = query →
    Keeps I (modifyMembers fun m => { m with leaseUpdates := m.leaseUpdates.erase update })
  poked : ∀ now, Keeps I (onService (comm (poke now)))
  lost : Keeps I (onService (modifyComm (·.setUnavailable)))
  dropped : ∀ s, I s → I { s with parkingLot := (s.parkingLot.drop query).1 }
  unparked : Keeps I (unparkQuery query)
  counted : ∀ pending, Keeps I (modifyMembers fun m => { m with
    pendingRequests := Function.update m.pendingRequests query pending })

section Tolerates

variable {I : HAServer t → Prop} {query : Nat}

theorem ToleratesCommit.forM_asyncSendLeaseUpdate (h : ToleratesCommit I query) {peers : List PeerConfig}
    {lot : ParkingLot Nat Nat} {resumed : List Nat} :
    Keeps (fun d => I ⟨d, lot, resumed⟩) (peers.forM (asyncSendLeaseUpdate query)) := by
  induction peers with
  | nil => exact pure ()
  | cons peer peers ih => exact bind (h.sent lot resumed peer) fun _ => ih

theorem ToleratesCommit.foldlM_sendToPeer (h : ToleratesCommit I query) (leases deletedLeases : Nat)
    (peers : List PeerConfig) (sentNum : Nat) (lot : ParkingLot Nat Nat) (resumed : List Nat) :
    Keeps (fun d => I ⟨d, lot, resumed⟩)
      (peers.foldlM (sendToPeer query leases deletedLeases) sentNum) := by
  induction peers generalizing sentNum with
  | nil => exact pure _
  | cons peer peers ih =>
    refine bind (bind (shouldSendLeaseUpdates_keeps peer) fun _ => ?_) fun n => ih n
    refine ite (fun _ => ?_) fun _ => pure _
    refine bind h.forM_asyncSendLeaseUpdate fun _ => ?_
    exact bind h.forM_asyncSendLeaseUpdate fun _ => pure _

theorem ToleratesCommit.asyncSendLeaseUpdates (h : ToleratesCommit I query) (leases deletedLeases : Nat) :
    Keeps I (onService (asyncSendLeaseUpdates query leases deletedLeases)) := by
  refine zoom fun s hs => ?_
  refine bind (I := fun d => I ⟨d, s.parkingLot, s.resumed⟩) get (fun _ => ?_) s.service hs
  exact h.foldlM_sendToPeer leases deletedLeases _ 0 _ _

theorem ToleratesCommit.committed (h : ToleratesCommit I query) (leases deletedLeases : Nat) (rsp : Bool) :
    Keeps I (do if ← leasesCommitted query leases deletedLeases then parkQuery query rsp) := by
  refine bind ?_ fun _ => ite (fun _ => h.parked rsp) fun _ => pure ()
  refine bind get fun _ => ite (fun _ => pure _) fun _ => ?_
  refine ite (fun _ => pure _) fun _ => ?_
  refine bind (h.asyncSendLeaseUpdates leases deletedLeases) fun _ => ?_
  refine ite (fun _ => pure _) fun _ => ?_
  exact bind (modify h.referenced) fun _ => pure _

/-- The completion of a lease update, step by step. -/
theorem Tolerates.leaseUpdateCompleted {update : LeaseUpdate} (h : Tolerates I update.query)
    (success : Bool) (now : Int) : Keeps I (leaseUpdateCompleted update success now) := by
  have hnote : Keeps I (noteUpdate update success now) := by
    refine ite (fun _ => ite (fun _ => h.poked now) fun _ => ?_) fun _ => pure ()
    exact bind (modify h.dropped) fun _ => h.lost
  refine bind (h.completed update rfl) fun _ => bind hnote fun _ => ?_
  refine bind get fun s => ?_
  cases s.service.members.pendingRequests update.query with
  | none => exact bind h.unparked fun _ => pure _
  | some pending =>
    refine bind (h.counted _) fun _ => ite (fun _ => ?_) fun _ => pure _
    refine bind h.unparked fun _ => bind (h.counted _) fun _ => pure _

end Tolerates

/-- The state, the scopes and the network state do not depend on the lease updates. -/
theorem quiet_tolerates {query : Nat} {d : HAService t} :
    Tolerates (fun s => Quiet d s.service) query := by
  have hmodify : ∀ {f : HAServer t → HAServer t}, (∀ s, (f s).service = s.service) →
      Keeps (fun s => Quiet d s.service) (modify f : ServerM t Unit) := by
    intro f hf
    exact modify fun s h => by rwa [hf s]
  have hmembers : ∀ {f : Members t → Members t}, (∀ m, (f m).config = m.config ∧
      (f m).queryFilter = m.queryFilter ∧ (f m).networkState = m.networkState) →
      Keeps (fun s => Quiet d s.service) (modifyMembers f) := by
    intro f hf
    refine modify fun s h => ?_
    obtain ⟨hconfig, hfilter, hnetwork⟩ := hf s.service.members
    exact ⟨h.currState, h.onEntryFlag, hconfig.trans h.config, hfilter.trans h.queryFilter,
      hnetwork.trans h.networkState⟩
  refine ⟨⟨?sent, ?referenced, ?parked⟩, ?completed, ?poked, ?lost, ?dropped, ?unparked, ?counted⟩
  case sent =>
    intro lot resumed peer
    exact modify fun _ h => ⟨h.currState, h.onEntryFlag, h.config, h.queryFilter, h.networkState⟩
  case referenced => exact fun _ h => h
  case parked =>
    intro rsp
    refine ite (fun _ => bind get fun s => ?_) fun _ => pure ()
    cases s.parkingLot.park query query with
    | some lot => exact hmodify fun _ => rfl
    | none => exact throw _
  case completed => exact fun _ _ => hmembers fun _ => ⟨rfl, rfl, rfl⟩
  case poked => exact fun _ => onService_keeps comm_keeps
  case lost => exact onService_keeps modifyComm_keeps
  case dropped => exact fun _ h => h
  case unparked =>
    refine bind get fun s => bind (hmodify fun _ => rfl) fun _ => ?_
    rcases (s.parkingLot.unpark query false).callback with _ | _ | resumed
    · exact pure ()
    · exact throw _
    · exact hmodify fun _ => rfl
  case counted => exact fun _ => hmembers fun _ => ⟨rfl, rfl, rfl⟩

/-! ## Queries -/

variable {now : Int} {rounds : List Outside} {o : Happening t}

theorem inScope_keeps {query : t.Query} {d : HAService t} :
    Keeps (Quiet d) (inScope query now) := by
  refine bind get fun d₁ => ite (fun _ => ?_) fun _ => pure _
  exact bind modifyComm_keeps fun _ => pure _

/-! ## The beginning of a step -/

/-- What neither starts the service nor is meant to change its scopes or the network state. -/
def Happening.Plain : Happening t → Prop
  | .start _ | .haScopes _ | .dhcpDisable _ | .dhcpEnable | .enableTimer => False
  | _ => True

theorem begin_heartbeat {answer : HeartbeatAnswer} :
    (begin (.heartbeat answer now rounds) s).1 =
      after (onService (heartbeatCompleted answer now)) s := by
  unfold begin after
  dsimp only
  cases onService (heartbeatCompleted answer now) s <;> rfl

theorem begin_leaseUpdate {update : LeaseUpdate} {success : Bool} :
    (begin (.leaseUpdate update success now rounds) s).1 =
      after (leaseUpdateCompleted update success now) s := by
  unfold begin after
  dsimp only
  cases leaseUpdateCompleted update success now s with
  | ok last s' => cases last <;> rfl
  | error e s' => rfl

/-- Little of what happens touches the state, the scopes and the network state. -/
theorem begin_quiet (ho : o.Plain) (s : HAServer t) : Quiet s.service (begin o s).1.service := by
  have hs := Quiet.refl s.service
  cases o with
  | start | haScopes | dhcpDisable | dhcpEnable | enableTimer => exact ho.elim
  | heartbeat answer now rounds =>
    rw [begin_heartbeat]
    exact onService_keeps heartbeatCompleted_keeps s hs
  | leaseUpdate update success now rounds =>
    rw [begin_leaseUpdate]
    exact (quiet_tolerates).leaseUpdateCompleted success now s hs
  | committed query leases deletedLeases rsp =>
    exact (quiet_tolerates).toToleratesCommit.committed leases deletedLeases rsp s hs
  | received query now => exact onService_keeps inScope_keeps s hs
  | heartbeatTimer => exact onService_keeps modifyComm_keeps s hs
  | haSync serverName sync => exact onService_keeps synchronize_keeps s hs
  | haContinue =>
    refine onService_keeps (x := processContinue) (modify fun d h => ?_) s hs
    refine ⟨?_, ?_, h.config, h.queryFilter, h.networkState⟩
    · rw [← h.currState]
      dsimp only
      split <;> rfl
    · rw [← h.onEntryFlag]
      dsimp only
      split <;> rfl

theorem begin_event {event : ModelEvent HAEvent} (h : (begin o s).2 = some (event, rounds)) :
    event ≠ .nop := by
  cases o with
  | start | heartbeat answer now rounds =>
    unfold begin at h
    dsimp only at h
    split at h
    · cases h
      decide
    · cases h
  | leaseUpdate update success now rounds =>
    unfold begin at h
    dsimp only at h
    split at h
    · cases h
      decide
    · cases h
    · cases h
  | committed | received | heartbeatTimer | haSync | haContinue | haScopes | dhcpDisable | dhcpEnable
  | enableTimer => cases h

/-- A step is what happens, and perhaps a run of the state machine. -/
theorem step_cases :
    ((begin o s).2 = none ∧ step o s = (begin o s).1) ∨
    (∃ event rounds d, (begin o s).2 = some (event, rounds) ∧
      runModel stateHandler event rounds (begin o s).1.service = some d ∧
      step o s = { (begin o s).1 with service := d }) ∨
    step o s = s := by
  unfold step
  rcases hbegin : begin o s with ⟨s', _ | ⟨event, rounds⟩⟩
  · exact .inl ⟨rfl, rfl⟩
  dsimp only
  cases hrun : runModel stateHandler event rounds s'.service with
  | some d => exact .inr (.inl ⟨event, rounds, d, rfl, hrun, rfl⟩)
  | none => exact .inr (.inr rfl)

/-- The run of the state machine that the happening leads to returns. -/
def Returns (o : Happening t) (s : HAServer t) : Prop :=
  ∀ event rounds, (begin o s).2 = some (event, rounds) →
    (runModel stateHandler event rounds (begin o s).1.service).isSome = true

theorem returns_iff : Returns o s ↔ ((begin o s).2.all fun run =>
      (runModel stateHandler run.1 run.2 (begin o s).1.service).isSome) = true := by
  unfold Returns
  cases (begin o s).2 with
  | none => simp
  | some run =>
    exact ⟨fun h => h _ _ rfl, fun h event rounds heq => by rwa [heq] at h⟩

instance (o : Happening t) (s : HAServer t) : Decidable (Returns o s) :=
  decidable_of_iff _ returns_iff.symm

theorem Returns.cases {o : Happening t} {s : HAServer t} (h : Returns o s) :
    ((begin o s).2 = none ∧ step o s = (begin o s).1) ∨
    ∃ event rounds d, (begin o s).2 = some (event, rounds) ∧
      runModel stateHandler event rounds (begin o s).1.service = some d ∧
      step o s = { (begin o s).1 with service := d } := by
  cases hbegin : (begin o s).2 with
  | none =>
    refine .inl ⟨rfl, ?_⟩
    unfold step
    rw [show begin o s = ((begin o s).1, none) from Prod.ext rfl hbegin]
  | some run =>
    obtain ⟨event, rounds⟩ := run
    obtain ⟨d, hd⟩ := isSome_iff_exists.mp (h event rounds hbegin)
    refine .inr ⟨event, rounds, d, rfl, hd, ?_⟩
    unfold step
    rw [show begin o s = ((begin o s).1, some (event, rounds)) from Prod.ext rfl hbegin]
    dsimp only
    rw [hd]

/-- A new service that is started enters `WAITING`. -/
theorem begin_start (rounds : List Outside) (hnew : s.service.model.currState = .new) :
    begin (.start rounds) s = (⟨s.service.withModel (s.service.model.setState (.derived .waiting)),
      s.parkingLot, s.resumed⟩, some (.start, rounds)) := by
  unfold begin
  dsimp only
  rw [if_pos hnew]
  rfl

/--
The rule for a step: what holds between the runs of the state machine is kept by what happens outside
of them, by every run that starts from it, and by the run that a start begins in `WAITING`.
-/
theorem step_rule {J : HAService t → Prop} (h : J s.service)
    (hbegin : (∀ rounds, o ≠ .start rounds) → J (begin o s).1.service)
    (hrun : ∀ event rounds d d', event ≠ .nop → J d → runModel stateHandler event rounds d = some d' → J d')
    (hstart : ∀ rounds d', s.service.model.currState = .new → runModel stateHandler .start rounds
      (s.service.withModel (s.service.model.setState (.derived .waiting))) = some d' → J d') :
    J (step o s).service := by
  by_cases hstarts : ∃ rounds, o = .start rounds ∧ s.service.model.currState = .new
  · obtain ⟨rounds, rfl, hnew⟩ := hstarts
    rcases step_cases with ⟨hnone, -⟩ | ⟨event, rounds', d, hsome, hloop, heq⟩ | heq
    · rw [begin_start rounds hnew] at hnone
      cases hnone
    · rw [begin_start rounds hnew] at hsome hloop
      cases hsome
      rw [heq]
      exact hstart rounds d hnew hloop
    · rw [heq]
      exact h
  · have hbegun : J (begin o s).1.service := by
      by_cases hstart : ∃ rounds, o = .start rounds
      · obtain ⟨rounds, rfl⟩ := hstart
        have hold : s.service.model.currState ≠ .new := fun hnew => hstarts ⟨rounds, rfl, hnew⟩
        unfold begin
        dsimp only
        rw [if_neg hold]
        exact h
      · exact hbegin fun rounds heq => hstart ⟨rounds, heq⟩
    rcases step_cases with ⟨-, heq⟩ | ⟨event, rounds, d, hsome, hloop, heq⟩ | heq
    · rw [heq]
      exact hbegun
    · rw [heq]
      exact hrun event rounds _ d (begin_event hsome) hbegun hloop
    · rw [heq]
      exact h

end HAServer

/-! ## What holds in a state from its entry on -/

namespace HAService

open HAConfig

section Holds

variable {t : HAServerType} {c : HAConfig} {this partner : PeerConfig}
  {I : HAState → Members t → Prop}

/-- In its present state the service meets the condition of that state. -/
structure Holds (c : HAConfig) (I : HAState → Members t → Prop) (d : HAService t) : Prop where
  config : d.members.config = c
  state : ∀ s, d.model.currState = .derived s → I s d.members

/-- The same before a round, in which the state may have to be entered first. -/
structure Enters (c : HAConfig) (I : HAState → Members t → Prop) (d : HAService t) : Prop where
  config : d.members.config = c
  event : d.model.nextEvent ≠ .nop
  state : ∀ s, d.model.currState = .derived s → d.model.onEntryFlag = false → I s d.members

/-- A condition that the entry establishes and that does not look at the communication. -/
structure EntryCondition (I : HAState → Members t → Prop) : Prop where
  entry : ∀ s (d : HAService t) f, d.model.currState = .derived s → I s (d.entering f).members
  framed : ∀ s (d d' : HAService t), Framed d d' → I s d.members → I s d'.members

/-- What an entry sets up lasts for a round. -/
theorem stateHandler_holds (hI : EntryCondition I) (hc : Complete c this partner) {s : HAState}
    {out : Outside} {d : HAService t} (h : Enters c I d) (hs : d.model.currState = .derived s) :
    Post (stateHandler s out) d (fun _ d' => if rests d'.model then Holds c I d' else Enters c I d')
      fun _ d' => Holds c I { d' with model := d'.model.abortModel } := by
  have hentered : ∀ {d₁ : HAService t}, Entered (scopesFor this s) d d₁ →
      d₁.members.config = c ∧ I s d₁.members := by
    intro d₁ hentered
    refine ⟨hentered.frame.1.trans h.config, ?_⟩
    cases hentered with
    | again hflag heq =>
      subst heq
      exact h.state s hs hflag
    | first hflag hserve heq =>
      subst heq
      exact hI.entry s d _ hs
  have haborted : ∀ m : StateModel HAState HAEvent, m.abortModel.currState = .ended := fun m =>
    currState_transition _ _ _
  refine (stateHandler_round (h.config ▸ hc) hs).mono ?_ ?_
  · rintro _ d' ⟨d₁, hfirst, hproceeds⟩
    obtain ⟨-, hstate₁, -, hevent₁⟩ := hfirst.frame
    obtain ⟨hconfig₁, hI₁⟩ := hentered hfirst
    have hconfig : d'.members.config = c := by
      rw [hproceeds.members]
      exact hconfig₁
    rcases hproceeds.next with hrest | ⟨s', hmove⟩
    · rw [if_pos (by simp [rests, hrest.nextEvent])]
      refine ⟨hconfig, fun s' hs' => ?_⟩
      rw [hrest.currState, hstate₁, hs, ModelState.derived.injEq] at hs'
      subst hs'
      exact hI.framed s d₁ d' hproceeds.toFramed hI₁
    · have hevent : d'.model.nextEvent ≠ .nop := hmove.nextEvent (hevent₁ ▸ h.event)
      rw [if_neg (by simp [rests, isModelDone, hmove.currState, hevent])]
      refine ⟨hconfig, hevent, fun s'' _ hflag => ?_⟩
      rw [hmove.onEntryFlag] at hflag
      cases hflag
  · intro _ d' hfails
    refine ⟨?_, fun s' hs' => ?_⟩
    · rcases hfails with ⟨-, e, f, -, rfl⟩ | ⟨-, d₁, hfirst, hframed⟩
      · exact h.config
      rw [hframed.members]
      exact (hentered hfirst).1
    · rw [haborted] at hs'
      cases hs'

/-- And for a whole run. -/
theorem runModel_holds (hI : EntryCondition I) (hc : Complete c this partner)
    {event : ModelEvent HAEvent} {rounds : List Outside} {d d' : HAService t}
    (h : Enters c I (d.withModel (d.model.postNextEvent event)))
    (hrun : runModel stateHandler event rounds d = some d') : Holds c I d' := by
  refine runLoop_inv (fun s r d hd hs => stateHandler_holds hI hc hd hs) ?_ h hrun
  exact fun d hd hidle => ⟨hd.config, fun s hs => absurd hs (hidle s)⟩

end Holds

end HAService

namespace HAServer

open HAConfig HAService

variable {t : HAServerType} {c : HAConfig} {this partner : PeerConfig} {s : HAServer t}

theorem Constructed.built (h : Constructed c s) :
    (∃ this partner, Complete c this partner) ∧ ∃ f networkState now, s =
      { service :=
          { model := fresh c.getPausing
            members :=
              { config := c, networkState := networkState
                communicationState := fresh now, queryFilter := f
                pendingRequests := fun _ => none, leaseUpdates := [] } }
        parkingLot := [], resumed := [] } := by
  obtain ⟨⟨networkState, now, hconstruct⟩, hlot, hresumed⟩ := h
  obtain ⟨f, hnew, hrest⟩ := except_bind_eq_ok hconstruct
  refine ⟨complete_of_validate (QueryFilter.new_eq_ok_iff.mp hnew).1, f, networkState, now, ?_⟩
  cases s
  dsimp only at hlot hresumed hrest
  rw [hlot, hresumed, ← Except.ok.inj hrest]

variable {I : HAState → Members t → Prop}

/-- And from one step to the next. -/
theorem step_holds (hI : EntryCondition I) (hc : Complete c this partner) {o : Happening t}
    (h : Holds c I s.service)
    (hbegin : (∀ rounds, o ≠ .start rounds) → Holds c I (begin o s).1.service) :
    Holds c I (step o s).service := by
  refine step_rule h hbegin ?_ ?_
  · intro event rounds d d' hevent hd hrun
    exact runModel_holds hI hc ⟨hd.config, hevent, fun s hs _ => hd.state s hs⟩ hrun
  intro rounds d' hnew hrun
  refine runModel_holds hI hc ?_ hrun
  refine ⟨h.config, nofun, fun s' _ hflag => ?_⟩
  -- the state is about to be entered
  have hentry := onEntryFlag_setState s.service.model (.derived .waiting)
  rw [hnew] at hentry
  cases hentry.symm.trans hflag

/-! ## The states that are never left -/

variable {s' : HAServer t} {state : HAState}

/-- The service is in the given state, or its state machine has been aborted. -/
def StaysIn (state : HAState) (d : HAService t) : Prop :=
  d.model.currState = .derived state ∨ d.model.currState = .ended

theorem begin_staysIn {o : Happening t} (hstart : ∀ rounds, o ≠ .start rounds)
    (h : StaysIn state s.service) : StaysIn state (begin o s).1.service := by
  by_cases ho : o.Plain
  · rwa [StaysIn, (begin_quiet ho s).currState]
  cases o with
  | start rounds => exact absurd rfl (hstart rounds)
  | haScopes scopes => exact onService_keeps (bind (zoom fun _ h => h) fun _ _ h => h) s h
  | dhcpDisable | dhcpEnable | enableTimer => exact h
  | _ => exact absurd trivial ho

theorem stateHandler_staysIn (hlast : state = .backup ∨ state = .terminated) (out : Outside) :
    Keeps (StaysIn (t := t) state) (stateHandler state out) := by
  have hentry : Keeps (StaysIn (t := t) state) doOnEntry := fun _ h => h
  rcases hlast with rfl | rfl
  · refine bind (bind hentry fun _ => ite (fun _ => ?_) fun _ _ h => h) fun _ _ h => h
    exact bind (zoom fun _ h => h) fun _ _ h => h
  · refine bind hentry fun _ => ite (fun _ => ?_) fun _ _ h => h
    exact bind (zoom fun _ h => h) fun _ _ h => h

/--
**`BACKUP` and `TERMINATED` are final.** Whatever happens to a server in one of them, its service
stays there, unless an exception aborts the state machine.
-/
theorem final_states (hlast : state = .backup ∨ state = .terminated)
    (hs : s.service.model.currState = .derived state)
    (hreach : Reaches step (fun _ _ => True) s s') : StaysIn state s'.service := by
  refine hreach.inv (I := fun u => StaysIn state u.service) (.inl hs) fun o u h _ => ?_
  refine step_rule h (fun hstart => begin_staysIn hstart h) ?_ ?_
  · intro event rounds d d' _ hd hrun
    have hposted : StaysIn state (d.withModel (d.model.postNextEvent event)) := hd
    refine runLoop_inv (fun s out d hd hs => ?_) (fun _ hd _ => hd) hposted hrun
    obtain rfl : s = state := by simpa [hs, StaysIn] using hd
    refine ((stateHandler_staysIn hlast out).post hd).mono (fun _ _ h => by rwa [ite_self]) ?_
    exact fun _ _ _ => .inr (currState_transition _ _ _)
  · exact fun _ _ hnew => by simp [hnew, StaysIn] at h

/-- A backup server once it has been started, and then told to serve a scope. -/
theorem final_states_sample : ∃ s : HAServer .dhcpv4, s.service.model.currState = .derived .backup ∧
    StaysIn .backup (step (.haScopes ["server1"]) s).service := by
  obtain ⟨d, hd⟩ : ∃ d, construct .dhcpv4 (Sample.balanced.loadedBy "server2") .fresh 0 = .ok d :=
    ⟨_, rfl⟩
  have hs : (step (.start (.replicate 2 ⟨0, ⟨"", "", ""⟩⟩)) ⟨d, [], []⟩).service.model.currState
      = .derived .backup := by
    cases hd
    decide +kernel
  exact ⟨_, hs, final_states (.inl rfl) hs (.next _ .start trivial)⟩

end HAServer

end Ha
