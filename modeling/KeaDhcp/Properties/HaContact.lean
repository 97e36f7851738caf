import KeaDhcp.Properties.HaHappenings

/-!
# What a server records of its partner

The handlers of a heartbeat and of a lease update, and what the other happenings leave of the
record.
-/

namespace Ha

open Infra Util Dhcp Hooks CommunicationState Keeps Derived

namespace HAService

open HAConfig

variable {t : HAServerType} {d d' : HAService t} {c : CommunicationState t}

/-! ## The poke -/

/-- A heartbeat that is running is started again with what it has. -/
theorem startHeartbeatInternal_again (h : Steady c) (htimer : c.timer.isSome = true) :
    startHeartbeatInternal 0 false c = .ok () c := by
  obtain ⟨himpl, hinterval⟩ := h htimer
  obtain ⟨timer, hsome⟩ := Option.isSome_iff_exists.mp htimer
  cases c with
  | mk timer' interval impl =>
    subst himpl hsome
    unfold startHeartbeatInternal
    rw [run_bind_ok (run_get _)]
    simp only [ne_eq, hinterval]
    rfl

/-- A poke records the time and forgets the clients that went unanswered. -/
theorem poke_run (h : Steady c) {now : Int} :
    poke now c = .ok () { c with pokeTime := now, unackedClients := [] } := by
  unfold poke
  rw [run_bind_ok (run_get c), run_bind_ok run_modify, run_bind_ok (run_get _)]
  split
  · rename_i hlong
    refine startHeartbeatInternal_again h ?_
    exact (Bool.and_eq_true_iff.mp hlong).1
  · rfl

/-- The state and the clock skew that an answer to a heartbeat reports, if it can be used. -/
def reported : HAServer.HeartbeatAnswer → Option (PartnerState × Int)
  | .arguments (some state) (some (some skew)) =>
    (partnerStateOf state).map fun p => (p, skew)
  | _ => none

open HAServer in
/-- An answer is accepted if it reports a state and a clock skew. -/
theorem accept_run (answer : HAServer.HeartbeatAnswer) (c : CommunicationState t) :
    match reported answer with
    | some (p, skew) => accept answer c = .ok () { c with partnerState := p, clockSkew := skew }
    | none => ∃ e p, accept answer c = .error e { c with partnerState := p } := by
  cases answer with
  | failed => exact ⟨_, _, rfl⟩
  | arguments state dateTime =>
    cases state with
    | none => exact ⟨_, _, rfl⟩
    | some state =>
      cases hstate : partnerStateOf state with
      | none =>
        obtain ⟨e, hset⟩ : ∃ e, setPartnerState state c = .error e c := by
          unfold setPartnerState
          rw [hstate]
          exact ⟨_, rfl⟩
        have hrun (rest : Unit → CommunicationState.CommM t Unit) :
            (setPartnerState state >>= rest) c = .error e c := by
          rw [run_bind, hset]
        have hnone : reported (.arguments (some state) dateTime) = none := by
          rcases dateTime with _ | _ | skew <;> simp [reported, hstate]
        rw [hnone]
        rcases dateTime with _ | _ | skew <;> exact ⟨_, _, hrun _⟩
      | some p =>
        have hset : setPartnerState state c =
            .ok () { c with partnerState := p } := by
          unfold setPartnerState
          rw [hstate]
          rfl
        rcases dateTime with _ | _ | skew
        · exact ⟨_, _, run_bind_ok hset _⟩
        · exact ⟨_, _, run_bind_ok hset _⟩
        have hsome : reported (.arguments (some state) (some (some skew))) = some (p, skew) := by
          simp [reported, hstate]
        rw [hsome]
        exact run_bind_ok hset _

/--
What a heartbeat leaves behind: if its answer can be used, it is a poke and the partner is in the state
that it reports, otherwise the partner is unavailable.
-/
structure Heard (answer : HAServer.HeartbeatAnswer) (now : Int) (c c' : CommunicationState t) : Prop where
  steady : Steady c'
  success : ∀ p skew, reported answer = some (p, skew) →
    c'.partnerState = p ∧ c'.pokeTime = now ∧ c'.unackedClients = []
  failure : reported answer = none → c'.partnerState = .unavailable ∧
    c'.pokeTime = c.pokeTime ∧ c'.unackedClients = c.unackedClients

open HAServer in
/-- The handler of a heartbeat does not fail as long as the heartbeat can be started again. -/
theorem heartbeatCompleted_run (answer : HeartbeatAnswer) (now : Int)
    (h : Steady d.members.communicationState) :
    ∃ c', heartbeatCompleted answer now d = .ok () (d.withComm c') ∧
      Heard answer now d.members.communicationState c' := by
  have haccept := accept_run answer d.members.communicationState
  unfold heartbeatCompleted
  cases hreported : reported answer with
  | some report =>
    obtain ⟨p, skew⟩ := report
    rw [hreported] at haccept
    let c₁ : CommunicationState t :=
      { d.members.communicationState with partnerState := p, clockSkew := skew }
    have hcomm : comm (tryCatch (do accept answer; return true) fun _ => return false) d =
        .ok true (d.withComm c₁) := by
      rw [comm, run_zoom, run_tryCatch, run_bind_ok haccept]
      rfl
    have hpoke : comm (poke now) (d.withComm c₁) =
        .ok () (d.withComm { c₁ with pokeTime := now, unackedClients := [] }) := by
      rw [comm, run_zoom]
      dsimp only
      rw [poke_run (c := (d.withComm c₁).members.communicationState) h]
      rfl
    obtain ⟨c', hstart, honly⟩ := startHeartbeat_run
    refine ⟨c', ?_, ?_⟩
    · rw [run_bind_ok hcomm, if_pos rfl]
      exact (run_bind_ok hpoke _).trans hstart
    obtain ⟨⟨timer, interval, impl, rfl⟩, hsteady⟩ := honly
    refine ⟨hsteady h, fun p' skew' heq => ?_, fun heq => ?_⟩
    · rw [hreported] at heq
      cases heq
      exact ⟨rfl, rfl, rfl⟩
    · rw [hreported] at heq
      cases heq
  | none =>
    rw [hreported] at haccept
    obtain ⟨e, p, haccept⟩ := haccept
    let c₁ : CommunicationState t := { d.members.communicationState with partnerState := p }
    have hcomm : comm (tryCatch (do accept answer; return true) fun _ => return false) d =
        .ok false (d.withComm c₁) := by
      rw [comm, run_zoom, run_tryCatch, run_bind, haccept]
      rfl
    obtain ⟨c', hstart, honly⟩ := startHeartbeat_run
    refine ⟨c', ?_, ?_⟩
    · rw [run_bind_ok hcomm, if_neg (by decide)]
      exact (run_bind_ok rfl _).trans hstart
    obtain ⟨⟨timer, interval, impl, rfl⟩, hsteady⟩ := honly
    refine ⟨hsteady h, fun p' skew' heq => ?_, fun _ => ⟨rfl, rfl, rfl⟩⟩
    rw [hreported] at heq
    cases heq

variable (update : LeaseUpdate) (success : Bool) (now : Int)

/-- What the completion of a lease update means for the partner. -/
def noted (c : CommunicationState t) : CommunicationState t :=
  if update.peer.role = .backup then c
  else if success then { c with pokeTime := now, unackedClients := [] }
  else c.setUnavailable

theorem noted_steady (h : Steady c) : Steady (noted update success now c) := by
  unfold noted
  split
  · exact h
  · split <;> exact h

/-- A failure that the reply is dropped for. -/
def fatal (success : Bool) : Bool := update.peer.role ≠ .backup && !success

open HAServer in
/-- Nor does the handler of a lease update. -/
theorem noteUpdate_run {s : HAServer t} {update : LeaseUpdate} {success : Bool} {now : Int}
    (h : Steady s.service.members.communicationState) :
    noteUpdate update success now s = .ok ()
      { service := s.service.withComm (noted update success now s.service.members.communicationState)
        parkingLot :=
          if fatal update success then (s.parkingLot.drop update.query).1 else s.parkingLot
        resumed := s.resumed } := by
  unfold noteUpdate noted fatal
  by_cases hrole : update.peer.role = .backup
  · simp [hrole, withComm]
  rw [if_pos hrole, if_neg hrole]
  cases success with
  | true =>
    rw [if_pos rfl, onService, run_zoom, HAService.comm, run_zoom, poke_run h]
    simp [withComm]
  | false => simp [hrole, onService, modifyComm, run_bind, run_zoom, withComm]

/-! ## What a run of the state machine keeps -/

/-- The lease updates that the service waits for are as before, and the heartbeat stays steady. -/
structure Kept (d d' : HAService t) : Prop where
  config : d'.members.config = d.members.config
  pendingRequests : d'.members.pendingRequests = d.members.pendingRequests
  leaseUpdates : d'.members.leaseUpdates = d.members.leaseUpdates
  steady : Steady d.members.communicationState → Steady d'.members.communicationState

theorem Kept.refl (d : HAService t) : Kept d d := ⟨rfl, rfl, rfl, id⟩

/-- What a run of the state machine does not touch: it can only lose the partner. -/
structure Undisturbed (d d' : HAService t) : Prop where
  config : d'.members.config = d.members.config
  pendingRequests : d'.members.pendingRequests = d.members.pendingRequests
  leaseUpdates : d'.members.leaseUpdates = d.members.leaseUpdates
  contact : SameContact d.members.communicationState d'.members.communicationState

/-- A run that disturbs nothing keeps the heartbeat steady. -/
theorem Undisturbed.kept (h : Undisturbed d d') : Kept d d' :=
  ⟨h.config, h.pendingRequests, h.leaseUpdates, h.contact.steady⟩

theorem Undisturbed.trans {d'' : HAService t} (h : Undisturbed d d') (h' : Undisturbed d' d'') :
    Undisturbed d d'' :=
  ⟨h'.config.trans h.config, h'.pendingRequests.trans h.pendingRequests,
    h'.leaseUpdates.trans h.leaseUpdates, h.contact.trans h'.contact⟩

theorem Framed.undisturbed (h : Framed d d') : Undisturbed d d' := by
  refine ⟨?_, ?_, ?_, h.contact⟩
  all_goals rw [h.members]

/-- The entry of a state sets the scopes and the network state only. -/
theorem Entered.undisturbed {serve : FilterM Unit} (h : Entered serve d d') : Undisturbed d d' := by
  cases h with
  | again hflag heq => exact heq ▸ ⟨rfl, rfl, rfl, .refl _⟩
  | first hflag hserve heq =>
    subst heq
    exact ⟨rfl, rfl, rfl, .refl _⟩

variable {this partner : PeerConfig}

/-- One round of the state machine, in any state. -/
theorem stateHandler_undisturbed {s : HAState} {out : Outside}
    (h : Complete d.members.config this partner) (hs : d.model.currState = .derived s) :
    EndsIn (stateHandler s out) d (Undisturbed d) := by
  refine (stateHandler_round h hs).mono ?_ ?_
  · rintro _ d' ⟨d₁, hentered, hproceeds⟩
    exact hentered.undisturbed.trans hproceeds.toFramed.undisturbed
  · rintro _ d' (⟨-, e, f, -, rfl⟩ | ⟨-, d₁, hentered, hframed⟩)
    · exact ⟨rfl, rfl, rfl, .refl _⟩
    · exact hentered.undisturbed.trans hframed.undisturbed

/-- No run of the state machine touches the records, or counts as a contact. -/
theorem runModel_undisturbed (h : Complete d.members.config this partner)
    {event : ModelEvent HAEvent} {rounds : List Outside}
    (hrun : runModel stateHandler event rounds d = some d') : Undisturbed d d' := by
  refine runLoop_inv (I := Undisturbed d) (J := Undisturbed d) ?_ (fun _ hd _ => hd) ?_ hrun
  · intro s r d₁ hd hs
    have hcomplete : Complete d₁.members.config this partner := hd.config ▸ h
    refine (stateHandler_undisturbed hcomplete hs).mono ?_ ?_
    · intro _ d₂ hnext
      split <;> exact hd.trans hnext
    · intro _ d₂ hnext
      exact hd.trans ⟨hnext.config, hnext.pendingRequests, hnext.leaseUpdates, hnext.contact⟩
  · exact ⟨rfl, rfl, rfl, .refl _⟩

/-! ## What happens between the runs -/

variable {query : t.Query}

open HAServer in
/-- The queries of clients matter only while the communication is interrupted. -/
theorem after_inScope {now : Int} :
    after (inScope query now) d = d.withComm (if !(inScopeOf t d.members.queryFilter query "").1 &&
          d.members.communicationState.isCommunicationInterrupted d.members.config now then
        d.members.communicationState.analyzeMessage d.members.config query
      else d.members.communicationState) := by
  unfold after inScope
  rw [run_bind_ok (run_get d)]
  generalize inScopeOf t d.members.queryFilter query "" = answer
  obtain ⟨served, cls⟩ := answer
  dsimp only
  split <;> rfl

theorem analyzeMessage_same {config : HAConfig} :
    ∃ clients, c.analyzeMessage config query = { c with unackedClients := clients } := by
  unfold analyzeMessage
  split
  · split
    · exact ⟨_, rfl⟩
    · exact ⟨_, rfl⟩
  · exact ⟨_, rfl⟩

open HAServer in
theorem inScope_kept {now : Int} : Kept d (after (inScope query now) d) := by
  rw [after_inScope]
  obtain ⟨clients, heq⟩ := analyzeMessage_same
  rw [heq]
  refine ⟨rfl, rfl, rfl, fun hsteady => ?_⟩
  show Steady (if _ then _ else _)
  split <;> exact hsteady

open HAServer in
theorem heartbeatTimerExpired_kept :
    Kept d (d.withComm (heartbeatTimerExpired d.members.communicationState)) := by
  refine ⟨rfl, rfl, rfl, fun hsteady htimer => hsteady ?_⟩
  rw [← Option.isSome_map]
  exact htimer

theorem synchronize_kept {serverName : String} {sync : SyncOutcome} :
    Kept d (after (synchronize serverName sync) d) := by
  refine Post.after (P := Kept d) ((synchronize_post).mono ?_ ?_)
  · rintro _ _ ⟨c, event, hc, rfl⟩
    exact ⟨rfl, rfl, rfl, hc.steady⟩
  · rintro _ _ rfl
    exact Kept.refl _

open HAServer in
theorem processScopes_kept {scopes : List String} : Kept d (after (processScopes scopes) d) := by
  have hkeeps : Keeps (Kept d) (processScopes scopes) := by
    refine bind (zoom fun d' hd => ?_) fun _ => modify fun d' hd => ?_
    all_goals exact ⟨hd.config, hd.pendingRequests, hd.leaseUpdates, hd.steady⟩
  exact hkeeps d (Kept.refl d)

end HAService

end Ha
