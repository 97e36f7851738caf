import KeaDhcp.Infra.Run
import KeaDhcp.Properties.HaContact

/-!
# The evidence for a partner that is down

No handler goes to `PARTNER_DOWN` without evidence in the history of the server.
-/

namespace Ha

open Infra Util Dhcp Hooks Keeps CommunicationState ModelState Sample

namespace HAService

open HAConfig

variable {t : HAServerType} {d d' : HAService t} {this partner : PeerConfig}

/-! ## The transition -/

/-- The evidence of the communication state, when a handler goes to `PARTNER_DOWN`. -/
theorem stateHandler_partnerDown {s : HAState} {out : Outside}
    (h : Complete d.members.config this partner) (hs : d.model.currState = .derived s)
    (hne : s ≠ .partnerDown) (hrun : stateHandler s out d = .ok () d')
    (hdown : d'.model.currState = .derived .partnerDown) :
    d'.members.communicationState.partnerState = .unavailable ∧
      PartnerSeemsDown this out.now
        { d' with members := { d'.members with communicationState := d.members.communicationState } } := by
  obtain ⟨d₁, hentered, hproceeds⟩ := (stateHandler_round h hs).ok hrun
  obtain ⟨hconfig, hstate, -, -⟩ := hentered.frame
  have hcomm : d₁.members.communicationState = d.members.communicationState := by
    cases hentered with
    | again hflag heq => rw [heq]
    | first hflag hserve heq => rw [heq]; rfl
  rcases hproceeds.next with hrest | ⟨s', hmove⟩
  · rw [hrest.currState, hstate, hs, derived.injEq] at hdown
    exact absurd hdown hne
  rw [hmove.currState, derived.injEq] at hdown
  obtain ⟨hlost, hseems⟩ := hmove.partnerDown hdown
  refine ⟨?_, ?_⟩
  · rcases hproceeds.contact.partnerState with heq | heq
    · rw [heq, hlost]
    · exact heq
  · unfold PartnerSeemsDown at hseems ⊢
    rw [hproceeds.members, ← hcomm]
    exact hseems

end HAService

namespace HAServer

open HAConfig HAService

variable {t : HAServerType} {c : HAConfig} {this partner : PeerConfig} {s s₀ : HAServer t}

/-! ## The history of the contact -/

/-- The time of the poke, if the happening is one: a heartbeat or a lease update was successful. -/
def pokeOf : Happening t → Option Int
  | .heartbeat answer now _ => if (reported answer).isSome then some now else none
  | .leaseUpdate update success now _ =>
    if update.peer.role ≠ .backup ∧ success = true then some now else none
  | _ => none

variable {hist : List (Happening t × HAServer t)} {o : Happening t} {start now : Int}

/-- The time of the last poke; the constructor counts as one. -/
def lastPoke (start : Int) (hist : List (Happening t × HAServer t)) : Int :=
  (hist.findSome? fun e => pokeOf e.1).getD start

/-- What happened since the last poke. -/
def sincePoke (hist : List (Happening t × HAServer t)) : List (Happening t × HAServer t) :=
  hist.takeWhile fun e => (pokeOf e.1).isNone

/--
Since the last poke the client has sent a query that is not in the scope of the server, and it has been
trying for longer than `max-ack-delay`.
-/
def Unanswered (c : HAConfig) (hist : List (Happening t × HAServer t)) (client : t.Client) : Prop :=
  ∃ query now s waited, (.received query now, s) ∈ sincePoke hist ∧
    (inScopeOf t s.service.members.queryFilter query "").1 = false ∧
    clientOf t query = some client ∧
    waitingTime t query = some waited ∧ c.maxAckDelay.toNat < waited

theorem lastPoke_cons : lastPoke start ((o, s) :: hist) = (pokeOf o).getD (lastPoke start hist) := by
  unfold lastPoke
  rw [List.findSome?_cons]
  cases pokeOf o <;> rfl

theorem sincePoke_cons : sincePoke ((o, s) :: hist) =
    if (pokeOf o).isNone then (o, s) :: sincePoke hist else [] := by
  unfold sincePoke
  rw [List.takeWhile_cons]

theorem Unanswered.cons {client : t.Client} (hpoke : pokeOf o = none) (h : Unanswered c hist client) :
    Unanswered c ((o, s) :: hist) client := by
  obtain ⟨query, now, u, waited, hmem, hrest⟩ := h
  refine ⟨query, now, u, waited, ?_, hrest⟩
  rw [sincePoke_cons, hpoke]
  exact List.mem_cons_of_mem _ hmem

/-- What the communication state records of the history. -/
structure Recorded (c : HAConfig) (start : Int) (hist : List (Happening t × HAServer t))
    (d : HAService t) : Prop where
  config : d.members.config = c
  steady : Steady d.members.communicationState
  pokeTime : d.members.communicationState.pokeTime = lastPoke start hist
  nodup : d.members.communicationState.unackedClients.Nodup
  clients : ∀ client ∈ d.members.communicationState.unackedClients, Unanswered c hist client

theorem Recorded.same {d d' : HAService t} (h : Recorded c start hist d) (hpoke : pokeOf o = none)
    (hconfig : d'.members.config = d.members.config) (hsteady : Steady d'.members.communicationState)
    (htime : d'.members.communicationState.pokeTime = d.members.communicationState.pokeTime)
    (hclients : d'.members.communicationState.unackedClients =
      d.members.communicationState.unackedClients) : Recorded c start ((o, s) :: hist) d' := by
  refine ⟨hconfig.trans h.config, hsteady, ?_, ?_, ?_⟩
  · rw [lastPoke_cons, hpoke, htime]
    exact h.pokeTime
  · rw [hclients]
    exact h.nodup
  · rw [hclients]
    exact fun client hclient => (h.clients client hclient).cons hpoke

theorem Recorded.poked {d' : HAService t} (hpoke : pokeOf o = some now)
    (hconfig : d'.members.config = c) (hsteady : Steady d'.members.communicationState)
    (htime : d'.members.communicationState.pokeTime = now)
    (hclients : d'.members.communicationState.unackedClients = []) :
    Recorded c start ((o, s) :: hist) d' := by
  refine ⟨hconfig, hsteady, ?_, ?_, ?_⟩
  · rw [lastPoke_cons, hpoke, htime]
    rfl
  · rw [hclients]
    exact List.nodup_nil
  · rw [hclients]
    exact nofun

/-- A client is recorded once, and only if it has not been answered. -/
theorem Recorded.received (h : Recorded c start hist s.service) (query : t.Query) :
    Recorded c start ((.received query now, s) :: hist) (after (inScope query now) s.service) := by
  have hsame := h.same (o := .received query now) (s := s) rfl rfl h.steady rfl rfl
  rw [after_inScope]
  split
  · rename_i hscope
    have hserved : (inScopeOf t s.service.members.queryFilter query "").1 = false := by
      have hnot := (Bool.and_eq_true_iff.mp hscope).1
      simpa using hnot
    have hclient : ∀ client, unanswered t s.service.members.config query = some client →
        Unanswered c ((.received query now, s) :: hist) client := by
      intro client hsome
      unfold unanswered at hsome
      split at hsome
      · rename_i waited hwaited
        split at hsome
        · cases hsome
        rename_i hlong
        rw [h.config] at hlong
        refine ⟨query, now, s, waited, ?_, hserved, hsome, hwaited, by omega⟩
        exact List.mem_cons_self
      · cases hsome
    unfold analyzeMessage
    split
    · rename_i client hunanswered
      by_cases hknown : client ∈ s.service.members.communicationState.unackedClients
      · rw [if_pos hknown]
        exact hsame
      rw [if_neg hknown]
      refine ⟨hsame.config, hsame.steady, hsame.pokeTime, ?_, fun client' hmem => ?_⟩
      · exact List.nodup_append.mpr ⟨h.nodup, List.nodup_singleton _, by
          rintro a ha b hb rfl
          exact hknown (List.mem_singleton.mp hb ▸ ha)⟩
      · rcases List.mem_append.mp hmem with hmem | hmem
        · exact hsame.clients client' hmem
        · rw [List.mem_singleton.mp hmem]
          exact hclient client hunanswered
    · exact hsame
  · exact hsame

/-! ## What does not touch the record -/

/-- The service has this configuration and this communication state. -/
def InContact (c : HAConfig) (k : CommunicationState t) (s : HAServer t) : Prop :=
  s.service.members.config = c ∧ s.service.members.communicationState = k

variable {k : CommunicationState t}

section InContact

variable {query : Nat}

theorem unparkQuery_inContact : Keeps (InContact c k) (unparkQuery query) := by
  refine bind get fun s => bind (modify fun _ h => h) fun _ => ?_
  rcases (s.parkingLot.unpark query false).callback with _ | _ | resumed
  · exact pure ()
  · exact throw _
  · exact modify fun _ h => h

theorem inContact_toleratesCommit : ToleratesCommit (InContact c k) query := by
  refine ⟨fun lot resumed peer => modify fun d h => h, fun s h => h, fun rsp => ?_⟩
  refine ite (fun _ => bind get fun s => ?_) fun _ => pure ()
  cases s.parkingLot.park query query with
  | some lot => exact modify fun _ h => h
  | none => exact throw _

/-- The handler of a lease update notes what it means for the partner, and no more. -/
theorem leaseUpdateCompleted_inContact {update : LeaseUpdate} {success : Bool}
    (h : Steady s.service.members.communicationState) :
    InContact s.service.members.config
      (noted update success now s.service.members.communicationState)
      (after (leaseUpdateCompleted update success now) s) := by
  refine Post.after (P := InContact _ _) ?_
  refine .step rfl (.step (noteUpdate_run h) ?_)
  refine .step (run_get _) ?_
  -- nothing that follows touches the communication
  refine post (I := InContact _ _) ?_ ⟨rfl, rfl⟩
  split
  · exact bind unparkQuery_inContact fun _ => pure _
  refine bind (modify fun _ hs => hs) fun _ => ?_
  refine ite (fun _ => bind unparkQuery_inContact fun _ => ?_) fun _ => pure _
  exact bind (modify fun _ hs => hs) fun _ => pure _

end InContact

variable {rounds : List Outside}

/-- A happening that leaves the communication alone is no poke. -/
theorem Recorded.inContact {s' : HAServer t} (h : Recorded c start hist s.service)
    (hpoke : pokeOf o = none)
    (hcontact : InContact s.service.members.config s.service.members.communicationState s') :
    Recorded c start ((o, s) :: hist) s'.service := by
  obtain ⟨hconfig, hcomm⟩ := hcontact
  refine h.same hpoke hconfig ?_ (congrArg _ hcomm) (congrArg _ hcomm)
  exact hcomm.symm ▸ h.steady

/-- An answer to a heartbeat is a poke, and its failure is none. -/
theorem Recorded.heartbeat (h : Recorded c start hist s.service) (answer : HeartbeatAnswer) :
    Recorded c start ((.heartbeat answer now rounds, s) :: hist)
      (after (heartbeatCompleted answer now) s.service) := by
  obtain ⟨k, hrun, hheard⟩ := heartbeatCompleted_run answer now h.steady
  rw [after, hrun]
  cases hreported : reported answer with
  | some report =>
    obtain ⟨-, htime, hclients⟩ := hheard.success report.1 report.2 hreported
    refine .poked ?_ h.config hheard.steady htime hclients
    simp [pokeOf, hreported]
  | none =>
    obtain ⟨-, htime, hclients⟩ := hheard.failure hreported
    refine h.same ?_ rfl hheard.steady htime hclients
    simp [pokeOf, hreported]

/-- A lease update is a poke if it succeeds at the partner. -/
theorem Recorded.leaseUpdate (h : Recorded c start hist s.service) (update : LeaseUpdate)
    (success : Bool) :
    Recorded c start ((.leaseUpdate update success now rounds, s) :: hist)
      (after (leaseUpdateCompleted update success now) s).service := by
  obtain ⟨hconfig, hcomm⟩ : InContact _ (noted update success now _)
      (after (leaseUpdateCompleted update success now) s) :=
    leaseUpdateCompleted_inContact h.steady
  have hsteady := noted_steady update success now h.steady
  rw [← hcomm] at hsteady
  by_cases hpoke : update.peer.role ≠ .backup ∧ success = true
  · rw [noted, if_neg hpoke.1, if_pos hpoke.2] at hcomm
    have hsome : pokeOf (.leaseUpdate (t := t) update success now rounds) = some now := by
      simp only [pokeOf, if_pos hpoke]
    refine .poked hsome (hconfig.trans h.config) hsteady ?_ ?_
    · rw [hcomm]
    · rw [hcomm]
  · have hquiet : (noted update success now s.service.members.communicationState).pokeTime =
          s.service.members.communicationState.pokeTime ∧
        (noted update success now s.service.members.communicationState).unackedClients =
          s.service.members.communicationState.unackedClients := by
      unfold noted
      split
      · exact ⟨rfl, rfl⟩
      rename_i hrole
      rw [if_neg fun hsuccess => hpoke ⟨hrole, hsuccess⟩]
      exact ⟨rfl, rfl⟩
    refine h.same ?_ hconfig hsteady ?_ ?_
    · simp only [pokeOf, if_neg hpoke]
    · rw [hcomm, hquiet.1]
    · rw [hcomm, hquiet.2]

/-- A synchronization may find the partner unavailable, but is no poke. -/
theorem Recorded.synchronize (h : Recorded c start hist s.service) (serverName : String)
    (sync : SyncOutcome) :
    Recorded c start ((.haSync serverName sync, s) :: hist)
      (after (synchronize serverName sync) s.service) := by
  refine Post.after (P := Recorded c start _) ((synchronize_post).mono ?_ ?_)
  · rintro _ _ ⟨k, event, hk, rfl⟩
    exact h.same rfl rfl (hk.steady h.steady) hk.pokeTime hk.unackedClients
  · rintro _ _ rfl
    exact h.same rfl rfl h.steady rfl rfl

theorem after_onService {α : Type} {x : ServiceM t α} :
    (after (onService x) s).service = after x s.service := by
  rw [onService, after_zoom]

theorem begin_recorded (h : Recorded c start hist s.service) (o : Happening t) :
    Recorded c start ((o, s) :: hist) (begin o s).1.service := by
  have hcontact : InContact s.service.members.config s.service.members.communicationState s :=
    ⟨rfl, rfl⟩
  cases o with
  | start rounds =>
    refine h.inContact rfl ?_
    unfold begin
    dsimp only
    split <;> exact hcontact
  | heartbeat answer now rounds =>
    rw [begin_heartbeat, after_onService]
    exact h.heartbeat answer
  | leaseUpdate update success now rounds =>
    rw [begin_leaseUpdate]
    exact h.leaseUpdate update success
  | committed query leases deletedLeases rsp =>
    exact h.inContact rfl
      ((inContact_toleratesCommit).committed leases deletedLeases rsp s hcontact)
  | received query now =>
    refine after_onService (t := t) ▸ ?_
    exact h.received query
  | heartbeatTimer =>
    exact h.same rfl rfl ((heartbeatTimerExpired_kept).steady h.steady) rfl rfl
  | haSync serverName sync =>
    refine after_onService (t := t) ▸ ?_
    exact h.synchronize serverName sync
  | haScopes scopes =>
    have hkeeps : Keeps (InContact s.service.members.config s.service.members.communicationState)
        (onService (processScopes scopes)) :=
      onService_keeps (I := fun d => d.members.config = _ ∧ d.members.communicationState = _)
        (bind (zoom fun _ hs => hs) fun _ => modify fun _ hs => hs)
    exact h.inContact rfl (hkeeps s hcontact)
  | haContinue | dhcpDisable | dhcpEnable | enableTimer => exact h.inContact rfl hcontact

theorem step_recorded (hc : Complete c this partner) (hreturns : Returns o s)
    (h : Recorded c start hist s.service) :
    Recorded c start ((o, s) :: hist) (step o s).service := by
  have hbegin := begin_recorded h o
  rcases hreturns.cases with ⟨-, heq⟩ | ⟨event, rounds, d, -, hrun, heq⟩
  · rw [heq]
    exact hbegin
  have hrest := runModel_undisturbed (hbegin.config ▸ hc) hrun
  rw [heq]
  refine ⟨hrest.config.trans hbegin.config, hrest.contact.steady hbegin.steady,
    hrest.contact.pokeTime.trans hbegin.pokeTime, ?_, ?_⟩
  · rw [hrest.contact.unackedClients]
    exact hbegin.nodup
  · rw [hrest.contact.unackedClients]
    exact hbegin.clients

theorem Constructed.recorded (h : Constructed c s) :
    Recorded c s.service.members.communicationState.pokeTime [] s.service := by
  obtain ⟨-, f, networkState, now, rfl⟩ := h.built
  exact ⟨rfl, nofun, rfl, List.nodup_nil, nofun⟩

theorem elapsed_of_interrupted (h : k.isCommunicationInterrupted c now = true) :
    now - k.pokeTime > c.maxResponseDelay.toNat * 1000 := by
  have hlong : (now - k.pokeTime).tdiv 1000 > c.maxResponseDelay.toNat := by
    simpa [isCommunicationInterrupted,
      getDurationInMillisecs] using h
  by_cases hneg : 0 ≤ now - k.pokeTime
  · rw [Int.tdiv_eq_ediv_of_nonneg hneg] at hlong
    omega
  · have hnonneg : 0 ≤ (-(now - k.pokeTime)).tdiv 1000 := Int.tdiv_nonneg (by omega) (by omega)
    rw [Int.neg_tdiv] at hnonneg
    omega

/-- In the run that the happening leads to, the handler of a state is called. -/
def Handles (o : Happening t) (s : HAServer t) (state : HAState) (out : Outside) (d : HAService t) :
    Prop :=
  ∃ event rounds, (begin o s).2 = some (event, rounds) ∧
    Derived.Calls stateHandler rounds ((begin o s).1.service.withModel
      ((begin o s).1.service.model.postNextEvent event)) state out d

/--
**`PARTNER_DOWN` is entered only on evidence.** The partner was last recorded as unavailable, more
than `max-response-delay` milliseconds have passed since the last poke (times are in microseconds),
and a server that should see unanswered clients has seen more than `max-unacked-clients` of them
since, unless that number is 0.
-/
theorem partner_down_on_evidence (hs₀ : Constructed c s₀)
    (hs : Traces step (fun _ o s => Returns o s) s₀ hist s) {state : HAState} {out : Outside}
    {d d' : HAService t} (hhandles : Handles o s state out d)
    (hstate : state ≠ .partnerDown) (hrun : stateHandler state out d = .ok () d')
    (hdown : d'.model.currState = .derived .partnerDown) :
    d'.members.communicationState.partnerState = .unavailable ∧
    out.now - lastPoke s₀.service.members.communicationState.pokeTime ((o, s) :: hist) >
      c.maxResponseDelay.toNat * 1000 ∧ (d'.members.networkState.isServiceEnabled = true →
      (c.haMode = .loadBalancing ∨ ∃ this, c.getThisServerConfig = .ok this ∧ this.role = .standby) →
      c.maxUnackedClients = 0 ∨ ∃ clients : List t.Client, clients.Nodup ∧
        c.maxUnackedClients.toNat < clients.length ∧
        ∀ client ∈ clients, Unanswered c ((o, s) :: hist) client) := by
  obtain ⟨⟨this, partner, hc⟩, -⟩ := hs₀.built
  obtain ⟨event, rounds, -, hcall⟩ := hhandles
  have hrecorded : Recorded c s₀.service.members.communicationState.pokeTime hist s.service :=
    hs.inv (I := fun hist u => Recorded c _ hist u.service) hs₀.recorded
      fun _ _ _ h hreturns => step_recorded hc hreturns h
  have hbegun := begin_recorded hrecorded o
  -- the handlers before this one have not touched the record
  obtain ⟨hbefore, hcurr⟩ := hcall.inv (I := Undisturbed (begin o s).1.service) (fun s r d hd hs =>
    (stateHandler_undisturbed (hd.config ▸ hbegun.config ▸ hc) hs).mono
      (fun _ _ hnext _ => hd.trans hnext) fun _ _ _ => trivial) ⟨rfl, rfl, rfl, .refl _⟩
  have hconfig : d.members.config = c := hbefore.config.trans hbegun.config
  have hcomplete : Complete d.members.config this partner := hconfig ▸ hc
  have hconfig' : d'.members.config = c :=
    ((stateHandler_undisturbed hcomplete hcurr).ok hrun).config.trans hconfig
  obtain ⟨hlost, hinterrupted, hfailure⟩ :=
    stateHandler_partnerDown hcomplete hcurr hstate hrun hdown
  refine ⟨hlost, ?_, fun henabled hsees => ?_⟩
  · rw [← hbegun.pokeTime, ← hbefore.contact.pokeTime]
    refine elapsed_of_interrupted ?_
    rw [← hconfig']
    exact hinterrupted
  · have hsees' : d'.members.config.haMode = .loadBalancing ∨ this.role = .standby := by
      rw [hconfig']
      refine hsees.imp id ?_
      rintro ⟨server, hserver, hrole⟩
      rw [hc.this] at hserver
      rw [Except.ok.inj hserver]
      exact hrole
    have hdetected := hfailure henabled hsees'
    rw [hconfig'] at hdetected
    rcases Bool.or_eq_true_iff.mp hdetected with hzero | hmany
    · exact .inl (by simpa using hzero)
    refine .inr ⟨d.members.communicationState.unackedClients, ?_, by simpa using hmany, ?_⟩
    · rw [hbefore.contact.unackedClients]
      exact hbegun.nodup
    · rw [hbefore.contact.unackedClients]
      exact hbegun.clients

namespace Sample

/-- A configuration that puts up with one unanswered client. -/
def impatient : HAConfig := { balanced with maxUnackedClients := 1 }

def quiet (now : Int) : Outside := ⟨now, ⟨"", "", ""⟩⟩

/-- The query of a client that has been waiting for 20 seconds. -/
def waitingQuery (n : UInt8) : Query4 := { clientId := none, hwaddr := some ⟨1, [n]⟩, secs := 20 }

/-- The partner answers, and the server goes on to `LOAD_BALANCING`. -/
def answered : Happening .dhcpv4 :=
  .heartbeat (.arguments (some "load-balancing") (some (some 1))) 1000000
    [quiet 1000000, quiet 1000000, quiet 1000000, quiet 1000000]

/-- More than a minute later there is no answer. -/
def lost : Happening .dhcpv4 := .heartbeat .failed 70000000 [quiet 70000000, quiet 70000000]

end Sample

open Sample in
/--
A server that balances the load with its partner does not hear of it for more than a minute, and sees
two of its clients unanswered.
-/
theorem partner_down_sample : ∃ (s₀ s : HAServer .dhcpv4) (hist : List (Happening .dhcpv4 × _))
    (d d' : HAService .dhcpv4), Constructed impatient s₀ ∧
    Traces step (fun _ o s => Returns o s) s₀ hist s ∧
    Handles lost s .loadBalancing (quiet 70000000) d ∧
    stateHandler .loadBalancing (quiet 70000000) d = .ok () d' ∧
    d'.model.currState = .derived .partnerDown ∧
    d'.members.networkState.isServiceEnabled = true ∧
    ∃ clients : List HAServerType.dhcpv4.Client, clients.Nodup ∧ 1 < clients.length ∧
      ∀ client ∈ clients, Unanswered impatient ((lost, s) :: hist) client := by
  obtain ⟨d₀, hd₀⟩ : ∃ d, construct .dhcpv4 impatient .fresh 0 = .ok d := ⟨_, rfl⟩
  have hs₀ : Constructed impatient (⟨d₀, [], []⟩ : HAServer .dhcpv4) := ⟨⟨_, _, hd₀⟩, rfl, rfl⟩
  obtain ⟨s₁, hs₁⟩ : ∃ s, s = step (.start [quiet 0]) (⟨d₀, [], []⟩ : HAServer .dhcpv4) := ⟨_, rfl⟩
  obtain ⟨s₂, hs₂⟩ : ∃ s, s = step answered s₁ := ⟨_, rfl⟩
  obtain ⟨s, hs⟩ : ∃ s, s = step (.received (waitingQuery 13) 66000000)
    (step (.received (waitingQuery 4) 65000000) s₂) := ⟨_, rfl⟩
  obtain ⟨d, hd⟩ : ∃ d, d = (begin lost s).1.service.withModel
    ((begin lost s).1.service.model.postNextEvent (.derived .heartbeatComplete)) := ⟨_, rfl⟩
  have hreturns : Returns (.start [quiet 0]) (⟨d₀, [], []⟩ : HAServer .dhcpv4) ∧
      Returns answered s₁ := by
    cases hd₀
    subst hs₁
    decide +kernel
  have hevent : (begin lost s).2 = some (.derived .heartbeatComplete, [quiet 70000000, quiet 70000000]) ∧
      d.model.currState = .derived .loadBalancing := by
    cases hd₀
    subst hs₁ hs₂ hs hd
    decide +kernel
  have hdown : (match stateHandler .loadBalancing (quiet 70000000) d with
      | .ok _ d' => decide (d'.model.currState = .derived .partnerDown ∧
          d'.members.networkState.isServiceEnabled = true)
      | .error _ _ => false) = true := by
    cases hd₀
    subst hs₁ hs₂ hs hd
    decide +kernel
  cases hrun : stateHandler .loadBalancing (quiet 70000000) d with
  | error e d' =>
    rw [hrun] at hdown
    cases hdown
  | ok u d' =>
    rw [hrun] at hdown
    obtain ⟨hdown, henabled⟩ := of_decide_eq_true hdown
    have hhandles : Handles lost s .loadBalancing (quiet 70000000) d :=
      ⟨_, _, hevent.1, hd ▸ .here (hd ▸ hevent.2)⟩
    obtain ⟨hist, htraces⟩ : ∃ hist, Traces step (fun _ o s => Returns o s)
        (⟨d₀, [], []⟩ : HAServer .dhcpv4) hist s := by
      subst hs hs₂ hs₁
      exact ⟨_, .next (.received (waitingQuery 13) 66000000)
        (.next (.received (waitingQuery 4) 65000000)
          (.next answered (.next (.start [quiet 0]) .start hreturns.1) hreturns.2) nofun) nofun⟩
    obtain ⟨-, -, hclients⟩ := partner_down_on_evidence hs₀ htraces hhandles (by decide) hrun hdown
    rcases hclients henabled (.inl rfl) with hzero | hclients
    · exact absurd hzero (by decide)
    · exact ⟨_, _, _, d, d', hs₀, htraces, hhandles, hrun, hdown, henabled, hclients⟩

end HAServer

end Ha
