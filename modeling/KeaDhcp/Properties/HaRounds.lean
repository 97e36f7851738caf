import KeaDhcp.Properties.LoadBalancing
import KeaDhcp.Ha.HaService

/-!
# One round of the state machine of the service

What the handler of a state can do, said once for all eight handlers: on entry it sets the scopes and
the network state, and then it rests or goes to another state.
-/

namespace Ha

open Infra Util Dhcp QueryFilter CommunicationState List

/-! ## This server and its partner -/

namespace HAConfig

variable {c : HAConfig}

theorem validate_hotStandby (hmode : c.haMode = .hotStandby) (h : c.validate = .ok ()) :
    c.hasPeer c.thisServerName ∧ c.countRole .primary = 1 ∧ c.countRole .standby = 1 := by
  unfold validate at h
  rw [hmode] at h
  simp only [refuseIf_bind_eq_ok_iff, refuseIf_eq_ok_iff, Bool.not_eq_false',
    decide_eq_false_iff_not, Option.isSome_eq_false_iff] at h
  obtain ⟨hthis, -, hroles⟩ := h
  exact ⟨hthis, by omega, by omega⟩

/-- Both modes have a primary server and another one that is no backup. -/
theorem exists_active_pair (h : c.validate = .ok ()) :
    c.hasPeer c.thisServerName ∧ ∃ e₁ ∈ c.peers, ∃ e₂ ∈ c.peers, e₁.2.role = .primary ∧
      (e₂.2.role = .secondary ∨ e₂.2.role = .standby) := by
  cases hmode : c.haMode with
  | loadBalancing =>
    obtain ⟨hthis, -, hprimary, hsecondary, -⟩ := (validate_eq_ok_iff hmode).mp h
    obtain ⟨e₁, he₁, hrole₁⟩ := exists_of_countRole hprimary
    obtain ⟨e₂, he₂, hrole₂⟩ := exists_of_countRole hsecondary
    exact ⟨hthis, e₁, he₁, e₂, he₂, hrole₁, .inl hrole₂⟩
  | hotStandby =>
    obtain ⟨hthis, hprimary, hstandby⟩ := validate_hotStandby hmode h
    obtain ⟨e₁, he₁, hrole₁⟩ := exists_of_countRole hprimary
    obtain ⟨e₂, he₂, hrole₂⟩ := exists_of_countRole hstandby
    exact ⟨hthis, e₁, he₁, e₂, he₂, hrole₁, .inr hrole₂⟩

/-- This server and its partner can be looked up. -/
structure Complete (c : HAConfig) (this partner : PeerConfig) : Prop where
  this : c.getThisServerConfig = .ok this
  partner : c.getFailoverPeerConfig = .ok partner

/-- A valid configuration has this server and a partner for it. -/
theorem complete_of_validate (h : c.validate = .ok ()) : ∃ this partner, Complete c this partner := by
  obtain ⟨hthis, e₁, he₁, e₂, he₂, hrole₁, hrole₂⟩ := exists_active_pair h
  have hfound : ∃ this, c.getThisServerConfig = .ok this := by
    obtain ⟨e, he, hname⟩ := any_eq_true.mp hthis
    unfold getThisServerConfig getPeerConfig
    cases hfind : c.peers.find? (·.1 = c.thisServerName) with
    | none => exact absurd hname (find?_eq_none.mp hfind e he)
    | some e' => exact ⟨e'.2, rfl⟩
  have hother : ∃ partner, c.getFailoverPeerConfig = .ok partner := by
    -- two entries with different roles have different keys, so one of them is not this server
    have hne : e₁.1 ≠ e₂.1 := by
      intro hkey
      rw [inj_on_of_nodup_map c.keys_nodup he₁ he₂ hkey] at hrole₁
      rw [hrole₁] at hrole₂
      rcases hrole₂ with h | h <;> cases h
    have hmem : ∃ e ∈ c.getOtherServersConfig, e.2.role ≠ .backup := by
      by_cases hkey : e₁.1 = c.thisServerName
      · refine ⟨e₂, mem_filter.mpr ⟨he₂, ?_⟩, ?_⟩
        · exact decide_eq_true fun hkey₂ => hne (hkey.trans hkey₂.symm)
        · rcases hrole₂ with h | h <;> rw [h] <;> decide
      · refine ⟨e₁, mem_filter.mpr ⟨he₁, decide_eq_true hkey⟩, ?_⟩
        rw [hrole₁]
        decide
    obtain ⟨e, he, hrole⟩ := hmem
    unfold getFailoverPeerConfig
    cases hfind : c.getOtherServersConfig.find? (·.2.role ≠ .backup) with
    | none => exact absurd (decide_eq_true hrole) (find?_eq_none.mp hfind e he)
    | some e' => exact ⟨e'.2, rfl⟩
  obtain ⟨this, hthis⟩ := hfound
  obtain ⟨partner, hpartner⟩ := hother
  exact ⟨this, partner, hthis, hpartner⟩

end HAConfig

/-! ## The steps of the handlers -/

namespace HAService

open HAConfig

variable {t : HAServerType} {d d' : HAService t} {this partner : PeerConfig}

/-- The service with another model. -/
def withModel (d : HAService t) (m : StateModel HAState HAEvent) : HAService t :=
  { d with model := m }

/-- The service with another state of the communication. -/
def withComm (d : HAService t) (c : CommunicationState t) : HAService t :=
  { d with members := { d.members with communicationState := c } }

theorem postNextEvent_run {event : ModelEvent HAEvent} :
    postNextEvent event d = .ok () (d.withModel (d.model.postNextEvent event)) := rfl

theorem getThisServerConfig_run (h : Complete d.members.config this partner) :
    getThisServerConfig d = .ok this d := by
  unfold getThisServerConfig
  rw [run_bind_ok (run_get d), h.this]
  rfl

theorem ofExcept_ok_run {α : Type} {x : Except HAError α} {a : α} (h : x = .ok a) :
    ofExcept x d = .ok a d := by
  rw [h]
  rfl

theorem shouldSendLeaseUpdates_run (h : Complete d.members.config this partner) (peer : PeerConfig) :
    ∃ b, shouldSendLeaseUpdates peer d = .ok b d := by
  unfold shouldSendLeaseUpdates
  rw [run_bind_ok (run_get d)]
  split
  · exact ⟨_, rfl⟩
  split
  · exact ⟨_, rfl⟩
  · rw [run_bind_ok (getThisServerConfig_run h)]
    split <;> exact ⟨_, rfl⟩

theorem verboseTransition_run (h : Complete d.members.config this partner) {state : HAState} :
    verboseTransition state d =
      .ok () (d.withModel (d.model.transition (.derived state) d.model.nextEvent)) := by
  let d₁ := d.withModel (d.model.transition (.derived state) d.model.nextEvent)
  have h₁ : Complete d₁.members.config this partner := h
  have hmove : modifyModel (fun m => m.transition (.derived state) m.nextEvent) d = .ok () d₁ := rfl
  unfold verboseTransition
  rw [run_bind_ok hmove, run_bind_ok (getThisServerConfig_run h₁)]
  by_cases hrole : this.role = .backup
  · simp [hrole, d₁]
  obtain ⟨b, hsend⟩ := shouldSendLeaseUpdates_run h₁ partner
  simp only [hrole, ne_eq, not_false_eq_true, if_true]
  rw [run_bind_ok (run_get d₁), run_bind_ok (ofExcept_ok_run h₁.partner), run_bind_ok hsend]
  rfl

theorem shouldTerminate_run :
    shouldTerminate d = .ok d.members.communicationState.clockSkewShouldTerminate d := rfl

/-- The partner seems to be down. -/
def PartnerSeemsDown (this : PeerConfig) (now : Int) (d : HAService t) : Prop :=
  d.members.communicationState.isCommunicationInterrupted d.members.config now ∧
    (d.members.networkState.isServiceEnabled →
      d.members.config.haMode = .loadBalancing ∨ this.role = .standby →
      d.members.communicationState.failureDetected d.members.config)

variable {now : Int}

/-- The partner counts as down only on evidence. -/
theorem shouldPartnerDown_run (h : Complete d.members.config this partner) :
    ∃ b : Bool, shouldPartnerDown now d = .ok b d ∧ (b → PartnerSeemsDown this now d) := by
  unfold shouldPartnerDown PartnerSeemsDown
  rw [run_bind_ok (run_get d)]
  by_cases hlost : d.members.communicationState.isCommunicationInterrupted d.members.config now
  · rw [if_pos hlost, run_bind_ok (getThisServerConfig_run h)]
    by_cases hcheck : d.members.networkState.isServiceEnabled &&
        (decide (d.members.config.haMode = .loadBalancing) || decide (this.role = .standby))
    · rw [if_pos hcheck]
      exact ⟨_, rfl, fun hb => ⟨hlost, fun _ _ => hb⟩⟩
    · rw [if_neg hcheck]
      refine ⟨true, rfl, fun _ => ⟨hlost, fun hon hwho => absurd ?_ hcheck⟩⟩
      simpa [hon] using hwho
  · rw [if_neg hlost]
    exact ⟨false, rfl, fun hb => absurd hb Bool.false_ne_true⟩

/-- A heartbeat that is running can be started again with its own settings. -/
def Steady (c : CommunicationState t) : Prop :=
  c.timer.isSome = true → c.heartbeatImpl = true ∧ c.interval ≠ 0

/-- The communication is the same but for the heartbeat timer. -/
structure TimerOnly (c c' : CommunicationState t) : Prop where
  only : ∃ timer interval heartbeatImpl,
    c' = { c with timer := timer, interval := interval, heartbeatImpl := heartbeatImpl }
  steady : Steady c → Steady c'

theorem TimerOnly.refl (c : CommunicationState t) : TimerOnly c c := ⟨⟨_, _, _, rfl⟩, id⟩

variable {c' c : CommunicationState t}

theorem TimerOnly.partnerState (h : TimerOnly c c') : c'.partnerState = c.partnerState := by
  obtain ⟨⟨_, _, _, rfl⟩, -⟩ := h
  rfl

theorem startHeartbeatInternal_run {n : Nat} (hn : n ≠ 0) :
    ∃ c', startHeartbeatInternal n true c = .ok () c' ∧ TimerOnly c c' := by
  refine ⟨{ c with heartbeatImpl := true, interval := n, timer := some ⟨n, true⟩ }, ?_,
    ⟨_, _, _, rfl⟩, fun _ _ => ⟨rfl, hn⟩⟩
  simp [startHeartbeatInternal, hn]

theorem startHeartbeat_run :
    ∃ c, startHeartbeat d = .ok () (d.withComm c) ∧ TimerOnly d.members.communicationState c := by
  unfold startHeartbeat
  rw [run_bind_ok (run_get d)]
  by_cases hdelay : d.members.config.heartbeatDelay > 0
  · have hn : d.members.config.heartbeatDelay.toNat ≠ 0 := by
      have hlt : 0 < d.members.config.heartbeatDelay.toNat := UInt32.lt_iff_toNat_lt.mp hdelay
      omega
    obtain ⟨c', hrun, honly⟩ := startHeartbeatInternal_run hn
    rw [if_pos hdelay]
    refine ⟨c', ?_, honly⟩
    unfold comm
    rw [run_zoom, hrun]
    rfl
  · rw [if_neg hdelay]
    exact ⟨_, rfl, .refl _⟩

theorem scheduleHeartbeat_run (d : HAService t) :
    ∃ c, scheduleHeartbeat d = .ok () (d.withComm c) ∧
      TimerOnly d.members.communicationState c := by
  unfold scheduleHeartbeat
  rw [run_bind_ok (run_get d)]
  by_cases hrunning : d.members.communicationState.isHeartbeatRunning
  · rw [hrunning]
    exact ⟨_, rfl, .refl _⟩
  · rw [if_pos (by simpa using hrunning)]
    exact startHeartbeat_run

/-! ## After the entry -/

/-- What the handlers may change of the communication: a synchronization can lose the partner. -/
structure SameContact (c c' : CommunicationState t) : Prop where
  pokeTime : c'.pokeTime = c.pokeTime
  unackedClients : c'.unackedClients = c.unackedClients
  clockSkew : c'.clockSkew = c.clockSkew
  partnerState : c'.partnerState = c.partnerState ∨ c'.partnerState = .unavailable
  steady : Steady c → Steady c'

theorem SameContact.refl (c : CommunicationState t) : SameContact c c :=
  ⟨rfl, rfl, rfl, .inl rfl, id⟩

theorem SameContact.trans {c'' : CommunicationState t} (h : SameContact c c')
    (h' : SameContact c' c'') : SameContact c c'' := by
  refine ⟨h'.pokeTime.trans h.pokeTime, h'.unackedClients.trans h.unackedClients,
    h'.clockSkew.trans h.clockSkew, ?_, fun hc => h'.steady (h.steady hc)⟩
  rcases h'.partnerState with heq | hlost
  · rw [heq]
    exact h.partnerState
  · exact .inr hlost

theorem TimerOnly.sameContact (h : TimerOnly c c') : SameContact c c' := by
  obtain ⟨⟨_, _, _, rfl⟩, hsteady⟩ := h
  exact ⟨rfl, rfl, rfl, .inl rfl, hsteady⟩

/-- Nothing but the model and the communication has changed. -/
structure Framed (d d' : HAService t) : Prop where
  members : d'.members =
    { d.members with communicationState := d'.members.communicationState }
  contact : SameContact d.members.communicationState d'.members.communicationState

/-- The model waits for the next event. -/
structure Rests (d d' : HAService t) : Prop where
  currState : d'.model.currState = d.model.currState
  onEntryFlag : d'.model.onEntryFlag = d.model.onEntryFlag
  nextEvent : d'.model.nextEvent = .nop

/--
The model has gone from `s` to another state, and its event is there again. It never leaves `BACKUP`
and `TERMINATED`, goes to `PARTNER_DOWN` only if the partner seems down, and as a backup leaves
`WAITING` only for `BACKUP`.
-/
structure Moves (this : PeerConfig) (s : HAState) (out : Outside) (d d' : HAService t)
    (s' : HAState) : Prop where
  leaves : s ≠ .backup ∧ s ≠ .terminated
  ne : s' ≠ s
  currState : d'.model.currState = .derived s'
  onEntryFlag : d'.model.onEntryFlag = true
  nextEvent : d.model.nextEvent ≠ .nop → d'.model.nextEvent ≠ .nop
  partnerDown : s' = .partnerDown →
    d.members.communicationState.partnerState = .unavailable ∧ PartnerSeemsDown this out.now d
  backup : this.role = .backup → s = .waiting → s' = .backup

/-- What a handler does once the state has been entered. -/
structure Proceeds (this : PeerConfig) (s : HAState) (out : Outside) (d d' : HAService t) : Prop
    extends Framed d d' where
  next : Rests d d' ∨ ∃ s', Moves this s out d d' s'

/-- A server in a state that it may leave. -/
structure MayLeave (d : HAService t) (this partner : PeerConfig) (s : HAState) : Prop where
  complete : Complete d.members.config this partner
  currState : d.model.currState = .derived s
  leaves : s ≠ .backup ∧ s ≠ .terminated
  backup : this.role = .backup → s ≠ .waiting

variable {E : HAError → HAService t → Prop} {rest : ServiceM t Unit}

section Proceed

variable {s s' : HAState} {out : Outside}

/-- The steps `x` of a handler, from `d₁` on. -/
abbrev Goes (this : PeerConfig) (s : HAState) (out : Outside) (d : HAService t) (x : ServiceM t Unit)
    (d₁ : HAService t) (E : HAError → HAService t → Prop) : Prop :=
  Post x d₁ (fun _ d' => Proceeds this s out d d') E

theorem PartnerSeemsDown.of_timerOnly (hc : TimerOnly d.members.communicationState c)
    (h : PartnerSeemsDown this now (d.withComm c)) : PartnerSeemsDown this now d := by
  obtain ⟨⟨_, _, _, rfl⟩, -⟩ := hc
  exact h

section

variable (hc : SameContact d.members.communicationState c)

include hc

theorem rest_proceeds : Goes this s out d (postNextEvent .nop) (d.withComm c) E :=
  .of_ok postNextEvent_run ⟨⟨rfl, hc⟩, .inl ⟨rfl, rfl, rfl⟩⟩

/-- A transition to another state. -/
theorem move_proceeds (h : Complete d.members.config this partner)
    (hs : d.model.currState = .derived s) (hleaves : s ≠ .backup ∧ s ≠ .terminated) (hne : s' ≠ s)
    (hdown : s' = .partnerDown →
      d.members.communicationState.partnerState = .unavailable ∧ PartnerSeemsDown this out.now d)
    (hbackup : this.role = .backup → s = .waiting → s' = .backup) :
    Goes this s out d (verboseTransition s') (d.withComm c) E := by
  have h' : Complete (d.withComm c).members.config this partner := h
  have hcurr : (d.withComm c).model.currState = .derived s := hs
  refine .of_ok (verboseTransition_run h')
    ⟨⟨rfl, hc⟩, .inr ⟨s', hleaves, hne, ?_, ?_, id, hdown, hbackup⟩⟩
  · simp [withModel]
  · simp [withModel, hcurr, hne.symm]

/-- A move to another state than `PARTNER_DOWN`. -/
theorem go_proceeds (h : d.MayLeave this partner s) (hne : s' ≠ s) (hdown : s' ≠ .partnerDown) :
    Goes this s out d (verboseTransition s') (d.withComm c) E :=
  move_proceeds hc h.complete h.currState h.leaves hne (fun heq => absurd heq hdown)
    fun hrole hwait => absurd hwait (h.backup hrole)

end

theorem partnerDownOrNop_proceeds (h : d.MayLeave this partner s)
    (hc : TimerOnly d.members.communicationState c) (hne : s ≠ .partnerDown)
    (hlost : c.partnerState = .unavailable) :
    Goes this s out d (partnerDownOrNop out.now) (d.withComm c) E := by
  have h' : Complete (d.withComm c).members.config this partner := h.complete
  obtain ⟨b, hrun, hdown⟩ := shouldPartnerDown_run h'
  refine .step hrun ?_
  cases b with
  | true =>
    exact move_proceeds hc.sameContact h.complete h.currState h.leaves hne.symm
      (fun _ => ⟨hc.partnerState.symm.trans hlost, (hdown rfl).of_timerOnly hc⟩)
        fun hrole hwait => absurd hwait (h.backup hrole)
  | false => exact rest_proceeds hc.sameContact

section

variable (hc : SameContact d.members.communicationState c)
  (hrest : Goes this s out d rest (d.withComm c) E)

include hc hrest

theorem paused_proceeds :
    Goes this s out d (do if (← get).model.paused then postNextEvent .nop else rest)
      (d.withComm c) E := by
  refine .step (run_get _) ?_
  by_cases hpaused : (d.withComm c).model.paused
  · rw [if_pos hpaused]
    exact rest_proceeds hc
  · rw [if_neg hpaused]
    exact hrest

theorem terminate_proceeds (h : d.MayLeave this partner s) :
    Goes this s out d (do if ← shouldTerminate then verboseTransition .terminated else rest)
      (d.withComm c) E := by
  refine .step shouldTerminate_run ?_
  cases (d.withComm c).members.communicationState.clockSkewShouldTerminate with
  | true => exact go_proceeds hc h h.leaves.2.symm (by decide)
  | false => exact hrest

end

/-- The handlers that look at the partner's state with the heartbeat scheduled. -/
theorem beating_proceeds {rest : HAService t → ServiceM t Unit} (h : d.MayLeave this partner s)
    (hrest : ∀ c, TimerOnly d.members.communicationState c →
      Goes this s out d (rest (d.withComm c)) (d.withComm c) E) :
    Goes this s out d (do
      scheduleHeartbeat
      if (← get).model.paused then
        postNextEvent .nop
      else if ← shouldTerminate then
        verboseTransition .terminated
      else
        rest (← get)) d E := by
  obtain ⟨c, hbeat, hc⟩ := scheduleHeartbeat_run d
  refine .step hbeat (paused_proceeds hc.sameContact ?_)
  refine terminate_proceeds hc.sameContact ?_ h
  exact .step (run_get _) (hrest c hc)

end Proceed

/-! ## The entry -/

/-- The service when a state has just been entered. -/
def entering (d : HAService t) (f : QueryFilter) : HAService t :=
  { model := d.model.entered
    members := { d.members with
      queryFilter := f, networkState := adjusted d.model.currState d.members.networkState } }

/-- The entry of a state: if it is a first round, the scopes and the network state are set. -/
inductive Entered (serve : FilterM Unit) (d d₁ : HAService t) : Prop
  | again (hflag : d.model.onEntryFlag = false) (heq : d₁ = d)
  | first (hflag : d.model.onEntryFlag = true) {f : QueryFilter}
      (hserve : serve d.members.queryFilter = .ok () f) (heq : d₁ = d.entering f)

/-- The scopes cannot be served. -/
def Refused (serve : FilterM Unit) (d d₁ : HAService t) : Prop :=
  d.model.onEntryFlag = true ∧ ∃ e f, serve d.members.queryFilter = .error e f ∧
    d₁ = { model := d.model.entered, members := { d.members with queryFilter := f } }

variable {serve : FilterM Unit}

theorem filter_post :
    Post (filter serve) d
      (fun _ d' => ∃ f, serve d.members.queryFilter = .ok () f ∧
        d' = { d with members := { d.members with queryFilter := f } })
      fun e d' => ∃ f, serve d.members.queryFilter = .error e f ∧
        d' = { d with members := { d.members with queryFilter := f } } := by
  unfold Post filter
  rw [run_zoom]
  cases serve d.members.queryFilter with
  | ok u f => exact ⟨f, rfl, rfl⟩
  | error e f => exact ⟨f, rfl, rfl⟩

variable {action : ServiceM t Unit}

/-- The entry sets the scopes once. -/
theorem onEntry_post
    (haction : action (d.withModel d.model.entered) = filter serve (d.withModel d.model.entered)) :
    Post (onEntry action) d (fun _ d₁ => Entered serve d d₁) fun _ d₁ => Refused serve d d₁ := by
  have hentry : doOnEntry d = .ok d.model.onEntryFlag (d.withModel d.model.entered) := rfl
  refine .step hentry ?_
  cases hflag : d.model.onEntryFlag with
  | false =>
    refine .pure (.again hflag ?_)
    obtain ⟨m, members⟩ := d
    simp [withModel, StateModel.entered, ← hflag]
  | true =>
    refine .bind (.intro (fun _ _ hrun => ?_) fun e _ hrun => ?_) <;> rw [haction] at hrun
    · obtain ⟨f, hserve, rfl⟩ := filter_post.ok hrun
      exact .of_ok rfl (.first hflag hserve rfl)
    · obtain ⟨f, hserve, rfl⟩ := filter_post.error hrun
      exact ⟨hflag, e, f, hserve, rfl⟩

variable {d₁ : HAService t}

theorem Entered.frame (h : Entered serve d d₁) :
    d₁.members.config = d.members.config ∧ d₁.model.currState = d.model.currState ∧
      d₁.model.onEntryFlag = false ∧ d₁.model.nextEvent = d.model.nextEvent := by
  cases h with
  | again hflag heq =>
    subst heq
    exact ⟨rfl, rfl, hflag, rfl⟩
  | first hflag hserve heq =>
    subst heq
    exact ⟨rfl, rfl, rfl, rfl⟩

/-! ## The handlers -/

/-- The scopes that a server serves in a state. -/
def scopesFor (this : PeerConfig) : HAState → FilterM Unit
  | .backup | .ready | .syncing | .waiting => serveNoScopes
  | .hotStandby | .loadBalancing | .terminated => serveDefaultScopes
  | .partnerDown => if this.autoFailover then serveFailoverScopes else serveDefaultScopes

/-- A round of the handler of a state. -/
def Round (this : PeerConfig) (s : HAState) (out : Outside) (d d' : HAService t) : Prop :=
  ∃ d₁, Entered (scopesFor this s) d d₁ ∧ Proceeds this s out d₁ d'

/-- A round that throws: the scopes are refused, or a synchronization finds no partner. -/
def Fails (this : PeerConfig) (s : HAState) (d d' : HAService t) : Prop :=
  Refused (scopesFor this s) d d' ∨
    s = .syncing ∧ ∃ d₁, Entered (scopesFor this s) d d₁ ∧ Framed d₁ d'

section Handlers

variable {s : HAState} {out : Outside}

abbrev Rounds (this : PeerConfig) (s : HAState) (out : Outside) (d : HAService t)
    (x : ServiceM t Unit) : Prop :=
  Post x d (fun _ d' => Round this s out d d') fun _ d' => Fails this s d d'

variable (config : HAConfig) {sync : SyncOutcome} {serverName : String}

theorem normalState_cases :
    normalState config = .loadBalancing ∨ normalState config = .hotStandby := by
  unfold normalState
  cases config.haMode with
  | loadBalancing => exact .inl rfl
  | hotStandby => exact .inr rfl

/-- A server goes on to normal operation. -/
theorem goNormal_proceeds (h : d.MayLeave this partner s)
    (hc : SameContact d.members.communicationState c) (hne : s ≠ .loadBalancing ∧ s ≠ .hotStandby) :
    Goes this s out d (do verboseTransition (normalState (← get).members.config))
      (d.withComm c) E := by
  refine .step (run_get _) ?_
  rcases normalState_cases (d.withComm c).members.config with hn | hn <;> rw [hn]
  · exact go_proceeds hc h hne.1.symm (by decide)
  · exact go_proceeds hc h hne.2.symm (by decide)

theorem stopHeartbeat_timerOnly (c : CommunicationState t) : TimerOnly c c.stopHeartbeat := by
  unfold stopHeartbeat
  split
  · exact ⟨⟨_, _, _, rfl⟩, nofun⟩
  · exact .refl c

theorem Proceeds.withComm (h : Proceeds this s out d d')
    (hc : SameContact d'.members.communicationState c) : Proceeds this s out d (d'.withComm c) := by
  refine ⟨⟨?_, h.contact.trans hc⟩, ?_⟩
  · show { d'.members with communicationState := c } = _
    rw [h.members]
    rfl
  · rcases h.next with hrest | ⟨s', hmove⟩
    · exact .inl ⟨hrest.currState, hrest.onEntryFlag, hrest.nextEvent⟩
    · exact .inr ⟨s', hmove.leaves, hmove.ne, hmove.currState, hmove.onEntryFlag, hmove.nextEvent,
        hmove.partnerDown, hmove.backup⟩

theorem scheduleHeartbeat_proceeds {x : ServiceM t Unit}
    (h : Goes this s out d x d₁ fun _ d' => s = .syncing ∧ Framed d d') :
    Goes this s out d (do x; scheduleHeartbeat) d₁ fun _ d' => s = .syncing ∧ Framed d d' := by
  refine .seq h fun _ d₂ hproceeds => ?_
  obtain ⟨c, hbeat, hc⟩ := scheduleHeartbeat_run d₂
  exact .of_ok hbeat (hproceeds.withComm hc.sameContact)

/-- The three requests touch the communication only, whatever comes of them. -/
theorem exchange_post :
    Post (exchange serverName sync) d
      (fun _ d' => ∃ c, SameContact d.members.communicationState c ∧ d' = d.withComm c)
      fun _ d' => d' = d := by
  have hlose : ∀ c, SameContact d.members.communicationState c →
      SameContact d.members.communicationState c.setUnavailable :=
    fun c hc => hc.trans ⟨rfl, rfl, rfl, .inr rfl, id⟩
  have hsame : SameContact d.members.communicationState d.members.communicationState := .refl _
  refine .step (run_get d) (.bind ?_)
  cases d.members.config.getPeerConfig serverName with
  | error e => exact .of_error rfl rfl
  | ok peer =>
    by_cases hdisable : sync.disable = ""
    · simp only [hdisable, ne_eq, not_true_eq_false]
      refine .step (run_get d) (.bind ?_)
      cases d.members.config.getFailoverPeerConfig with
      | error e => exact .of_error rfl rfl
      | ok partner =>
        by_cases hleases : sync.leases = "" <;> by_cases henable : sync.enable = "" <;>
          simp only [hleases, henable, not_true_eq_false, not_false_eq_true]
        · exact .pure ⟨_, hsame, rfl⟩
        · exact .of_ok rfl ⟨_, hlose _ hsame, rfl⟩
        · exact .of_ok rfl ⟨_, hlose _ hsame, rfl⟩
        · exact .of_ok rfl ⟨_, hlose _ (hlose _ hsame), rfl⟩
    · simp only [hdisable, ne_eq, not_false_eq_true]
      exact .of_ok rfl ⟨_, hlose _ hsame, rfl⟩

theorem synchronize_post :
    Post (synchronize serverName sync) d
      (fun _ d' => ∃ c event, SameContact d.members.communicationState c ∧
        d' = (d.withComm c).withModel (d.model.postNextEvent (.derived event)))
      fun _ d' => d' = d := by
  refine .seq (exchange_post) ?_
  rintro message _ ⟨c, hc, rfl⟩
  by_cases hmessage : message = ""
  · simp only [hmessage, ne_eq, not_true_eq_false]
    exact .of_ok rfl ⟨c, _, hc, rfl⟩
  · simp only [hmessage, ne_eq, not_false_eq_true]
    exact .of_ok rfl ⟨c, _, hc, rfl⟩

theorem syncingOrReady_cases :
    syncingOrReady config = .syncing ∨ syncingOrReady config = .ready := by
  unfold syncingOrReady
  cases config.syncLeases with
  | true => exact .inl rfl
  | false => exact .inr rfl

/-- A server that is no backup goes on from `WAITING`. -/
theorem leaveWaiting_proceeds (h : d.MayLeave this partner .waiting)
    (hc : SameContact d.members.communicationState c) :
    Goes this .waiting out d (do verboseTransition (syncingOrReady (← get).members.config))
      (d.withComm c) E := by
  refine .step (run_get _) ?_
  have hcases := syncingOrReady_cases (d.withComm c).members.config
  refine go_proceeds hc h ?_ ?_
  all_goals rcases hcases with hn | hn <;> rw [hn] <;> decide

/-- `TERMINATED` rests. -/
theorem terminatedStateHandler_round : Rounds this .terminated out d terminatedStateHandler := by
  have hentry : doOnEntry d = .ok d.model.onEntryFlag (d.withModel d.model.entered) := rfl
  refine .step hentry ?_
  cases hflag : d.model.onEntryFlag with
  | false =>
    have hrest : Rests d ((d.withModel d.model.entered).withModel
        (d.model.entered.postNextEvent .nop)) := ⟨rfl, hflag.symm, rfl⟩
    exact .of_ok postNextEvent_run ⟨d, .again hflag rfl, ⟨rfl, .refl _⟩, .inl hrest⟩
  | true =>
    refine .bind (filter_post.mono ?_ ?_)
    · rintro _ _ ⟨f, hserve, rfl⟩
      refine .of_ok rfl ⟨d.entering f, .first hflag hserve rfl, ⟨rfl, ?_⟩, .inl ⟨rfl, rfl, rfl⟩⟩
      exact (stopHeartbeat_timerOnly _).sameContact
    · rintro e _ ⟨f, hserve, rfl⟩
      exact .inl ⟨hflag, e, f, hserve, rfl⟩

variable (h : Complete d.members.config this partner)
include h

/-- A handler that sets the scopes on entry and then proceeds. -/
theorem round_of_entry (hs : d.model.currState = .derived s) (hserve : serve = scopesFor this s)
    (haction : action (d.withModel d.model.entered) = filter serve (d.withModel d.model.entered))
    (hrest : ∀ d₁ : HAService t, Complete d₁.members.config this partner →
      d₁.model.currState = .derived s →
      Goes this s out d₁ rest d₁ fun _ d' => s = .syncing ∧ Framed d₁ d') :
    Rounds this s out d (do onEntry action; rest) := by
  subst hserve
  refine .bind ((onEntry_post haction).mono (fun _ d₁ hentered => ?_) fun _ _ => .inl)
  obtain ⟨hconfig, hstate, -, -⟩ := hentered.frame
  refine (hrest d₁ (by rwa [hconfig]) (hstate.trans hs)).mono ?_ ?_
  · exact fun _ _ hproceeds => ⟨d₁, hentered, hproceeds⟩
  · exact fun _ _ herror => .inr ⟨herror.1, d₁, hentered, herror.2⟩

theorem backupStateHandler_round (hs : d.model.currState = .derived .backup) :
    Rounds this .backup out d backupStateHandler :=
  round_of_entry h hs rfl rfl fun d₁ _ _ => rest_proceeds (c := d₁.members.communicationState) (.refl _)

/-- `HOT_STANDBY` and `LOAD_BALANCING` share a handler. -/
theorem normalStateHandler_round
    (hs : d.model.currState = .derived s) (hnormal : s = .hotStandby ∨ s = .loadBalancing) :
    Rounds this s out d (normalStateHandler out) := by
  have hserve : serveDefaultScopes = scopesFor this s := by rcases hnormal with rfl | rfl <;> rfl
  have hne : ∀ s', s' = .terminated ∨ s' = .waiting ∨ s' = .partnerDown → s' ≠ s := by
    rcases hnormal with rfl | rfl <;> rintro _ (rfl | rfl | rfl) <;> decide
  refine round_of_entry h hs hserve rfl fun d₁ h₁ hs₁ => ?_
  have hleave : d₁.MayLeave this partner s :=
    ⟨h₁, hs₁, by rcases hnormal with rfl | rfl <;> decide, by rcases hnormal with rfl | rfl <;> simp⟩
  refine beating_proceeds hleave fun c hc => ?_
  split
  · exact go_proceeds hc.sameContact hleave (hne _ (.inr (.inl rfl))) (by decide)
  · exact go_proceeds hc.sameContact hleave (hne _ (.inl rfl)) (by decide)
  · rename_i hlost
    exact partnerDownOrNop_proceeds hleave hc (hne _ (.inr (.inr rfl))).symm hlost
  · exact rest_proceeds hc.sameContact

theorem servePartnerDown_run : servePartnerDown d = filter (scopesFor this .partnerDown) d := by
  unfold servePartnerDown scopesFor
  rw [run_bind_ok (getThisServerConfig_run h)]
  cases this.autoFailover <;> rfl

theorem partnerDownStateHandler_round (hs : d.model.currState = .derived .partnerDown) :
    Rounds this .partnerDown out d partnerDownStateHandler := by
  have hentered : Complete (d.withModel d.model.entered).members.config this partner := h
  refine round_of_entry h hs rfl (servePartnerDown_run hentered) fun d₁ h₁ hs₁ => ?_
  have hleave : d₁.MayLeave this partner .partnerDown := ⟨h₁, hs₁, by decide, by simp⟩
  refine beating_proceeds hleave fun c hc => ?_
  have hcontact := hc.sameContact
  split
  case h_4 => exact goNormal_proceeds hleave hcontact (by decide)
  case h_6 => exact rest_proceeds hcontact
  all_goals exact go_proceeds hcontact hleave (by decide) (by decide)

/-- `READY`, by the state of the partner. -/
theorem readyStateHandler_round (hs : d.model.currState = .derived .ready) :
    Rounds this .ready out d (readyStateHandler out) := by
  refine round_of_entry h hs rfl rfl fun d₁ h₁ hs₁ => ?_
  have hleave : d₁.MayLeave this partner .ready := ⟨h₁, hs₁, by decide, by simp⟩
  refine beating_proceeds hleave fun c hc => ?_
  have hcontact := hc.sameContact
  have h₂ : Complete (d₁.withComm c).members.config this partner := h₁
  split
  · exact go_proceeds hcontact hleave (by decide) (by decide)
  · exact go_proceeds hcontact hleave (by decide) (by decide)
  · refine .step (getThisServerConfig_run h₂) ?_
    by_cases hrole : this.role = .primary
    · rw [if_pos hrole]
      exact goNormal_proceeds hleave hcontact (by decide)
    · rw [if_neg hrole]
      exact rest_proceeds hcontact
  · exact go_proceeds hcontact hleave (by decide) (by decide)
  · rename_i hlost
    exact partnerDownOrNop_proceeds hleave hc (by decide) hlost
  · exact rest_proceeds hcontact

theorem syncWithPartner_proceeds (hs : d.model.currState = .derived .syncing) :
    Goes this .syncing out d (syncWithPartner out) d
      fun _ d' => HAState.syncing = .syncing ∧ Framed d d' := by
  have hstop := (stopHeartbeat_timerOnly d.members.communicationState).sameContact
  have hmodify : modifyComm (·.stopHeartbeat) d =
      .ok () (d.withComm d.members.communicationState.stopHeartbeat) := rfl
  refine .step hmodify (.step (run_get _) ?_)
  refine .step (ofExcept_ok_run h.partner) (.bind ((synchronize_post).mono ?_ ?_))
  · rintro ⟨success, text⟩ _ ⟨c, event, hc, rfl⟩
    cases success with
    | true =>
      let d₁ := ((d.withComm d.members.communicationState.stopHeartbeat).withComm c).withModel
        (d.model.postNextEvent (.derived event))
      have h₁ : Complete d₁.members.config this partner := h
      have hcurr : d₁.model.currState = .derived .syncing := hs
      refine .of_ok (verboseTransition_run h₁) ⟨⟨rfl, hstop.trans hc⟩, .inr ⟨.ready, ?_⟩⟩
      exact ⟨by decide, by decide, by simp [withModel], by simp [withModel, hcurr], fun _ => by
        simp [withModel, d₁, StateModel.postNextEvent], by simp, by simp⟩
    | false => exact .of_ok postNextEvent_run ⟨⟨rfl, hstop.trans hc⟩, .inl ⟨rfl, rfl, rfl⟩⟩
  · rintro _ _ rfl
    exact ⟨rfl, rfl, hstop⟩

/-- `SYNCING`, which may end in an exception. -/
theorem syncingStateHandler_round (hs : d.model.currState = .derived .syncing) :
    Rounds this .syncing out d (syncingStateHandler out) := by
  refine round_of_entry h hs rfl rfl fun d₁ h₁ hs₁ => ?_
  have hleave : d₁.MayLeave this partner .syncing := ⟨h₁, hs₁, by decide, by simp⟩
  have hcontact := SameContact.refl d₁.members.communicationState
  refine paused_proceeds (c := d₁.members.communicationState) hcontact ?_
  refine terminate_proceeds hcontact ?_ hleave
  refine .step (run_get _) ?_
  split
  · exact go_proceeds hcontact hleave (by decide) (by decide)
  · rename_i hlost
    exact scheduleHeartbeat_proceeds
      (partnerDownOrNop_proceeds hleave (.refl _) (by decide) hlost)
  · exact scheduleHeartbeat_proceeds (syncWithPartner_proceeds h₁ hs₁)

/-- `WAITING`, by the state of the partner. -/
theorem waitingStateHandler_round (hs : d.model.currState = .derived .waiting) :
    Rounds this .waiting out d (waitingStateHandler out) := by
  refine round_of_entry h hs rfl rfl fun d₁ h₁ hs₁ => ?_
  refine .step (getThisServerConfig_run h₁) ?_
  by_cases hrole : this.role = .backup
  · have hcontact := SameContact.refl d₁.members.communicationState
    simp only [hrole, ne_eq, not_true_eq_false]
    refine paused_proceeds (c := d₁.members.communicationState) hcontact ?_
    exact move_proceeds hcontact h₁ hs₁ (by decide) (by decide) (by simp) fun _ _ => rfl
  · have hleave : d₁.MayLeave this partner .waiting :=
      ⟨h₁, hs₁, by decide, fun hb => absurd hb hrole⟩
    simp only [hrole, ne_eq, not_false_eq_true]
    refine beating_proceeds hleave fun c hc => ?_
    have hcontact := hc.sameContact
    split
    · exact leaveWaiting_proceeds hleave hcontact
    · exact leaveWaiting_proceeds hleave hcontact
    · exact leaveWaiting_proceeds hleave hcontact
    · exact leaveWaiting_proceeds hleave hcontact
    · exact go_proceeds hcontact hleave (by decide) (by decide)
    · by_cases hprimary : this.role = .primary
      · rw [if_pos hprimary]
        exact leaveWaiting_proceeds hleave hcontact
      · rw [if_neg hprimary]
        exact rest_proceeds hcontact
    · rename_i hlost
      exact partnerDownOrNop_proceeds hleave hc (by decide) hlost
    · exact rest_proceeds hcontact

/-- **What one round of the state machine does**, in every state. -/
theorem stateHandler_round (hs : d.model.currState = .derived s) :
    Rounds this s out d (stateHandler s out) := by
  cases s with
  | backup => exact backupStateHandler_round h hs
  | hotStandby => exact normalStateHandler_round h hs (.inl rfl)
  | loadBalancing => exact normalStateHandler_round h hs (.inr rfl)
  | partnerDown => exact partnerDownStateHandler_round h hs
  | ready => exact readyStateHandler_round h hs
  | syncing => exact syncingStateHandler_round h hs
  | terminated => exact terminatedStateHandler_round
  | waiting => exact waitingStateHandler_round h hs

end Handlers

end HAService

end Ha
