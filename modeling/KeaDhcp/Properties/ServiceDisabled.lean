import KeaDhcp.Properties.HaHappenings

/-!
# Servers that must not serve

The DHCP service of a server in `BACKUP`, `WAITING`, `SYNCING` or `READY` is to be disabled. The
entry of a state adjusts the network state, `dhcp-enable` is repaired by a callout, but nothing stops
the timer that `dhcp-disable` starts for its `max-period`.
-/

namespace Ha

open Infra Util Dhcp NetworkState Sample

namespace HAService

variable {t : HAServerType} {c : HAConfig} {d d' : HAService t}

def mustNotServe : HAState → Bool
  | .backup | .waiting | .syncing | .ready => true
  | .hotStandby | .loadBalancing | .partnerDown | .terminated => false

/-- In a state in which the server must not serve, the DHCP service is disabled. -/
def DisabledIn (state : HAState) (m : Members t) : Prop :=
  mustNotServe state = true → m.networkState.isServiceEnabled = false

variable {state : HAState} {n : NetworkState}

theorem shouldEnable_eq : shouldEnable (.derived state) = !mustNotServe state := by
  cases state <;> rfl

theorem adjusted_disabled {state : ModelState HAState} (hstate : shouldEnable state = false) :
    (adjusted state n).isServiceEnabled = false := by
  unfold adjusted
  cases hn : n.isServiceEnabled with
  | true => simp [hstate, disableService, isServiceEnabled]
  | false => simpa [hstate] using hn

theorem disabledIn_adjusted {m : Members t} (n : NetworkState)
    (hm : m.networkState = adjusted (.derived state) n) : DisabledIn state m := by
  intro hmute
  rw [hm]
  refine adjusted_disabled ?_
  rw [shouldEnable_eq, hmute]
  rfl

theorem disabledIn_entryCondition : EntryCondition (DisabledIn (t := t)) := by
  refine ⟨fun s d f hs => ?_, fun s d d' hframed h hmute => ?_⟩
  · refine disabledIn_adjusted d.members.networkState ?_
    rw [← hs]
    rfl
  · rw [hframed.members]
    exact h hmute

theorem adjustNetworkState_holds (hconfig : d.members.config = c) :
    Holds c DisabledIn (after adjustNetworkState d) := by
  refine ⟨hconfig, fun s hs => disabledIn_adjusted d.members.networkState ?_⟩
  rw [← hs]
  rfl

theorem Quiet.disabledIn (hquiet : Quiet d d') (h : Holds c DisabledIn d) :
    Holds c DisabledIn d' := by
  refine ⟨hquiet.config.trans h.config, fun s hs hmute => ?_⟩
  rw [hquiet.networkState]
  exact h.state s (hquiet.currState ▸ hs) hmute

/-- `dhcp-disable` never enables the service, also when it refuses its arguments. -/
theorem isServiceEnabled_commandDhcpDisable {args : NetworkState.DisableArguments}
    (h : n.isServiceEnabled = false) : (n.commandDhcpDisable args).1.isServiceEnabled = false := by
  unfold commandDhcpDisable
  dsimp only
  split
  · rfl
  · split <;> exact h

end HAService

namespace HAServer

open HAConfig HAService

variable {t : HAServerType} {c : HAConfig} {this partner : PeerConfig} {s s₀ : HAServer t}

/-- The server does not serve in a state in which it must not. -/
def Muted (s : HAServer t) : Prop :=
  ∀ state, s.service.model.currState = .derived state → DisabledIn state s.service.members

/-- The timer of `dhcp-disable` is running, and it will enable the service. -/
def TimerPending (s : HAServer t) : Prop :=
  ∃ interval, s.service.members.networkState.timer = some interval ∧ interval ≠ 0

/-- A timer that would enable the service does not run off in a state in which it must not. -/
def TimerWaits (o : Happening t) (s : HAServer t) : Prop :=
  o = .enableTimer → TimerPending s →
    ∀ state, s.service.model.currState = .derived state → mustNotServe state = false

theorem timerExpired_eq (h : ¬TimerPending s) :
    s.service.members.networkState.timerExpired = s.service.members.networkState := by
  unfold timerExpired
  split
  · rename_i interval htimer
    by_cases hzero : interval = 0
    · rw [if_pos hzero]
    · exact absurd ⟨interval, htimer, hzero⟩ h
  · rfl

theorem TimerPending.isServiceEnabled (h : TimerPending s) :
    s.service.members.networkState.timerExpired.isServiceEnabled = true := by
  obtain ⟨interval, htimer, hpos⟩ := h
  unfold timerExpired
  rw [htimer]
  dsimp only
  rw [if_neg hpos]
  rfl

theorem begin_disabledIn {o : Happening t} (hstart : ∀ rounds, o ≠ .start rounds)
    (ho : TimerWaits o s) (h : Holds c DisabledIn s.service) :
    Holds c DisabledIn (begin o s).1.service := by
  cases o with
  | start rounds => exact absurd rfl (hstart rounds)
  | heartbeat | leaseUpdate | committed | received | heartbeatTimer | haSync | haContinue =>
    refine Quiet.disabledIn (begin_quiet ?_ s) h
    trivial
  | haScopes scopes =>
    have hfilter : Keeps (Holds (t := t) c DisabledIn) (filter (QueryFilter.serveScopes scopes)) :=
      Keeps.zoom fun d hd => ⟨hd.config, hd.state⟩
    refine onService_keeps (Keeps.bind hfilter fun _ d hd => ?_) s h
    exact adjustNetworkState_holds hd.config
  | dhcpEnable => exact adjustNetworkState_holds h.config
  | dhcpDisable args =>
    exact ⟨h.config, fun state hs hmute =>
      isServiceEnabled_commandDhcpDisable (h.state state hs hmute)⟩
  | enableTimer =>
    refine ⟨h.config, fun state hs hmute => ?_⟩
    show s.service.members.networkState.timerExpired.isServiceEnabled = false
    by_cases hpending : TimerPending s
    · rw [ho rfl hpending state hs] at hmute
      cases hmute
    · rw [timerExpired_eq hpending]
      exact h.state state hs hmute

theorem step_disabledIn (hc : Complete c this partner) {o : Happening t} (ho : TimerWaits o s)
    (h : Holds c DisabledIn s.service) : Holds c DisabledIn (step o s).service :=
  step_holds disabledIn_entryCondition hc h fun hstart => begin_disabledIn hstart ho h

theorem Constructed.disabledIn (h : Constructed c s) :
    (∃ this partner, Complete c this partner) ∧ Holds c DisabledIn s.service := by
  obtain ⟨hcomplete, f, networkState, now, rfl⟩ := h.built
  exact ⟨hcomplete, rfl, nofun⟩

/--
**Servers that must not serve.** In every run in which no timer of `dhcp-disable` runs off in
`BACKUP`, `WAITING`, `SYNCING` or `READY`, the DHCP service is disabled in these states. The
condition is needed at each step.
-/
theorem muted_iff_timer_waits (hs₀ : Constructed c s₀) (hs : Reaches step TimerWaits s₀ s) :
    Muted s ∧ ∀ o, Muted (step o s) ↔ TimerWaits o s := by
  obtain ⟨⟨this, partner, hc⟩, hstart⟩ := hs₀.disabledIn
  have hholds : Holds c DisabledIn s.service :=
    hs.inv (I := fun u => Holds c DisabledIn u.service) hstart fun o u h ho => step_disabledIn hc ho h
  refine ⟨hholds.state, fun o => ⟨fun hmuted => ?_, fun ho => (step_disabledIn hc ho hholds).state⟩⟩
  rintro rfl hpending state hstate
  by_contra hserve
  have hmute : mustNotServe state = true := by simpa using hserve
  have hoff := hmuted state hstate hmute
  exact Bool.noConfusion (hpending.isServiceEnabled.symm.trans hoff)

/-- A server that waits for its partner, with a timer that its own `dhcp-disable` has started. -/
theorem muted_sample : ∃ s₀ : HAServer .dhcpv4, Constructed balanced s₀ ∧
    Muted (step (.dhcpDisable (.map (some (.integer 60)))) (step (.start [⟨0, ⟨"", "", ""⟩⟩]) s₀)) := by
  obtain ⟨d, hd⟩ : ∃ d, construct .dhcpv4 balanced .fresh 0 = .ok d := ⟨_, rfl⟩
  have hs₀ : Constructed balanced (⟨d, [], []⟩ : HAServer .dhcpv4) := ⟨⟨_, _, hd⟩, rfl, rfl⟩
  refine ⟨_, hs₀, (muted_iff_timer_waits hs₀ (.next _ (.next _ .start ?_) ?_)).1⟩
  · exact nofun
  · exact nofun

/-- The timer of `dhcp-disable` enables the service of a server in `WAITING`. -/
theorem timer_enables_waiting : ∃ s₀ : HAServer .dhcpv4, Constructed balanced s₀ ∧
    ∃ s, Reaches step (fun _ _ => True) s₀ s ∧ s.service.model.currState = .derived .waiting ∧
      s.service.members.networkState.isServiceEnabled = true := by
  obtain ⟨d, hd⟩ : ∃ d, construct .dhcpv4 balanced .fresh 0 = .ok d := ⟨_, rfl⟩
  refine ⟨⟨d, [], []⟩, ⟨⟨_, _, hd⟩, rfl, rfl⟩, step .enableTimer
    (step (.dhcpDisable (.map (some (.integer 60)))) (step (.start [⟨0, ⟨"", "", ""⟩⟩]) _)),
    .next _ (.next _ (.next _ .start trivial) trivial) trivial, ?_⟩
  cases hd
  decide +kernel

end HAServer

end Ha
