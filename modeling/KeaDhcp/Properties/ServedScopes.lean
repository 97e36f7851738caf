import KeaDhcp.Properties.HaHappenings

/-!
# The scopes that a server serves

Which scopes a server serves follows from the state of its service, whatever happens to it.
-/

namespace Ha

open Infra Util HAConfig StateModel Sample Derived List Prod ModelState Except

/-! ## What the filter serves -/

variable {this : PeerConfig} {f : QueryFilter} {n : String}

namespace QueryFilter

variable {f' : QueryFilter} {c : HAConfig}

theorem not_serves_noScopes (f : QueryFilter) (n : String) :
    ¬(f.withScopes (noScopes f.peers)).Serves n := by
  intro h
  have hset : noScopes f.peers n = some true := h
  rw [noScopes, foldl_setScope] at hset
  split at hset <;> cases hset

/-- The scope of this server, if it has one. -/
def DefaultScope (c : HAConfig) (n : String) : Prop :=
  ∃ p, c.getThisServerConfig = .ok p ∧ hasScope p ∧ p.name = n

/-- The scopes of the primary and of the secondary server. -/
def FailoverScope (c : HAConfig) (n : String) : Prop :=
  ∃ p ∈ c.peers.map snd, hasScope p ∧ p.name = n

theorem serveScope_post (name : String) (f : QueryFilter) :
    Post (serveScope name) f (fun _ f' => (∃ p, f.config.getPeerConfig name = .ok p) ∧
        f' = f.withScopes (setScope f.scopes name true))
      fun _ f' => (∀ p, f.config.getPeerConfig name ≠ .ok p) ∧ f' = f := by
  refine .bind (.step (run_get f) ?_)
  cases hpeer : f.config.getPeerConfig name with
  | ok p => exact .of_ok rfl (.of_ok rfl ⟨⟨p, rfl⟩, rfl⟩)
  | error e => exact .of_error rfl ⟨by simp, rfl⟩

theorem serves_setScope {scopes : String → Option Bool} {name : String} :
    (f.withScopes (setScope scopes name true)).Serves n ↔
      n = name ∨ (f.withScopes scopes).Serves n := by
  unfold Serves withScopes setScope
  by_cases hn : n = name
  · simp [hn]
  · simp [hn]

theorem serveDefaultScopes_post :
    Post serveDefaultScopes f
      (fun _ f' => SameBut f f' ∧ ∀ n, f'.Serves n ↔ DefaultScope f.config n)
      fun _ _ => (∀ p, f.config.getThisServerConfig ≠ .ok p) ∨
        ∃ p, f.config.getThisServerConfig = .ok p ∧ hasScope p ∧
          ∀ q, f.config.getPeerConfig p.name ≠ .ok q := by
  refine .step (run_get f) ?_
  cases hthis : f.config.getThisServerConfig with
  | error e => exact .of_error rfl (.inl (by simp))
  | ok p =>
    have hdefault : ∀ n, DefaultScope f.config n ↔ hasScope p ∧ p.name = n := by
      intro n
      constructor
      · rintro ⟨q, hq, h⟩
        rw [hthis, ok.injEq] at hq
        subst hq
        exact h
      · exact fun h => ⟨p, hthis, h⟩
    let g := f.withScopes (noScopes f.peers)
    have hnone : serveNoScopes f = .ok () g := rfl
    refine .step hnone ?_
    by_cases hscope : hasScope p
    · rw [if_pos hscope]
      refine (serveScope_post p.name g).mono ?_ ?_
      · rintro _ _ ⟨-, rfl⟩
        refine ⟨⟨_, rfl⟩, fun n => ?_⟩
        rw [hdefault, serves_setScope]
        constructor
        · rintro (rfl | h)
          · exact ⟨hscope, rfl⟩
          · exact absurd h (not_serves_noScopes f n)
        · exact fun h => .inl h.2.symm
      · exact fun _ _ h => .inr ⟨p, rfl, hscope, h.1⟩
    · rw [if_neg hscope]
      refine .pure ⟨⟨_, rfl⟩, fun n => ?_⟩
      rw [hdefault]
      exact iff_of_false (not_serves_noScopes f n) fun h => hscope h.1

theorem serves_foldl {peers : List PeerConfig} :
    (f.withScopes ((peers.filter hasScope).foldl (fun scopes p => setScope scopes p.name true)
        (noScopes f.peers))).Serves n ↔ ∃ p ∈ peers, hasScope p ∧ p.name = n := by
  have hset := foldl_setScope (peers.filter hasScope) (noScopes f.peers) true n
  have hnone := not_serves_noScopes f n
  unfold Serves withScopes at hnone ⊢
  dsimp only at hnone ⊢
  rw [hset]
  by_cases hex : ∃ p ∈ peers.filter hasScope, p.name = n
  · rw [if_pos hex]
    obtain ⟨p, hp, hname⟩ := hex
    obtain ⟨hmem, hscope⟩ := mem_filter.mp hp
    exact iff_of_true rfl ⟨p, hmem, hscope, hname⟩
  · rw [if_neg hex]
    refine iff_of_false hnone ?_
    rintro ⟨p, hmem, hscope, hname⟩
    exact hex ⟨p, mem_filter.mpr ⟨hmem, hscope⟩, hname⟩

/-- The loop of `serveFailoverScopes`: it ends, or stops at a peer that cannot be found. -/
theorem forM_serveFailoverScope_post (peers : List PeerConfig) (f : QueryFilter) :
    Post (peers.forM serveFailoverScope) f
      (fun _ f' => f' = f.withScopes ((peers.filter hasScope).foldl
        (fun scopes p => setScope scopes p.name true) f.scopes))
      fun _ f' => ∃ front p back, peers = front ++ p :: back ∧ hasScope p ∧
        (∀ q, f.config.getPeerConfig p.name ≠ .ok q) ∧
        f' = f.withScopes ((front.filter hasScope).foldl
          (fun scopes p => setScope scopes p.name true) f.scopes) := by
  induction peers generalizing f with
  | nil => exact .pure rfl
  | cons p peers ih =>
    refine .bind ?_
    unfold serveFailoverScope
    by_cases hscope : hasScope p
    · rw [if_pos hscope]
      refine (serveScope_post p.name f).mono ?_ ?_
      · rintro _ _ ⟨-, rfl⟩
        refine (ih _).mono ?_ ?_
        · rintro _ _ rfl
          rw [filter_cons_of_pos hscope]
          rfl
        · rintro _ _ ⟨front, q, back, rfl, hq, hnone, rfl⟩
          refine ⟨p :: front, q, back, rfl, hq, hnone, ?_⟩
          rw [filter_cons_of_pos hscope]
          rfl
      · rintro _ _ ⟨hnone, rfl⟩
        exact ⟨[], p, peers, rfl, hscope, hnone, rfl⟩
    · rw [if_neg hscope]
      refine .pure ((ih f).mono ?_ ?_)
      · rintro _ _ rfl
        rw [filter_cons_of_neg hscope]
      · rintro _ _ ⟨front, q, back, rfl, hq, hnone, rfl⟩
        refine ⟨p :: front, q, back, rfl, hq, hnone, ?_⟩
        rw [filter_cons_of_neg hscope]

theorem serveFailoverScopes_post :
    Post serveFailoverScopes f
      (fun _ f' => SameBut f f' ∧ ∀ n, f'.Serves n ↔ ∃ p ∈ f.peers, hasScope p ∧ p.name = n)
      fun _ f' => ∃ front p back, f.peers = front ++ p :: back ∧ hasScope p ∧
        (∀ q, f.config.getPeerConfig p.name ≠ .ok q) ∧ SameBut f f' ∧
        ∀ n, f'.Serves n ↔ ∃ p ∈ front, hasScope p ∧ p.name = n := by
  let g := f.withScopes (noScopes f.peers)
  have hnone : serveNoScopes f = .ok () g := rfl
  refine (forM_serveFailoverScope_post f.peers g).mono ?_ ?_
  · rintro _ _ rfl
    exact ⟨⟨_, rfl⟩, fun n => serves_foldl⟩
  · rintro _ _ ⟨front, p, back, heq, hscope, hfind, rfl⟩
    exact ⟨front, p, back, heq, hscope, hfind, ⟨_, rfl⟩, fun n => serves_foldl⟩

variable {p : PeerConfig}

theorem mem_unscoped_peers : p ∈ (unscoped c).peers ↔ p ∈ c.peers.map snd := by
  have hrole : (p.role = .primary ∨ p.role = .secondary ∨ p.role = .standby) ∨ p.role = .backup := by
    cases p.role <;> simp
  show p ∈ (arrangeAll (c.peers.map snd)).peers ++
    (arrangeAll (c.peers.map snd)).backupPeers ↔ _
  unfold arrangeAll
  rw [foldl_arrange]
  simp only [append_nil, nil_append, mem_append, mem_reverse, mem_filter,
    decide_eq_true_eq, Bool.or_eq_true, ← and_or_left]
  exact and_iff_left hrole

/-- The peers of a load balancing configuration, in the order of the constructor. -/
theorem unscoped_peers_of_validate (hmode : c.haMode = .loadBalancing) (hvalid : c.validate = .ok ()) :
    ∃ p₁ p₂ backups, (unscoped c).peers = p₁ :: p₂ :: backups ∧ p₁.role = .primary ∧
      p₂.role = .secondary ∧ ∀ p ∈ backups, p.role = .backup := by
  obtain ⟨-, -, hprimary, hsecondary, hstandby⟩ := (validate_eq_ok_iff hmode).mp hvalid
  have hone : ∀ role, c.countRole role = 1 →
      ∃ p, p.role = role ∧ (c.peers.map snd).filter (·.role = role) = [p] := by
    intro role hcount
    obtain ⟨e, he, hrole⟩ := exists_of_countRole hcount
    exact ⟨e.2, hrole, filter_role_eq_singleton hcount (mem_map_of_mem he) hrole⟩
  obtain ⟨p₁, hrole₁, hp₁⟩ := hone _ hprimary
  obtain ⟨p₂, hrole₂, hp₂⟩ := hone _ hsecondary
  have hnone : (c.peers.map snd).filter (·.role = .standby) = [] := by
    rw [filter_eq_nil_iff, forall_mem_map]
    exact countP_eq_zero.mp hstandby
  refine ⟨p₁, p₂, (c.peers.map snd).filter (·.role = .backup), ?_, hrole₁, hrole₂, ?_⟩
  · show (arrangeAll (c.peers.map snd)).peers ++
      (arrangeAll (c.peers.map snd)).backupPeers = _
    rw [arrangeAll_eq hp₁ hp₂ hnone]
    rfl
  · exact fun p hp => of_decide_eq_true (mem_filter.mp hp).2

theorem getThisServerConfig_mem (h : c.getThisServerConfig = .ok this) :
    this ∈ c.peers.map snd ∧ this.name = trim c.thisServerName := by
  unfold getThisServerConfig getPeerConfig at h
  cases hfind : c.peers.find? (·.1 = c.thisServerName) with
  | none =>
    rw [hfind] at h
    cases h
  | some e =>
    rw [hfind] at h
    cases h
    have hmem := mem_of_find?_eq_some hfind
    have hkey : e.1 = c.thisServerName := by simpa using find?_some hfind
    refine ⟨mem_map_of_mem hmem, ?_⟩
    rw [c.names_trim e hmem, hkey]

/--
If the failover scopes cannot all be served, the loop stops before or right behind this server: the
primary comes first, and this server is found.
-/
theorem failover_stops_at_default (hmode : c.haMode = .loadBalancing) (hvalid : c.validate = .ok ())
    (htrim : trim c.thisServerName = c.thisServerName) {q : PeerConfig}
    (hthis : c.getThisServerConfig = .ok this) (hrole : this.role ≠ .backup)
    {front back : List PeerConfig} (hpeers : (unscoped c).peers = front ++ p :: back)
    (hscope : hasScope p) (hnone : ∀ q, c.getPeerConfig p.name ≠ .ok q) (hq : q ∈ front) :
    q = this := by
  obtain ⟨p₁, p₂, backups, hshape, hrole₁, hrole₂, hbackups⟩ := unscoped_peers_of_validate hmode hvalid
  obtain ⟨hmem, hname⟩ := getThisServerConfig_mem hthis
  have hfound : c.getPeerConfig this.name = .ok this := by
    rw [hname, htrim]
    exact hthis
  have hscoped : ∀ r ∈ backups, ¬hasScope r := fun r hr => by simp [hasScope, hbackups r hr]
  have hne : p ≠ this := fun heq => hnone this (heq ▸ hfound)
  have hself : this = p₁ ∨ this = p₂ := by
    have hin : this ∈ p₁ :: p₂ :: backups := hshape ▸ mem_unscoped_peers.mpr hmem
    rw [mem_cons, mem_cons] at hin
    rcases hin with h | h | h
    · exact .inl h
    · exact .inr h
    · exact absurd (hbackups this h) hrole
  rw [hshape] at hpeers
  rcases front with _ | ⟨a, _ | ⟨b, front⟩⟩
  · cases hq
  · -- stopped at the secondary, so this is the primary
    obtain ⟨rfl, rfl, -⟩ := hpeers
    rw [mem_singleton.mp hq]
    exact (hself.resolve_right fun h => hne h.symm).symm
  · obtain ⟨-, -, rfl⟩ := hpeers
    exact absurd hscope (hscoped p (by simp))

end QueryFilter

/-! ## The scopes of a state -/

namespace HAService

open QueryFilter

variable {t : HAServerType} {c : HAConfig} {d d' : HAService t} {partner : PeerConfig}

/-- Whether this server takes over by itself. -/
def autoFailover (c : HAConfig) : Bool :=
  match c.getThisServerConfig with
  | .ok this => this.autoFailover
  | .error _ => false

/-- The scopes that are due in a state. -/
def DueScopes (c : HAConfig) : HAState → String → Prop
  | .waiting, _ | .syncing, _ | .ready, _ | .backup, _ => False
  | .loadBalancing, n | .hotStandby, n | .terminated, n => DefaultScope c n
  | .partnerDown, n => if autoFailover c then FailoverScope c n else DefaultScope c n

/-- A configuration that the constructor of the filter accepts. -/
structure Accepted (c : HAConfig) (server partner : PeerConfig) : Prop
    extends Complete c server partner where
  valid : c.validate = .ok ()
  scope : hasScope server → ∃ p, c.getPeerConfig server.name = .ok p

theorem accepted_of_new (h : QueryFilter.new c = .ok f) :
    ∃ this partner, Accepted c this partner := by
  obtain ⟨hvalid, hserve⟩ := new_eq_ok_iff.mp h
  obtain ⟨this, partner, hcomplete⟩ := complete_of_validate hvalid
  refine ⟨this, partner, hcomplete, hvalid, fun hscope => ?_⟩
  -- otherwise the default scopes could not be served
  by_contra hnone
  rw [serveDefaultScopes, run_bind_ok (run_get _)] at hserve
  rw [show (unscoped c).config.getThisServerConfig = .ok this from hcomplete.this] at hserve
  dsimp only at hserve
  rw [run_bind, serveNoScopes] at hserve
  rw [if_pos hscope] at hserve
  obtain ⟨hpeer, -⟩ := (serveScope_post this.name _).ok hserve
  exact hnone hpeer

/-- What a service keeps of its configuration. -/
structure Built (c : HAConfig) (d : HAService t) : Prop where
  config : d.members.config = c
  filter : SameBut (unscoped c) d.members.queryFilter

theorem Built.filter_config (h : Built c d) : d.members.queryFilter.config = c := by
  obtain ⟨scopes, hf⟩ := h.filter
  rw [hf]
  rfl

theorem Built.filter_peers (h : Built c d) : d.members.queryFilter.peers = (unscoped c).peers := by
  obtain ⟨scopes, hf⟩ := h.filter
  rw [hf]
  rfl

theorem sameBut_trans {g k : QueryFilter} (h : SameBut f g) (h' : SameBut g k) : SameBut f k := by
  obtain ⟨_, rfl⟩ := h
  obtain ⟨_, rfl⟩ := h'
  exact ⟨_, rfl⟩

/-- What is served once the model has ended, or before it is started. -/
def Leftover (c : HAConfig) (f : QueryFilter) : Prop :=
  c.haMode = .loadBalancing → trim c.thisServerName = c.thisServerName →
    ∀ n, f.Serves n → DefaultScope c n

variable {s : HAState}

/-- Setting the scopes of a state gives the scopes that are due, or it ends in a failed failover. -/
theorem scopesFor_post (hc : Accepted c this partner) (hb : Built c d) :
    Post (scopesFor this s) d.members.queryFilter
      (fun _ f => SameBut (unscoped c) f ∧ ∀ n, f.Serves n ↔ DueScopes c s n)
      fun _ f => s = .partnerDown ∧ SameBut (unscoped c) f ∧ (this.role ≠ .backup → Leftover c f) := by
  have hconfig := hb.filter_config
  have hdefault : Yields serveDefaultScopes d.members.queryFilter
      fun _ f => SameBut (unscoped c) f ∧ ∀ n, f.Serves n ↔ DefaultScope c n := by
    refine (serveDefaultScopes_post).mono ?_ ?_
    · rintro _ f ⟨hsame, hserves⟩
      rw [hconfig] at hserves
      exact ⟨sameBut_trans hb.filter hsame, hserves⟩
    · rintro _ _ (hnone | ⟨p, hthis, hscope, hnone⟩)
      · rw [hconfig] at hnone
        exact hnone this hc.this
      rw [hconfig, hc.this, ok.injEq] at hthis
      subst hthis
      obtain ⟨q, hq⟩ := hc.scope hscope
      rw [hconfig] at hnone
      exact hnone q hq
  have hnone : Yields serveNoScopes d.members.queryFilter
      fun _ f => SameBut (unscoped c) f ∧ ∀ n, f.Serves n ↔ False :=
    .of_ok rfl ⟨sameBut_trans hb.filter ⟨_, rfl⟩, fun n => iff_of_false (not_serves_noScopes _ n) id⟩
  cases s with
  | backup | ready | syncing | waiting => exact hnone.imp fun _ _ h => h
  | hotStandby | loadBalancing | terminated =>
    exact hdefault.imp fun _ _ h => h
  | partnerDown =>
    unfold scopesFor DueScopes
    have hauto : autoFailover c = this.autoFailover := by
      unfold autoFailover
      rw [hc.this]
    rw [hauto]
    by_cases hfail : this.autoFailover
    · simp only [hfail, if_true]
      refine (serveFailoverScopes_post).mono ?_ ?_
      · rintro _ f ⟨hsame, hserves⟩
        refine ⟨sameBut_trans hb.filter hsame, fun n => (hserves n).trans ?_⟩
        rw [hb.filter_peers]
        simp only [mem_unscoped_peers, FailoverScope]
      · rintro _ f ⟨front, p, back, hpeers, hscope, hfind, hsame, hserves⟩
        refine ⟨trivial, sameBut_trans hb.filter hsame, fun hrole hmode htrim n hn => ?_⟩
        obtain ⟨q, hq, hqscope, rfl⟩ := (hserves n).mp hn
        rw [hb.filter_peers] at hpeers
        rw [hconfig] at hfind
        have hself := failover_stops_at_default hmode hc.valid htrim hc.this hrole hpeers hscope hfind hq
        subst hself
        exact ⟨q, hc.this, hqscope, rfl⟩
    · simp only [hfail, Bool.false_eq_true]
      exact hdefault.imp fun _ _ h => h

/-! ## A run of the state machine -/

/-- A backup server stays in its own state. -/
def BackupStays (this : PeerConfig) (m : StateModel HAState HAEvent) : Prop :=
  this.role = .backup → ∀ s, m.currState = .derived s → s = .waiting ∨ s = .backup

/-- The service between two runs of its state machine. -/
structure Settled (c : HAConfig) (this : PeerConfig) (d : HAService t) : Prop extends Built c d where
  backup : BackupStays this d.model
  scopes : ∀ s, d.model.currState = .derived s →
    d.model.onEntryFlag = false ∧ ∀ n, d.members.queryFilter.Serves n ↔ DueScopes c s n
  leftover : (∀ s, d.model.currState ≠ .derived s) → Leftover c d.members.queryFilter

/-- The service before a round of a run. -/
structure Running (c : HAConfig) (this : PeerConfig) (d : HAService t) : Prop extends Built c d where
  backup : BackupStays this d.model
  event : d.model.nextEvent ≠ .nop
  scopes : ∀ s, d.model.currState = .derived s → d.model.onEntryFlag = false →
    ∀ n, d.members.queryFilter.Serves n ↔ DueScopes c s n
  leftover : (∀ s, d.model.currState ≠ .derived s) → Leftover c d.members.queryFilter

variable {event : ModelEvent HAEvent}

theorem Settled.running (h : Settled c this d) (hevent : event ≠ .nop) :
    Running c this (d.withModel (d.model.postNextEvent event)) :=
  ⟨⟨h.config, h.filter⟩, h.backup, hevent, fun s hs _ => (h.scopes s hs).2, h.leftover⟩

theorem Running.entered {d₁ : HAService t} (hc : Accepted c this partner) (h : Running c this d)
    (hs : d.model.currState = .derived s) (hentered : Entered (scopesFor this s) d d₁) :
    Built c d₁ ∧ ∀ n, d₁.members.queryFilter.Serves n ↔ DueScopes c s n := by
  cases hentered with
  | again hflag heq =>
    subst heq
    exact ⟨h.toBuilt, h.scopes s hs hflag⟩
  | first hflag hserve heq =>
    subst heq
    obtain ⟨hsame, hserves⟩ := (scopesFor_post hc h.toBuilt).ok hserve
    exact ⟨⟨h.config, hsame⟩, hserves⟩

theorem Framed.filter_eq (h : Framed d d') :
    d'.members.config = d.members.config ∧ d'.members.queryFilter = d.members.queryFilter := by
  rw [h.members]
  exact ⟨rfl, rfl⟩

/-- One round keeps the invariant of the loop, or ends with the one between runs. -/
theorem stateHandler_settles (hc : Accepted c this partner) {out : Outside} (h : Running c this d)
    (hs : d.model.currState = .derived s) :
    Post (stateHandler s out) d
      (fun _ d' => if rests d'.model then Settled c this d' else Running c this d')
      fun _ d' => Settled c this { d' with model := d'.model.abortModel } := by
  have hcomplete : Complete d.members.config this partner := h.config ▸ hc.toComplete
  have hended (m : StateModel HAState HAEvent) (s : HAState) (hs : m.abortModel.currState = .derived s) :
      False := by
    cases (currState_transition _ _ _).symm.trans hs
  refine (stateHandler_round hcomplete hs).mono ?_ ?_
  · rintro _ d' ⟨d₁, hentered, hproceeds⟩
    obtain ⟨-, hstate₁, hflag₁, hevent₁⟩ := hentered.frame
    obtain ⟨hbuilt₁, hserves₁⟩ := h.entered hc hs hentered
    obtain ⟨hconfig, hfilter⟩ := hproceeds.filter_eq
    have hbuilt : Built c d' := ⟨hconfig.trans hbuilt₁.config, hfilter ▸ hbuilt₁.filter⟩
    rcases hproceeds.next with hrest | ⟨s', hmove⟩
    · have hcurr : d'.model.currState = .derived s := hrest.currState.trans (hstate₁.trans hs)
      rw [if_pos (by simp [rests, hrest.nextEvent])]
      refine ⟨hbuilt, ?_, ?_, fun hnot => absurd hcurr (hnot s)⟩
      · intro hrole s' hs'
        exact h.backup hrole s' (by rw [hs, ← hcurr, hs'])
      intro s' hs'
      rw [hcurr, derived.injEq] at hs'
      subst hs'
      rw [hfilter]
      exact ⟨hrest.onEntryFlag.trans hflag₁, hserves₁⟩
    · have hevent : d'.model.nextEvent ≠ .nop := hmove.nextEvent (hevent₁ ▸ h.event)
      rw [if_neg (by simp [rests, isModelDone, hmove.currState, hevent])]
      refine ⟨hbuilt, ?_, hevent, ?_, fun hnot => absurd hmove.currState (hnot s')⟩
      · intro hrole s'' hs''
        rw [hmove.currState, derived.injEq] at hs''
        subst hs''
        rcases h.backup hrole s hs with hw | hb
        · exact .inr (hmove.backup hrole hw)
        · exact absurd hb hmove.leaves.1
      · intro s'' _ hflag
        rw [hmove.onEntryFlag] at hflag
        cases hflag
  · rintro _ d' (⟨hflag, e, f, hserve, rfl⟩ | ⟨rfl, d₁, hentered, hframed⟩)
    · obtain ⟨rfl, hsame, hleft⟩ := (scopesFor_post hc h.toBuilt).error hserve
      have hrole : this.role ≠ .backup := fun hrole => by
        rcases h.backup hrole _ hs with h | h <;> cases h
      exact ⟨⟨h.config, hsame⟩, fun _ s' hs' => (hended _ s' hs').elim,
        fun s' hs' => (hended _ s' hs').elim, fun _ => hleft hrole⟩
    · obtain ⟨hbuilt₁, hserves₁⟩ := h.entered hc hs hentered
      obtain ⟨hconfig, hfilter⟩ := hframed.filter_eq
      refine ⟨⟨hconfig.trans hbuilt₁.config, ?_⟩, fun _ s' hs' => (hended _ s' hs').elim,
        fun s' hs' => (hended _ s' hs').elim, ?_⟩
      · show SameBut (unscoped c) d'.members.queryFilter
        rw [hfilter]
        exact hbuilt₁.filter
      · intro _ _ _ n hn
        rw [hfilter, hserves₁] at hn
        exact hn.elim

/-- Outside of `PARTNER_DOWN` a server of a load balancing configuration serves its own scope at most. -/
theorem Settled.serves_default (h : Settled c this d) (hmode : c.haMode = .loadBalancing)
    (htrim : trim c.thisServerName = c.thisServerName)
    (hdown : d.model.currState ≠ .derived .partnerDown) (hn : d.members.queryFilter.Serves n) :
    DefaultScope c n := by
  by_cases hstate : ∃ s, d.model.currState = .derived s
  · obtain ⟨s, hs⟩ := hstate
    have hdue : DueScopes c s n := ((h.scopes s hs).2 n).mp hn
    cases s with
    | partnerDown => exact absurd hs hdown
    | waiting | syncing | ready | backup => exact hdue.elim
    | loadBalancing | hotStandby | terminated => exact hdue
  · exact h.leftover (fun s hs => hstate ⟨s, hs⟩) hmode htrim n hn

/-- **A run of the state machine** ends with the scopes of the state that it ends in. -/
theorem runModel_settled (hc : Accepted c this partner) (hevent : event ≠ .nop)
    {rounds : List Outside}
    (h : Settled c this d ∨ Running c this (d.withModel (d.model.postNextEvent event)))
    (hrun : runModel stateHandler event rounds d = some d') : Settled c this d' := by
  have hrunning : Running c this (d.withModel (d.model.postNextEvent event)) := by
    rcases h with h | h
    · exact h.running hevent
    · exact h
  refine runLoop_inv (fun s r d hd hs => stateHandler_settles hc hd hs) ?_ hrunning hrun
  intro d hd hidle
  exact ⟨hd.toBuilt, hd.backup, fun s hs => absurd hs (hidle s), hd.leftover⟩

end HAService

/-! ## Runs of a server -/

namespace HAServer

open HAService QueryFilter

variable {t : HAServerType} {c : HAConfig} {s s₀ : HAServer t} {partner : PeerConfig}

theorem Quiet.settled {d d' : HAService t} (hquiet : Quiet d d') (h : Settled c this d) :
    Settled c this d' := by
  refine ⟨⟨hquiet.config.trans h.config, hquiet.queryFilter ▸ h.filter⟩, fun hrole s hs => ?_,
    fun s hs => ?_, fun hnot => ?_⟩
  · exact h.backup hrole s (hquiet.currState ▸ hs)
  · rw [hquiet.onEntryFlag, hquiet.queryFilter]
    exact h.scopes s (hquiet.currState ▸ hs)
  · rw [hquiet.queryFilter]
    exact h.leftover (hquiet.currState ▸ hnot)

theorem Settled.withNetworkState {d : HAService t} (h : Settled c this d) {n : Dhcp.NetworkState} :
    Settled c this { d with members := { d.members with networkState := n } } :=
  ⟨⟨h.config, h.filter⟩, h.backup, h.scopes, h.leftover⟩

variable {o : Happening t}

theorem begin_settled (hstart : ∀ rounds, o ≠ .start rounds) (ho : ∀ scopes, o ≠ .haScopes scopes)
    (h : Settled c this s.service) : Settled c this (begin o s).1.service := by
  cases o with
  | start rounds => exact absurd rfl (hstart rounds)
  | haScopes scopes => exact absurd rfl (ho scopes)
  | dhcpDisable | dhcpEnable | enableTimer => exact Settled.withNetworkState h
  | heartbeat | leaseUpdate | committed | received | heartbeatTimer | haSync | haContinue =>
    refine Quiet.settled (begin_quiet ?_ s) h
    trivial

/-- A service that is started is about to enter `WAITING`. -/
theorem started_running (h : Settled c this s.service) (hnew : s.service.model.currState = .new) :
    Running c this (s.service.withModel
      ((s.service.model.setState (.derived .waiting)).postNextEvent .start)) := by
  have hcurr : ((s.service.model.setState (.derived .waiting)).postNextEvent .start).currState =
      .derived .waiting := currState_setState _ _
  have hflag : ((s.service.model.setState (.derived .waiting)).postNextEvent .start).onEntryFlag =
      true := by
    refine (onEntryFlag_setState _ _).trans ?_
    rw [hnew]
    rfl
  refine ⟨⟨h.config, h.filter⟩, fun _ s' hs' => ?_, nofun, fun s' _ hoff => ?_, fun hnot => ?_⟩
  · exact .inl (derived.inj (hcurr.symm.trans hs')).symm
  · cases hflag.symm.trans hoff
  · exact absurd hcurr (hnot _)

theorem step_settled (hc : Accepted c this partner) (ho : ∀ scopes, o ≠ .haScopes scopes)
    (h : Settled c this s.service) : Settled c this (step o s).service := by
  refine step_rule h (fun hstart => begin_settled hstart ho h) ?_ ?_
  · exact fun event rounds d d' hevent hd hrun => runModel_settled hc hevent (.inl hd) hrun
  · exact fun rounds d' hnew hrun => runModel_settled hc (by decide) (.inr (started_running h hnew)) hrun

theorem Constructed.settled (h : Constructed c s) :
    ∃ this partner, Accepted c this partner ∧ Settled c this s.service := by
  obtain ⟨⟨networkState, now, hconstruct⟩, -, -⟩ := h
  obtain ⟨f, hnew, hrest⟩ := except_bind_eq_ok hconstruct
  obtain ⟨this, partner, hc⟩ := accepted_of_new hnew
  obtain ⟨hsame, hserves⟩ := (serveDefaultScopes_post).ok (new_eq_ok_iff.mp hnew).2
  rw [← ok.inj hrest]
  refine ⟨this, partner, hc, ⟨rfl, hsame⟩, fun _ s hs => ?_, fun s hs => ?_, ?_⟩
  · cases hs
  · cases hs
  · exact fun _ _ _ n hn => (hserves n).mp hn

/--
**The served scopes follow the state** after every run of the state machine, unless they have been
set by `ha-scopes`. Hence two servers of one load balancing configuration do not serve the same
scope while neither is in `PARTNER_DOWN`.
-/
theorem served_scopes_follow_state (hs₀ : Constructed c s₀)
    (hs : Reaches step (fun o _ => ∀ scopes, o ≠ .haScopes scopes) s₀ s) :
    (∀ state, s.service.model.currState = .derived state →
      ∀ n, s.service.members.queryFilter.Serves n ↔ DueScopes c state n) ∧
    ∀ (name : String) (u₀ u : HAServer t), name ≠ c.thisServerName →
      c.haMode = .loadBalancing → trim c.thisServerName = c.thisServerName → trim name = name →
      Constructed (c.loadedBy name) u₀ →
      Reaches step (fun o _ => ∀ scopes, o ≠ .haScopes scopes) u₀ u →
      s.service.model.currState ≠ .derived .partnerDown →
      u.service.model.currState ≠ .derived .partnerDown →
      ∀ n, ¬(s.service.members.queryFilter.Serves n ∧ u.service.members.queryFilter.Serves n) := by
  have hsettled : ∀ {c : HAConfig} {s₀ s : HAServer t}, Constructed c s₀ →
      Reaches step (fun o _ => ∀ scopes, o ≠ .haScopes scopes) s₀ s →
      ∃ this, Settled c this s.service := by
    intro c s₀ s hs₀ hs
    obtain ⟨this, partner, hc, hstart⟩ := hs₀.settled
    refine ⟨this, hs.inv (I := fun u => Settled c this u.service) hstart ?_⟩
    exact fun o u h ho => step_settled hc ho h
  obtain ⟨this, hst⟩ := hsettled hs₀ hs
  refine ⟨fun state hstate => (hst.scopes state hstate).2, ?_⟩
  rintro name u₀ u hname hmode htrim₁ htrim₂ hu₀ hu hdown₁ hdown₂ n ⟨hn₁, hn₂⟩
  obtain ⟨other, hut⟩ := hsettled hu₀ hu
  have hdefault₁ := hst.serves_default hmode htrim₁ hdown₁ hn₁
  have hdefault₂ := hut.serves_default hmode htrim₂ hdown₂ hn₂
  obtain ⟨p, hp, -, hpname⟩ := hdefault₁
  obtain ⟨q, hq, -, hqname⟩ := hdefault₂
  have hnp : n = c.thisServerName := by
    rw [← hpname, (getThisServerConfig_mem hp).2, htrim₁]
  have hnq : n = name := by
    rw [← hqname, (getThisServerConfig_mem hq).2]
    exact htrim₂
  exact hname (hnq.symm.trans hnp)

theorem served_scopes_in_waiting : ∃ s₀ s u₀ : HAServer .dhcpv4,
    Constructed balanced s₀ ∧ Constructed (balanced.loadedBy "server3") u₀ ∧
    s = step (.start [⟨0, ⟨"", "", ""⟩⟩]) s₀ ∧ s.service.model.currState = .derived .waiting ∧
    (∀ n, ¬s.service.members.queryFilter.Serves n) ∧
    ∀ n, ¬(s.service.members.queryFilter.Serves n ∧ u₀.service.members.queryFilter.Serves n) := by
  obtain ⟨d, hd⟩ : ∃ d, construct .dhcpv4 balanced .fresh 0 = .ok d := ⟨_, rfl⟩
  obtain ⟨e, he⟩ : ∃ e, construct .dhcpv4 (balanced.loadedBy "server3") .fresh 0 = .ok e :=
    ⟨_, rfl⟩
  have hs₀ : Constructed balanced (⟨d, [], []⟩ : HAServer .dhcpv4) := ⟨⟨_, _, hd⟩, rfl, rfl⟩
  have hu₀ : Constructed (balanced.loadedBy "server3") (⟨e, [], []⟩ : HAServer .dhcpv4) :=
    ⟨⟨_, _, he⟩, rfl, rfl⟩
  have hnew : (⟨e, [], []⟩ : HAServer .dhcpv4).service.model.currState = .new := by
    cases he
    rfl
  have hwaiting : (step (.start [⟨0, ⟨"", "", ""⟩⟩])
      (⟨d, [], []⟩ : HAServer .dhcpv4)).service.model.currState = .derived .waiting := by
    cases hd
    decide +kernel
  obtain ⟨hscopes, hapart⟩ := served_scopes_follow_state hs₀
    (.next (.start [⟨0, ⟨"", "", ""⟩⟩]) .start nofun)
  refine ⟨_, _, _, hs₀, hu₀, rfl, hwaiting, fun n => ((hscopes _ hwaiting) n).mp, ?_⟩
  exact hapart "server3" _ _ (by decide) rfl (by decide) (by decide) hu₀ .start
    (by rw [hwaiting]; decide) (by rw [hnew]; decide)

end HAServer

end Ha
