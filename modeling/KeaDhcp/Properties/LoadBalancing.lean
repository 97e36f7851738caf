import KeaDhcp.Ha.QueryFilter

/-!
# Load balancing

Two servers share the clients of a load balancing configuration. Each builds its own query filter
from its copy of the configuration; they agree on the server of every client.
-/

namespace Ha

open Infra Keeps QueryFilter Prod Function
open Util (trim)
open List hiding after

/-! ## What identifies a client -/

/-- The bytes of the client identifier, or without one those of the hardware address. -/
def Query4.key (query : Query4) : Option (List UInt8) :=
  (query.clientId.filter (!·.isEmpty)).or ((query.hwaddr.map (·.hwaddr)).filter (!·.isEmpty))

/-- The bytes of the DUID. -/
def Query6.key (query : Query6) : Option (List UInt8) := query.duid.filter (!·.isEmpty)

/-! ## Valid configurations -/

variable {p : PeerConfig} {role : Role} {name thisServerName : String}

namespace HAConfig

variable {c : HAConfig}

/-- A valid configuration has one primary and one secondary server. -/
theorem validate_eq_ok_iff (hmode : c.haMode = .loadBalancing) :
    c.validate = .ok () ↔ c.hasPeer c.thisServerName ∧ c.invalidUrl = none ∧
      c.countRole .primary = 1 ∧ c.countRole .secondary = 1 ∧ c.countRole .standby = 0 := by
  unfold validate
  rw [hmode]
  simp only [refuseIf_bind_eq_ok_iff, refuseIf_eq_ok_iff, Bool.not_eq_false',
    decide_eq_false_iff_not, Option.isSome_eq_false_iff, Option.isNone_iff_eq_none]
  refine and_congr_right fun _ => and_congr_right fun _ => ?_
  omega

theorem exists_of_countRole (h : c.countRole role = 1) : ∃ e ∈ c.peers, e.2.role = role := by
  have hpos : 0 < c.countRole role := by omega
  obtain ⟨e, he, hrole⟩ := countP_pos_iff.mp hpos
  exact ⟨e, he, of_decide_eq_true hrole⟩

/-- Every peer is found under its own name. -/
theorem getPeerConfig_of_mem (hnames : ∀ e ∈ c.peers, trim e.1 = e.1)
    (hp : p ∈ c.peers.map snd) : c.getPeerConfig p.name = .ok p := by
  obtain ⟨e, he, rfl⟩ := mem_map.mp hp
  have hkey : e.2.name = e.1 := (c.names_trim e he).trans (hnames e he)
  unfold getPeerConfig
  cases hfind : c.peers.find? (·.1 = e.2.name) with
  | none =>
    have habsent := find?_eq_none.mp hfind e he
    simp [hkey] at habsent
  | some e' =>
    -- The keys are distinct, so the entry that is found is this one.
    have hsame : e'.1 = e.1 := by
      have hname : e'.1 = e.2.name := by simpa using find?_some hfind
      rw [hname, hkey]
    have hmem := mem_of_find?_eq_some hfind
    rw [inj_on_of_nodup_map c.keys_nodup hmem he hsame]

/-! ### One configuration file on several servers -/

/-- Adding a peer does not look at the name of the server. -/
theorem addPeer_loadedBy (c : HAConfig) (name : String) (entry : PeerEntry) :
    (c.loadedBy name).addPeer entry = (c.addPeer entry).map (·.loadedBy name) := by
  unfold addPeer
  have hpeer : (c.loadedBy name).hasPeer entry.name = c.hasPeer entry.name := rfl
  by_cases hdup : c.hasPeer entry.name
  · rw [dif_pos hdup, dif_pos (hpeer.trans hdup)]
    rfl
  rw [dif_neg hdup, dif_neg (hpeer ▸ hdup)]
  by_cases hempty : trim entry.name = ""
  · rw [if_pos hempty, if_pos hempty]
    rfl
  · rw [if_neg hempty, if_neg hempty]
    cases stringToRole entry.role <;> rfl

theorem foldlM_addPeer_loadedBy (entries : List PeerEntry) (c : HAConfig) (name : String) :
    entries.foldlM addPeer (c.loadedBy name) =
      (entries.foldlM addPeer c).map (·.loadedBy name) := by
  induction entries generalizing c with
  | nil => rfl
  | cons entry entries ih =>
    rw [foldlM_cons, foldlM_cons, addPeer_loadedBy]
    cases c.addPeer entry with
    | error e => rfl
    | ok c' => exact ih c'

variable {mode : String} {entries : List PeerEntry}

/-- What the parser accepts has been filled peer by peer, and is valid. -/
theorem parse_eq_ok (h : parse thisServerName mode entries = .ok c) :
    ∃ haMode, stringToHAMode mode = .ok haMode ∧
      entries.foldlM addPeer (fresh (trim thisServerName) haMode) = .ok c ∧
      c.validate = .ok () := by
  have hinternal : parseInternal thisServerName mode entries = .ok c := by
    unfold parse at h
    generalize parseInternal thisServerName mode entries = result at h ⊢
    cases result with
    | error e => cases h
    | ok c' =>
      cases h
      rfl
  unfold parseInternal at hinternal
  by_cases hempty : trim thisServerName = ""
  · rw [if_pos hempty] at hinternal
    cases hinternal
  rw [if_neg hempty] at hinternal
  obtain ⟨haMode, hmode, hrest⟩ := except_bind_eq_ok hinternal
  by_cases hfew : entries.length < 2
  · rw [if_pos hfew] at hrest
    cases hrest
  rw [if_neg hfew] at hrest
  obtain ⟨c', hpeers, hrest⟩ := except_bind_eq_ok hrest
  obtain ⟨_, hvalid, hrest⟩ := except_bind_eq_ok hrest
  cases hrest
  exact ⟨haMode, hmode, hpeers, hvalid⟩

/-- The servers of one configuration file differ in their own name only. -/
theorem parse_loadedBy {name₁ name₂ : String} {c₁ c₂ : HAConfig}
    (h₁ : parse name₁ mode entries = .ok c₁) (h₂ : parse name₂ mode entries = .ok c₂) :
    c₂ = c₁.loadedBy (trim name₂) := by
  obtain ⟨haMode, hmode, hpeers₁, -⟩ := parse_eq_ok h₁
  obtain ⟨haMode', hmode', hpeers₂, -⟩ := parse_eq_ok h₂
  rw [hmode, Except.ok.injEq] at hmode'
  subst hmode'
  have hfresh : fresh (trim name₂) haMode = (fresh (trim name₁) haMode).loadedBy (trim name₂) := rfl
  rw [hfresh, foldlM_addPeer_loadedBy, hpeers₁] at hpeers₂
  cases hpeers₂
  rfl

end HAConfig

/-! ## The order of the peers -/

namespace QueryFilter

open HAConfig

variable {peers : List PeerConfig}

/-- The active servers are the primary one and the secondary one behind it. -/
theorem foldl_arrange {a : Arranged} :
    peers.foldl arrange a =
      { peers := (peers.filter (·.role = .primary)).reverse ++ a.peers ++
          peers.filter fun p => p.role = .secondary || p.role = .standby
        backupPeers := a.backupPeers ++ peers.filter (·.role = .backup)
        activeServers := a.activeServers + peers.countP (·.role = .primary) +
          peers.countP (·.role = .secondary) } := by
  induction peers generalizing a with
  | nil => simp
  | cons p peers ih =>
    rw [foldl_cons, ih]
    cases hrole : p.role with
    | primary | secondary =>
      simp [arrange, hrole]
      omega
    | standby | backup => simp [arrange, hrole]

/-- What a valid load balancing configuration looks like to the constructor. -/
structure Pair (c : HAConfig) (p₁ p₂ : PeerConfig) : Prop where
  mode : c.haMode = .loadBalancing
  names : ∀ e ∈ c.peers, trim e.1 = e.1
  primary : (c.peers.map snd).filter (·.role = .primary) = [p₁]
  secondary : (c.peers.map snd).filter (·.role = .secondary) = [p₂]
  standby : (c.peers.map snd).filter (·.role = .standby) = []

variable {c : HAConfig} {p₁ p₂ : PeerConfig} {f : QueryFilter}

/-- A role that is there once belongs to one peer. -/
theorem filter_role_eq_singleton (hcount : c.countRole role = 1) (hp : p ∈ c.peers.map snd)
    (hrole : p.role = role) : (c.peers.map snd).filter (·.role = role) = [p] := by
  have hlength : ((c.peers.map snd).filter (·.role = role)).length = 1 := by
    rw [← countP_eq_length_filter, countP_map]
    exact hcount
  obtain ⟨q, hq⟩ := length_eq_one_iff.mp hlength
  have hmem : p ∈ (c.peers.map snd).filter (·.role = role) :=
    mem_filter.mpr ⟨hp, decide_eq_true hrole⟩
  rw [hq] at hmem ⊢
  rw [mem_singleton.mp hmem]

/-- The two active servers of a valid configuration. -/
theorem pair_of_validate (hmode : c.haMode = .loadBalancing)
    (hnames : ∀ e ∈ c.peers, trim e.1 = e.1) (hvalid : c.validate = .ok ())
    (hp₁ : p₁ ∈ c.peers.map snd) (hrole₁ : p₁.role = .primary)
    (hp₂ : p₂ ∈ c.peers.map snd) (hrole₂ : p₂.role = .secondary) : Pair c p₁ p₂ := by
  obtain ⟨-, -, hprimary, hsecondary, hstandby⟩ := (validate_eq_ok_iff hmode).mp hvalid
  refine ⟨hmode, hnames, filter_role_eq_singleton hprimary hp₁ hrole₁,
    filter_role_eq_singleton hsecondary hp₂ hrole₂, ?_⟩
  rw [filter_eq_nil_iff, forall_mem_map]
  exact countP_eq_zero.mp hstandby

theorem mem_of_filter_role (h : (c.peers.map snd).filter (·.role = role) = [p]) :
    p ∈ c.peers.map snd ∧ p.role = role := by
  have hp := mem_filter.mp (h ▸ mem_singleton.mpr rfl)
  exact ⟨hp.1, of_decide_eq_true hp.2⟩

theorem Pair.name_ne (h : Pair c p₁ p₂) : p₁.name ≠ p₂.name := by
  intro hname
  obtain ⟨hmem₁, hrole₁⟩ := mem_of_filter_role h.primary
  obtain ⟨hmem₂, hrole₂⟩ := mem_of_filter_role h.secondary
  have h₁ := getPeerConfig_of_mem h.names hmem₁
  rw [hname, getPeerConfig_of_mem h.names hmem₂, Except.ok.injEq] at h₁
  rw [h₁, hrole₁] at hrole₂
  cases hrole₂

/-- **The order of the peers.** The primary comes first and the secondary second. -/
theorem arrangeAll_eq (hprimary : (c.peers.map snd).filter (·.role = .primary) = [p₁])
    (hsecondary : (c.peers.map snd).filter (·.role = .secondary) = [p₂])
    (hstandby : (c.peers.map snd).filter (·.role = .standby) = []) :
    arrangeAll (c.peers.map snd) =
      { peers := [p₁, p₂], backupPeers := (c.peers.map snd).filter (·.role = .backup)
        activeServers := 2 } := by
  have hothers : (c.peers.map snd).filter (fun p => p.role = .secondary || p.role = .standby) =
      [p₂] := by
    have hnone : ∀ p ∈ c.peers.map snd, decide (p.role = .standby) = false := by
      simpa [filter_eq_nil_iff] using hstandby
    rw [← hsecondary]
    refine filter_congr fun p hp => ?_
    rw [hnone p hp, Bool.or_false]
  unfold arrangeAll
  rw [foldl_arrange, countP_eq_length_filter, countP_eq_length_filter, hprimary,
    hsecondary, hothers]
  rfl

/-! ## The scopes that are served -/

/-- Setting scopes in a loop enables those of the peers in it. -/
theorem foldl_setScope (peers : List PeerConfig) (scopes : String → Option Bool) (enabled : Bool)
    (name : String) :
    peers.foldl (fun scopes p => setScope scopes p.name enabled) scopes name =
      if ∃ p ∈ peers, p.name = name then some enabled else scopes name := by
  induction peers generalizing scopes with
  | nil => simp
  | cons p peers ih =>
    rw [foldl_cons, ih]
    by_cases hp : p.name = name
    · simp [hp, setScope]
    have hset : setScope scopes p.name enabled name = scopes name :=
      update_of_ne (Ne.symm hp) _ _
    simp [hp, hset]

theorem noScopes_of_mem (hp : p ∈ peers) : noScopes peers p.name = some false := by
  rw [noScopes, foldl_setScope, if_pos ⟨p, hp, rfl⟩]

theorem serveScope_run (h : f.config.getPeerConfig p.name = .ok p) :
    serveScope p.name f = .ok () (f.withScopes (setScope f.scopes p.name true)) := by
  have hname : validateScopeName p.name f = .ok () f := by
    simp [validateScopeName, run_bind, h]
  rw [serveScope, run_bind_ok hname, run_modify]

/-- What a filter of one of the servers has, whichever scopes it serves. -/
structure FilterOf (c : HAConfig) (p₁ p₂ : PeerConfig) (f : QueryFilter) : Prop where
  pair : Pair c p₁ p₂
  config : ∃ thisServerName, f.config = c.loadedBy thisServerName
  peers : f.peers = p₁ :: p₂ :: (c.peers.map snd).filter (·.role = .backup)
  active : f.activeServers = 2

section

variable (h : FilterOf c p₁ p₂ f)
include h

theorem FilterOf.getPeerConfig (hp : p ∈ c.peers.map snd) :
    f.config.getPeerConfig p.name = .ok p := by
  obtain ⟨thisServerName, hconfig⟩ := h.config
  rw [hconfig]
  exact getPeerConfig_of_mem h.pair.names hp

theorem FilterOf.withScopes (scopes : String → Option Bool) :
    FilterOf c p₁ p₂ (f.withScopes scopes) :=
  ⟨h.pair, h.config, h.peers, h.active⟩

theorem FilterOf.mem : p₁ ∈ f.peers ∧ p₂ ∈ f.peers := by
  rw [h.peers]
  simp

/-- By default a server serves its own scope and no other. -/
theorem FilterOf.serveDefaultScopes_run (hp : p ∈ c.peers.map snd)
    (hthis : f.config.thisServerName = p.name) (hscope : hasScope p) :
    serveDefaultScopes f = .ok () (f.withScopes (setScope (noScopes f.peers) p.name true)) := by
  have hthisConfig : f.config.getThisServerConfig = .ok p := by
    rw [getThisServerConfig, hthis]
    exact h.getPeerConfig hp
  have hserve := serveScope_run ((h.withScopes (noScopes f.peers)).getPeerConfig hp)
  simp only [serveDefaultScopes, run_bind, run_get, hthisConfig, serveNoScopes, hscope]
  exact hserve

/-- The loop of `serveFailoverScopes`. -/
theorem FilterOf.forM_serveFailoverScope (hpeers : ∀ p ∈ peers, p ∈ c.peers.map snd) :
    peers.forM serveFailoverScope f =
      .ok () (f.withScopes ((peers.filter hasScope).foldl
        (fun scopes p => setScope scopes p.name true) f.scopes)) := by
  induction peers generalizing f with
  | nil => rfl
  | cons p peers ih =>
    obtain ⟨hp, hpeers⟩ := forall_mem_cons.mp hpeers
    show (serveFailoverScope p >>= fun _ => peers.forM serveFailoverScope) f = _
    rw [run_bind, serveFailoverScope]
    cases hscope : hasScope p with
    | true =>
      simp only [if_true, serveScope_run (h.getPeerConfig hp)]
      rw [ih (h.withScopes _) hpeers, filter_cons_of_pos hscope]
      rfl
    | false =>
      simp only [Bool.false_eq_true, if_false, run_pure]
      rw [ih h hpeers, filter_cons_of_neg (by simp [hscope])]

end

/-- The scopes that are served in a failover. -/
def failoverScopes (peers : List PeerConfig) : String → Option Bool :=
  (peers.filter hasScope).foldl (fun scopes p => setScope scopes p.name true) (noScopes peers)

theorem failoverScopes_of_mem (hp : p ∈ peers) (hscope : hasScope p) :
    failoverScopes peers p.name = some true := by
  rw [failoverScopes, foldl_setScope, if_pos ⟨p, mem_filter.mpr ⟨hp, hscope⟩, rfl⟩]

/-- After a failover it serves the scopes of both. -/
theorem FilterOf.serveFailoverScopes_run (h : FilterOf c p₁ p₂ f) :
    serveFailoverScopes f = .ok () (f.withScopes (failoverScopes f.peers)) := by
  have hmem : ∀ p ∈ f.peers, p ∈ c.peers.map snd := by
    rw [h.peers]
    rintro p (_ | ⟨_, _ | ⟨_, hp⟩⟩)
    · exact (mem_of_filter_role h.pair.primary).1
    · exact (mem_of_filter_role h.pair.secondary).1
    · exact (mem_filter.mp hp).1
  exact (h.withScopes (noScopes f.peers)).forM_serveFailoverScope hmem

/-! ## The filters of the servers -/

/-- The filter `f` with other scopes. -/
def SameBut (f g : QueryFilter) : Prop := ∃ scopes, g = f.withScopes scopes

theorem modify_withScopes_keeps (f : QueryFilter) (scopes : QueryFilter → String → Option Bool) :
    Keeps (SameBut f) (modify fun g => g.withScopes (scopes g) : FilterM Unit) := by
  rintro g ⟨_, rfl⟩
  exact ⟨_, rfl⟩

theorem serveScope_keeps : Keeps (SameBut f) (serveScope name) := by
  refine bind (bind get fun g => ?_) fun _ => modify_withScopes_keeps f _
  cases g.config.getPeerConfig name with
  | ok _ => exact pure ()
  | error _ => exact throw _

theorem serveDefaultScopes_keeps : Keeps (SameBut f) serveDefaultScopes := by
  refine bind get fun g => ?_
  cases g.config.getThisServerConfig with
  | error e => exact throw e
  | ok p =>
    refine bind (modify_withScopes_keeps f _) fun _ => ?_
    exact ite (fun _ => serveScope_keeps) fun _ => pure ()

/-- The filter before it serves its first scopes. -/
def unscoped (config : HAConfig) : QueryFilter :=
  let a := arrangeAll (config.peers.map snd)
  { config := config, peers := a.peers ++ a.backupPeers, scopes := fun _ => none
    activeServers := a.activeServers }

theorem Pair.filterOf_unscoped (h : Pair c p₁ p₂) (thisServerName : String) :
    FilterOf c p₁ p₂ (unscoped (c.loadedBy thisServerName)) := by
  have harranged := arrangeAll_eq h.primary h.secondary h.standby
  refine ⟨h, ⟨thisServerName, rfl⟩, ?_, ?_⟩
  · show (arrangeAll (c.peers.map snd)).peers ++
      (arrangeAll (c.peers.map snd)).backupPeers = _
    rw [harranged]
    rfl
  · show (arrangeAll (c.peers.map snd)).activeServers = 2
    rw [harranged]

/-- A new filter serves the default scopes of a valid configuration. -/
theorem new_eq_ok_iff {config : HAConfig} :
    new config = .ok f ↔
      config.validate = .ok () ∧ serveDefaultScopes (unscoped config) = .ok () f := by
  unfold new
  cases config.validate with
  | error e => simp [Bind.bind, Except.bind]
  | ok _ =>
    cases h : serveDefaultScopes (unscoped config) with
    | error e g | ok _ g =>
      rw [unscoped] at h
      simp [except_ok_bind, h, Pure.pure, Except.pure, MonadExcept.throw]

theorem Pair.filterOf (h : Pair c p₁ p₂) (hnew : new (c.loadedBy thisServerName) = .ok f) :
    FilterOf c p₁ p₂ f := by
  let f₀ := unscoped (c.loadedBy thisServerName)
  have hsame : SameBut f₀ (after serveDefaultScopes f₀) :=
    serveDefaultScopes_keeps f₀ ⟨f₀.scopes, rfl⟩
  rw [after, (new_eq_ok_iff.mp hnew).2] at hsame
  obtain ⟨scopes, rfl⟩ := hsame
  exact (h.filterOf_unscoped thisServerName).withScopes scopes

/-- The filter that each of the two servers makes for itself. -/
theorem Pair.new_run (h : Pair c p₁ p₂) (hvalid : c.validate = .ok ()) (hp : p ∈ c.peers.map snd)
    (hscope : hasScope p) :
    new (c.loadedBy p.name) = .ok ((unscoped (c.loadedBy p.name)).withScopes
      (setScope (noScopes (unscoped (c.loadedBy p.name)).peers) p.name true)) := by
  refine new_eq_ok_iff.mpr ⟨?_, (h.filterOf_unscoped p.name).serveDefaultScopes_run hp rfl hscope⟩
  obtain ⟨-, hrest⟩ := (validate_eq_ok_iff h.mode).mp hvalid
  refine (validate_eq_ok_iff (c := c.loadedBy p.name) h.mode).mpr ⟨?_, hrest⟩
  obtain ⟨e, he, rfl⟩ := mem_map.mp hp
  have hkey : e.1 = e.2.name := (h.names e he).symm.trans (c.names_trim e he).symm
  exact any_eq_true.mpr ⟨e, he, decide_eq_true hkey⟩

/-- Its own scope is served, the one of the other server is not. -/
theorem amServingScope_own {q : PeerConfig} (hq : q ∈ f.peers) (hne : q.name ≠ p.name) :
    (f.withScopes (setScope (noScopes f.peers) p.name true)).amServingScope p.name = true ∧
      (f.withScopes (setScope (noScopes f.peers) p.name true)).amServingScope q.name = false := by
  have hother : setScope (noScopes f.peers) p.name true q.name = some false := by
    rw [← noScopes_of_mem hq]
    exact update_of_ne hne _ _
  constructor
  · simp [amServingScope, withScopes, setScope]
  · simp [amServingScope, withScopes, hother]

/-! ## The server of a client -/

/-- The key of a query decides which server it is for. -/
theorem loadBalance4_eq (f : QueryFilter) (query : Query4) :
    f.loadBalance4 query = query.key.bind f.serverFor := by
  unfold loadBalance4 Query4.key
  cases query.clientId.filter (!·.isEmpty) with
  | some _ => rfl
  | none =>
    cases query.hwaddr with
    | none => rfl
    | some hwaddr => cases h : hwaddr.hwaddr.isEmpty <;> simp [Option.filter, h]

theorem loadBalance6_eq (f : QueryFilter) (query : Query6) :
    f.loadBalance6 query = query.key.bind f.serverFor := by
  unfold loadBalance6 Query6.key
  cases query.duid.filter (!·.isEmpty) <;> rfl

/-- The one of two servers that the hash of a key points to. -/
def chosen (p₁ p₂ : PeerConfig) (key : List UInt8) : PeerConfig :=
  if (loadBalanceHash key).toNat % 2 = 0 then p₁ else p₂

section

variable {Query : Type} {loadBalance : QueryFilter → Query → Option Nat}
  {key : Query → Option (List UInt8)}

/-- The queries of the clients, between the filters of two servers. -/
structure Shared (inScope : QueryFilter → Query → String → Bool × String)
    (key : Query → Option (List UInt8)) (f₁ f₂ : QueryFilter) : Prop where
  /-- One of the servers accepts the query and the other does not. -/
  one : ∀ query cls, (key query).isSome → (inScope f₁ query cls).1 = !(inScope f₂ query cls).1
  /-- Both attach the same class. -/
  sameClass : ∀ query cls cls', (key query).isSome →
    (inScope f₁ query cls).2 = (inScope f₂ query cls').2
  /-- Nothing of a query but its key matters. -/
  onlyKey : ∀ query query' cls, key query = key query' →
    inScope f₁ query cls = inScope f₁ query' cls ∧ inScope f₂ query cls = inScope f₂ query' cls

variable (hkey : ∀ f query, loadBalance f query = (key query).bind f.serverFor)

include hkey

variable {cls : String} {query : Query}

/-- A query is in scope for the servers that serve the scope of the chosen one. -/
theorem FilterOf.inScope_eq (h : FilterOf c p₁ p₂ f) {k : List UInt8} (hk : key query = some k) :
    inScopeInternal loadBalance f query cls =
      (f.amServingScope (chosen p₁ p₂ k).name, makeScopeClass (chosen p₁ p₂ k).name) := by
  obtain ⟨thisServerName, hconfig⟩ := h.config
  have hmode : f.config.haMode = .loadBalancing := by
    rw [hconfig]
    exact h.pair.mode
  have hserver : loadBalance f query = some ((loadBalanceHash k).toNat % 2) := by
    rw [hkey, hk, Option.bind_some, serverFor, h.active]
    rfl
  have hpeer : f.peers[(loadBalanceHash k).toNat % 2]? = some (chosen p₁ p₂ k) := by
    rw [h.peers, chosen]
    rcases Nat.mod_two_eq_zero_or_one (loadBalanceHash k).toNat with hmod | hmod <;> simp [hmod]
  simp only [inScopeInternal, hmode, hserver, Option.bind_some, hpeer]

theorem inScope_congr {query' : Query} (h : key query = key query') :
    inScopeInternal loadBalance f query cls = inScopeInternal loadBalance f query' cls := by
  unfold inScopeInternal
  rw [hkey, hkey, h]

/-- Each query is in the scope of one of the two servers. -/
theorem shared_of_scopes {f₁ f₂ : QueryFilter} (h₁ : FilterOf c p₁ p₂ f₁) (h₂ : FilterOf c p₁ p₂ f₂)
    (hown₁ : f₁.amServingScope p₁.name = true) (hother₁ : f₁.amServingScope p₂.name = false)
    (hown₂ : f₂.amServingScope p₂.name = true) (hother₂ : f₂.amServingScope p₁.name = false) :
    Shared (inScopeInternal loadBalance) key f₁ f₂ where
  one query cls hsome := by
    obtain ⟨k, hk⟩ := Option.isSome_iff_exists.mp hsome
    rw [h₁.inScope_eq hkey hk, h₂.inScope_eq hkey hk, chosen]
    split
    · rw [hown₁, hother₂, Bool.not_false]
    · rw [hother₁, hown₂, Bool.not_true]
  sameClass query cls cls' hsome := by
    obtain ⟨k, hk⟩ := Option.isSome_iff_exists.mp hsome
    rw [h₁.inScope_eq hkey hk, h₂.inScope_eq hkey hk]
  onlyKey query query' cls h := ⟨inScope_congr hkey h, inScope_congr hkey h⟩

/-- After a failover no query is left out. -/
theorem FilterOf.inScope_failover (h : FilterOf c p₁ p₂ f) (hsome : (key query).isSome) :
    (inScopeInternal loadBalance (f.withScopes (failoverScopes f.peers)) query cls).1 = true := by
  obtain ⟨k, hk⟩ := Option.isSome_iff_exists.mp hsome
  rw [(h.withScopes _).inScope_eq hkey hk]
  have hmem : chosen p₁ p₂ k ∈ f.peers := by
    rw [h.peers, chosen]
    split <;> simp
  have hscope : hasScope (chosen p₁ p₂ k) := by
    unfold chosen
    split <;> simp [hasScope, (mem_of_filter_role h.pair.primary).2,
      (mem_of_filter_role h.pair.secondary).2]
  show (failoverScopes f.peers (chosen p₁ p₂ k).name).getD true = true
  rw [failoverScopes_of_mem hmem hscope]
  rfl

end

/--
**Load balancing.** The primary and the secondary server of a valid configuration, each with the
filter that it builds for itself: a query that identifies its client is accepted by one of them
and not by the other, both attach the same class to it, and nothing but the identifier of the
client decides on that. A server that serves the scopes of a failover accepts all of them.
-/
theorem load_balancing (c : HAConfig) (p₁ p₂ : PeerConfig) (hmode : c.haMode = .loadBalancing)
    (hnames : ∀ e ∈ c.peers, trim e.1 = e.1) (hvalid : c.validate = .ok ())
    (hp₁ : p₁ ∈ c.peers.map snd) (hrole₁ : p₁.role = .primary)
    (hp₂ : p₂ ∈ c.peers.map snd) (hrole₂ : p₂.role = .secondary) :
    (∃ f₁ f₂, new (c.loadedBy p₁.name) = .ok f₁ ∧ new (c.loadedBy p₂.name) = .ok f₂ ∧
      (∀ scopes, serveDefaultScopes (f₁.withScopes scopes) = .ok () f₁) ∧
      (∀ scopes, serveDefaultScopes (f₂.withScopes scopes) = .ok () f₂) ∧
      Shared inScope4 Query4.key f₁ f₂ ∧ Shared inScope6 Query6.key f₁ f₂) ∧
    ∀ name f scopes, new (c.loadedBy name) = .ok f →
      ∃ g, serveFailoverScopes (f.withScopes scopes) = .ok () g ∧
        (∀ query cls, query.key.isSome → (inScope4 g query cls).1 = true) ∧
        ∀ query cls, query.key.isSome → (inScope6 g query cls).1 = true := by
  have hpair : Pair c p₁ p₂ := pair_of_validate hmode hnames hvalid hp₁ hrole₁ hp₂ hrole₂
  have hscope₁ : hasScope p₁ := by simp [hasScope, hrole₁]
  have hscope₂ : hasScope p₂ := by simp [hasScope, hrole₂]
  constructor
  · have hnew₁ := hpair.new_run hvalid hp₁ hscope₁
    have hnew₂ := hpair.new_run hvalid hp₂ hscope₂
    have hu₁ := hpair.filterOf_unscoped p₁.name
    have hu₂ := hpair.filterOf_unscoped p₂.name
    have hserve₁ := amServingScope_own hu₁.mem.2 hpair.name_ne.symm
    have hserve₂ := amServingScope_own hu₂.mem.1 hpair.name_ne
    refine ⟨_, _, hnew₁, hnew₂, fun scopes => ?_, fun scopes => ?_, ?_, ?_⟩
    · exact (hu₁.withScopes scopes).serveDefaultScopes_run hp₁ rfl hscope₁
    · exact (hu₂.withScopes scopes).serveDefaultScopes_run hp₂ rfl hscope₂
    · exact shared_of_scopes loadBalance4_eq (hu₁.withScopes _) (hu₂.withScopes _)
        hserve₁.1 hserve₁.2 hserve₂.1 hserve₂.2
    · exact shared_of_scopes loadBalance6_eq (hu₁.withScopes _) (hu₂.withScopes _)
        hserve₁.1 hserve₁.2 hserve₂.1 hserve₂.2
  · intro name f scopes hnew
    have hf := (hpair.filterOf hnew).withScopes scopes
    refine ⟨_, hf.serveFailoverScopes_run, fun query cls hsome => ?_, fun query cls hsome => ?_⟩
    · exact hf.inScope_failover loadBalance4_eq hsome
    · exact hf.inScope_failover loadBalance6_eq hsome

end QueryFilter

/-! ### A configuration with a backup server -/

namespace Sample

def peer (name : String) (role : Role) : String × PeerConfig :=
  (name, { name := name, url := { errorMessage := none }, role := role })

def balanced : HAConfig :=
  { thisServerName := "server1"
    haMode := .loadBalancing
    peers := [peer "server1" .secondary, peer "server2" .backup, peer "server3" .primary]
    keys_nodup := by decide
    names_trim := by decide }

end Sample

theorem QueryFilter.load_balancing_sample : ∃ f₁ f₂,
    new (Sample.balanced.loadedBy "server3") = .ok f₁ ∧
    new (Sample.balanced.loadedBy "server1") = .ok f₂ ∧
    (f₁.inScope6 { duid := some [0, 1, 2] } "").1 =
      !(f₂.inScope6 { duid := some [0, 1, 2] } "").1 := by
  obtain ⟨⟨f₁, f₂, hnew₁, hnew₂, -, -, -, hshared⟩, -⟩ :=
    load_balancing Sample.balanced (Sample.peer "server3" .primary).2
      (Sample.peer "server1" .secondary).2 rfl (by decide) (by decide) (by decide) rfl (by decide)
      rfl
  exact ⟨f₁, f₂, hnew₁, hnew₂, hshared.one _ _ rfl⟩

end Ha
