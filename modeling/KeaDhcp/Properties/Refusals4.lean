import KeaDhcp.Dhcp4.Exchange
import KeaDhcp.Properties.Allocate4

/-!
# Refused requests

What the response to a DHCPREQUEST has when it is a DHCPNAK, and where it is sent to:
`Dhcpv4Srv::adjustRemoteAddr` of `src/bin/dhcp4/dhcp4_srv.cc`, and `processRequest` from the name on,
with the IP Address Lease Time option that `Response4` leaves out.
-/

namespace Dhcp

open Infra

/-- The fields of the query that decide where the response goes. -/
structure QueryHeader where
  isDhcp4o6 : Bool
  /-- The query is a DHCPINFORM. -/
  inform : Bool
  ciaddr : Address 32
  giaddr : Address 32
  remoteAddr : Address 32
  broadcastFlag : Bool

def bcastAddress : Address 32 := 0xffffffff

def QueryHeader.isRelayed (q : QueryHeader) : Bool := q.giaddr ≠ 0 && q.giaddr ≠ bcastAddress

/-- `adjustRemoteAddr`, without the flags that it sets in the response to a relayed DHCPINFORM. -/
def adjustRemoteAddr (isDirectResponseSupported : Bool) (q : QueryHeader) (resp : Response4) :
    Address 32 :=
  if q.isDhcp4o6 then q.remoteAddr
  else if q.inform then
    if q.ciaddr ≠ 0 then q.ciaddr else if q.isRelayed then q.giaddr else q.remoteAddr
  else if q.isRelayed then q.giaddr
  else if q.ciaddr ≠ 0 then q.ciaddr
  else if resp.type = .nak then bcastAddress
  else if resp.yiaddr ≠ 0 then
    if !isDirectResponseSupported || q.broadcastFlag then bcastAddress else resp.yiaddr
  else q.remoteAddr

variable (env : Env) (x : Exchange4)

/-- `assignLease` for a request: the response, and its lease time option. -/
def assignTimedLease : Engine4 (Option (Response4 × Option Nat)) :=
  match x.subnet with
  | none => return some ({ type := .nak, yiaddr := 0, name := x.name }, none)
  | some s => do
    match x.check false (← get).leases s with
    | .ignore => return none
    | .refuse => return some ({ type := .nak, yiaddr := 0, name := x.name }, none)
    | .proceed =>
      let result ← allocateLease4 env (x.context false)
      let resp ← respond env false x result
      return resp.map fun resp => (resp, result.newLease.map (·.validLft))

/-- `processRequest`: the name of the client is processed before a lease is assigned. -/
def processTimedRequest (o : NameOptions) : Engine4 (Option (Response4 × Option Nat)) :=
  match processClientName env.d2 x o with
  | .ok x => assignTimedLease env x
  | .error _ => throw .nullPointer

/-! ## Queries without a name -/

variable {env x} {st st' : Server4} {resp : Response4} {leaseTime : Option Nat} {o : NameOptions}
  {d2 : D2Client} {fqdn : Option4ClientFqdn} {value : String} {name : ClientName}

/-- The Client FQDN option is not answered: its flags, or the name for the answer, are invalid. -/
inductive FqdnRefused (d2 : D2Client) (x : Exchange4) (fqdn : Option4ClientFqdn) : Prop
  | flags (hs : fqdn.flagS = true) (hn : fqdn.flagN = true)
  | reserved {hostname : String} (hres : x.reservedHostname = some hostname)
      (hinvalid : fqdn.setDomainName (d2.qualifyName hostname true) .full = .error .exception)
  | client (hres : x.reservedHostname = none)
      (hinvalid : d2.adjustDomainName fqdn = .error .exception)

/-- The Hostname option is not answered: it is blank or invalid, or nothing is left of the name. -/
inductive HostnameRefused (d2 : D2Client) (hostname : String) : Prop
  | blank (hcount : labelCount hostname = .ok 0)
  | invalid (hcount : labelCount hostname = .error .exception)
  | scrubbed {count : Nat} (hcount : labelCount hostname = .ok count) (htwo : 2 ≤ count)
      (hkept : d2.replacesPresent = false)
      (hnothing : sentHostname d2 count hostname = .error .exception ∨
        sentHostname d2 count hostname = .ok "")

/-- The server has no name for the response to the query. -/
inductive Nameless (d2 : D2Client) (x : Exchange4) (o : NameOptions) : Prop
  | fqdn {fqdn : Option4ClientFqdn} (hfqdn : o.fqdn = some fqdn) (hrefused : FqdnRefused d2 x fqdn)
  | reserved (hfqdn : o.fqdn = none) {hostname : String}
      (hwanted : wantedHostname x o = some hostname) (hempty : d2.qualifyName hostname false = "")
  | hostname (hfqdn : o.fqdn = none) (hwanted : wantedHostname x o = none) {value : String}
      (hvalue : o.hostname = some value)
      (hrefused : HostnameRefused d2 (Util.trim value))
  | unasked (hfqdn : o.fqdn = none) (hwanted : wantedHostname x o = none)
      (hvalue : o.hostname = none) (halways : d2.replaceClientNameMode ≠ .always)
      (habsent : d2.replaceClientNameMode ≠ .whenNotPresent)

/-- The option is not added to the response, and the server lives on. -/
def NotAdded (added : Except NameError ClientName) : Prop :=
  added = .error .exception ∨ added = .ok .absent

theorem hostnameOption_notAdded_iff : NotAdded (hostnameOption value) ↔ value = "" := by
  unfold NotAdded hostnameOption
  split <;> simp [*]

/-- An answer to the Client FQDN option is lost with its name only. -/
theorem notAdded_bind_fqdn_iff (named : Except NameError Option4ClientFqdn) {fwd rev : Bool} :
    NotAdded (do
        let resp ← named
        let name ← resp.getDomainName.mapError fun _ => .abort
        return .fqdn name fwd rev) ↔ named = .error .exception := by
  unfold NotAdded
  cases named with
  | error e => simp [bind, Except.bind]
  | ok resp => cases hname : resp.getDomainName <;> simp [bind, Except.bind, Except.mapError, hname,
      pure, Except.pure]

theorem processClientFqdnOption_notAdded_iff :
    NotAdded (processClientFqdnOption d2 x fqdn) ↔ FqdnRefused d2 x fqdn := by
  unfold processClientFqdnOption
  cases hflags : d2.analyzeFqdn fqdn.flagS fqdn.flagN with
  | error e =>
    have hboth : fqdn.flagS = true ∧ fqdn.flagN = true ∧ e = .exception := by
      unfold D2Client.analyzeFqdn at hflags
      split at hflags <;> simp_all
    obtain ⟨hs, hn, rfl⟩ := hboth
    exact iff_of_true (.inl rfl) (.flags hs hn)
  | ok flags =>
    have hnot : ¬(fqdn.flagS = true ∧ fqdn.flagN = true) := by
      rintro ⟨hs, hn⟩
      rw [hs, hn] at hflags
      cases hflags
    refine (notAdded_bind_fqdn_iff (nameFqdnAnswer d2 x fqdn)).trans ?_
    unfold nameFqdnAnswer
    constructor
    · intro h
      split at h
      · rename_i hres
        exact .reserved hres h
      · rename_i hres
        exact .client hres h
    · rintro (⟨hs, hn⟩ | ⟨hres, hinvalid⟩ | ⟨hres, hinvalid⟩)
      · exact absurd ⟨hs, hn⟩ hnot
      · rw [hres]
        exact hinvalid
      · rw [hres]
        exact hinvalid

theorem answerHostname_notAdded_iff :
    NotAdded (answerHostname d2 value) ↔
      HostnameRefused d2 (Util.trim value) := by
  unfold answerHostname
  dsimp only
  generalize Util.trim value = hostname
  cases hcount : labelCount hostname with
  | error e =>
    show NotAdded (.error e) ↔ _
    constructor
    · rintro (h | h) <;> cases h
      exact .invalid hcount
    · rintro (h | h | ⟨h, -⟩) <;> rw [hcount] at h <;> cases h
      exact .inl rfl
  | ok count =>
    show NotAdded (if count = 0 then _ else _) ↔ _
    split
    · rename_i hzero
      subst hzero
      exact iff_of_true (.inr rfl) (.blank hcount)
    split
    · rename_i hzero hreplace
      refine iff_of_false (fun h => by simpa using hostnameOption_notAdded_iff.mp h) ?_
      rintro (h | h | ⟨h, htwo, hkept, -⟩) <;> rw [hcount] at h <;> cases h
      · exact hzero rfl
      · rw [hkept] at hreplace
        simp at hreplace
        omega
    · rename_i hzero hreplace
      simp only [Bool.or_eq_true, decide_eq_true_eq, not_or, Bool.not_eq_true, not_lt] at hreplace
      cases hsent : sentHostname d2 count hostname with
      | error e =>
        show NotAdded (.error e) ↔ _
        constructor
        · rintro (h | h) <;> cases h
          exact .scrubbed hcount hreplace.2 hreplace.1 (.inl hsent)
        · rintro (h | h | ⟨h, -, -, hnothing⟩) <;> rw [hcount] at h <;> cases h
          · exact absurd rfl hzero
          · rw [hsent] at hnothing
            simpa [NotAdded] using hnothing
      | ok name =>
        refine Iff.trans hostnameOption_notAdded_iff ⟨fun h => ?_, ?_⟩
        · exact .scrubbed hcount hreplace.2 hreplace.1 (.inr (h ▸ hsent))
        · rintro (h | h | ⟨h, -, -, hnothing⟩) <;> rw [hcount] at h <;> cases h
          · exact absurd rfl hzero
          · rw [hsent] at hnothing
            simpa using hnothing

theorem processHostnameOption_notAdded_iff (hfqdn : o.fqdn = none) :
    NotAdded (processHostnameOption d2 x o) ↔ Nameless d2 x o := by
  unfold processHostnameOption
  cases hwanted : wantedHostname x o with
  | some hostname =>
    refine hostnameOption_notAdded_iff.trans ⟨fun h => .reserved hfqdn hwanted h, ?_⟩
    rintro (⟨h, -⟩ | ⟨-, h, hempty⟩ | ⟨-, h, -⟩ | ⟨-, h, -⟩)
    · rw [hfqdn] at h
      cases h
    · rw [hwanted] at h
      exact Option.some.inj h ▸ hempty
    all_goals
      rw [hwanted] at h
      cases h
  | none =>
    cases hvalue : o.hostname with
    | some value =>
      refine answerHostname_notAdded_iff.trans ⟨fun h => .hostname hfqdn hwanted hvalue h, ?_⟩
      rintro (⟨h, -⟩ | ⟨-, h, -⟩ | ⟨-, -, h, hrefused⟩ | ⟨-, -, h, -⟩)
      · rw [hfqdn] at h
        cases h
      · rw [hwanted] at h
        cases h
      · rw [hvalue] at h
        exact Option.some.inj h ▸ hrefused
      · rw [hvalue] at h
        cases h
    | none =>
      dsimp only
      split
      · rename_i hmode
        refine iff_of_false (fun h => by simpa using hostnameOption_notAdded_iff.mp h) ?_
        rintro (⟨h, -⟩ | ⟨-, h, -⟩ | ⟨-, -, h, -⟩ | ⟨-, -, -, halways, habsent⟩)
        · rw [hfqdn] at h
          cases h
        · rw [hwanted] at h
          cases h
        · rw [hvalue] at h
          cases h
        · simp [halways, habsent] at hmode
      · rename_i hmode
        simp only [Bool.or_eq_true, decide_eq_true_eq, not_or] at hmode
        exact iff_of_true (.inr rfl) (.unasked hfqdn hwanted hvalue hmode.1 hmode.2)

/-- **The queries without a name**: `processClientName` leaves the response without one. -/
theorem name_absent_iff {x' : Exchange4} (h : processClientName d2 x o = .ok x') :
    x'.name = .absent ↔ Nameless d2 x o := by
  have hadded : x'.name = .absent ↔ NotAdded (nameOption d2 x o) := by
    unfold processClientName at h
    unfold NotAdded
    split at h
    · rename_i name hname
      cases h
      simp [hname]
    · rename_i hname
      cases h
      simp [hname]
    · cases h
  rw [hadded, nameOption]
  cases hfqdn : o.fqdn with
  | some fqdn =>
    refine processClientFqdnOption_notAdded_iff.trans ⟨fun h => .fqdn hfqdn h, ?_⟩
    rintro (⟨h, hrefused⟩ | ⟨h, -⟩ | ⟨h, -⟩ | ⟨h, -⟩)
    · rw [hfqdn] at h
      exact Option.some.inj h ▸ hrefused
    all_goals
      rw [hfqdn] at h
      cases h
  | none => exact processHostnameOption_notAdded_iff hfqdn

/-! ## Refusals -/

/-- The engine has refused: the response has no name, whatever the client sent. -/
theorem respond_nak {result : Allocation4} (hrun : respond env false x result st = .ok (some resp) st')
    (hnak : resp.type = .nak) : result.newLease = none ∧ resp.yiaddr = 0 ∧ resp.name = .absent := by
  unfold respond at hrun
  cases hlease : result.newLease with
  | none =>
    rw [hlease] at hrun
    cases hrun
    exact ⟨rfl, rfl, rfl⟩
  | some lease =>
    rw [hlease] at hrun
    obtain ⟨⟨lease', name⟩, st₁, -, hrun⟩ := bind_eq_ok hrun
    dsimp only at hrun
    split at hrun
    · obtain ⟨_, _, -, hrun⟩ := bind_eq_ok hrun
      cases hrun
      cases hnak
    · cases hrun
      cases hnak

/-- A refusal has a name left only if the engine has not been asked. -/
theorem assignTimedLease_nak (hrun : assignTimedLease env x st = .ok (some (resp, leaseTime)) st')
    (hnak : resp.type = .nak) :
    resp.yiaddr = 0 ∧ leaseTime = none ∧ (resp.name = .absent ↔
        x.name = .absent ∨ ∃ s, x.subnet = some s ∧ x.check false st.leases s = .proceed) := by
  unfold assignTimedLease at hrun
  cases hsubnet : x.subnet with
  | none =>
    rw [hsubnet] at hrun
    cases hrun
    simp
  | some s =>
    rw [hsubnet] at hrun
    dsimp only at hrun
    rw [run_bind_ok (run_get st)] at hrun
    cases hcheck : x.check false st.leases s with
    | ignore =>
      rw [hcheck] at hrun
      cases hrun
    | refuse =>
      rw [hcheck] at hrun
      cases hrun
      simp [hcheck]
    | proceed =>
      rw [hcheck] at hrun
      obtain ⟨result, st₁, -, hrun⟩ := bind_eq_ok hrun
      obtain ⟨answer, st₂, hrespond, hrun⟩ := bind_eq_ok hrun
      cases answer with
      | none => cases hrun
      | some r =>
        cases hrun
        obtain ⟨hlease, hyiaddr, hname⟩ := respond_nak hrespond hnak
        simp [hlease, hyiaddr, hname, hcheck]

theorem adjustRemoteAddr_nak {direct : Bool} {q : QueryHeader} (hquery : q.isDhcp4o6 = false)
    (hrequest : q.inform = false) (hnak : resp.type = .nak) :
    adjustRemoteAddr direct q resp = (if q.isRelayed then q.giaddr else bcastAddress) ↔
      q.isRelayed ∨ q.ciaddr = 0 ∨ q.ciaddr = bcastAddress := by
  unfold adjustRemoteAddr
  rw [hquery, hrequest, hnak]
  cases q.isRelayed <;> by_cases hciaddr : q.ciaddr = 0#32 <;> simp [hciaddr]

theorem Exchange4.check_of_name {x' : Exchange4} (h : processClientName env.d2 x o = .ok x') :
    x'.subnet = x.subnet ∧ ∀ fake db s, x'.check fake db s = x.check fake db s := by
  unfold processClientName at h
  split at h <;> cases h <;> exact ⟨rfl, fun _ _ _ => rfl⟩

/--
**When a refusal is clean.** A DHCPNAK has no address and no lease time. It carries no name and
reaches the client exactly if the query calls for no name or the engine was asked for a lease, and
if the query was relayed or did not have `ciaddr` set.
-/
theorem nak_clean_iff (env : Env) (x : Exchange4) (o : NameOptions) (st st' : Server4)
    (resp : Response4) (leaseTime : Option Nat) (direct : Bool) (q : QueryHeader)
    (hrun : processTimedRequest env x o st = .ok (some (resp, leaseTime)) st')
    (hnak : resp.type = .nak) (hquery : q.isDhcp4o6 = false) (hrequest : q.inform = false) :
    (resp.yiaddr = 0 ∧ resp.name = .absent ∧ leaseTime = none ∧
        adjustRemoteAddr direct q resp = if q.isRelayed then q.giaddr else bcastAddress) ↔
      (Nameless env.d2 x o ∨ ∃ s, x.subnet = some s ∧ x.check false st.leases s = .proceed) ∧
        (q.isRelayed ∨ q.ciaddr = 0 ∨ q.ciaddr = bcastAddress) := by
  unfold processTimedRequest at hrun
  cases hname : processClientName env.d2 x o with
  | error e =>
    rw [hname] at hrun
    cases hrun
  | ok x' =>
    rw [hname] at hrun
    obtain ⟨hyiaddr, htime, habsent⟩ := assignTimedLease_nak hrun hnak
    obtain ⟨hsubnet, hcheck⟩ := Exchange4.check_of_name hname
    simp only [name_absent_iff hname, hsubnet, hcheck] at habsent
    rw [adjustRemoteAddr_nak hquery hrequest hnak, habsent]
    simp [hyiaddr, htime]

namespace Sample

/-- A request of client 1 for an address, with a Hostname option. -/
def namedRequest (subnet : Option (SubnetPtr 32)) (ciaddr : Address 32)
    (requested : Option (Address 32)) : Exchange4 × QueryHeader :=
  ({ subnet := subnet, hwaddr := some (mac 1), clientId := none, ciaddr := ciaddr
     requestedAddress := requested, serverId := true, classes := [], hosts := []
     hostIdentifiers := [], name := .absent },
   { isDhcp4o6 := false, inform := false, ciaddr := ciaddr, giaddr := 0, remoteAddr := 0
     broadcastFlag := false })

def pc : NameOptions := { fqdn := none, hostname := some "pc", requested := [] }

end Sample

open Sample

/-- The engine refuses an address that is in no pool. The name goes, and the refusal is broadcast. -/
theorem nak_clean_sample :
    let (x, q) := namedRequest (some ptr1) 0 (some 0xC0000263#32)
    processTimedRequest (envAt 0 noHosts) x pc (serverWith []) =
        .ok (some (⟨.nak, 0, .absent⟩, none)) (serverWith []) ∧
      adjustRemoteAddr true q ⟨.nak, 0, .absent⟩ = bcastAddress := by
  have hclean := nak_clean_iff (envAt 0 noHosts)
    (namedRequest (some ptr1) 0 (some 0xC0000263#32)).1 pc (serverWith []) (serverWith []) _ _ true
    (namedRequest (some ptr1) 0 (some 0xC0000263#32)).2 rfl rfl rfl rfl
  exact ⟨rfl, (hclean.mpr ⟨.inr ⟨ptr1, rfl, rfl⟩, .inr (.inl rfl)⟩).2.2.2⟩

/-- The name that the client sent is left in the response, which goes to the address in `ciaddr`. -/
theorem nak_with_name_unicast :
    let (x, q) := namedRequest none 0xC0000201#32 none
    processTimedRequest (envAt 0 noHosts) x pc (serverWith []) =
        .ok (some (⟨.nak, 0, .hostname "pc"⟩, none)) (serverWith []) ∧
      adjustRemoteAddr true q ⟨.nak, 0, .hostname "pc"⟩ = 0xC0000201#32 :=
  ⟨rfl, rfl⟩

end Dhcp
