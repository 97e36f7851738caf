import KeaDhcp.Dhcpsrv.CfgOption
import KeaDhcp.Dhcpsrv.Lease

/-!
# Configured options of a DHCPv4 response

`Dhcpv4Srv::buildCfgOptionList`, `appendRequestedOptions` and `appendBasicOptions` of
`src/bin/dhcp4/dhcp4_srv.cc`.
-/

namespace Dhcp

open List

variable {ο : Type}

/-- The codes of the space `dhcp4` are octets, as the configuration parser demands. -/
structure CfgOption4 (ο : Type) extends CfgOption ο where
  octet : ∀ desc ∈ standard, desc.type.toUInt8.toUInt16 = desc.type

/-- What `buildCfgOptionList` reads of an exchange. -/
structure OptionScopes (ο : Type) where
  currentHost : Option (CfgOption4 ο)
  yiaddr : Address 32
  getPool : Address 32 → Option (CfgOption4 ο)
  subnet : Option (CfgOption4 ο)
  sharedNetwork : Option (CfgOption4 ο)
  classes : List String
  findClass : String → Option (CfgOption4 ο)
  global : CfgOption4 ο

namespace OptionScopes

/-- The scopes in the order in which they are asked. -/
def all (s : OptionScopes ο) : List (CfgOption4 ο) :=
  s.currentHost.toList ++ (if s.yiaddr = 0 then none else s.getPool s.yiaddr).toList ++
    s.subnet.toList ++ s.sharedNetwork.toList ++ s.classes.filterMap s.findClass ++ [s.global]

/-- What the scopes configure in a space, those without options included. -/
def spaces (s : OptionScopes ο) (space : CfgOption ο → OptionContainer ο) :
    List (OptionContainer ο) :=
  (s.all.map (·.toCfgOption)).map space

/-- The option of the first scope that configures the code. -/
def first (s : OptionScopes ο) (c : UInt8) : Option ο := firstOption (s.spaces (·.standard)) c.toUInt16

/-- Some scope configures the code as one that is always sent. -/
def AlwaysSends (s : OptionScopes ο) (c : UInt8) : Prop :=
  ∃ cfg ∈ s.all, ∃ desc ∈ cfg.standard, desc.persistent ∧ desc.type = c.toUInt16

end OptionScopes

/-- Without a subnet the list stays empty. -/
def buildCfgOptionList (s : OptionScopes ο) : List (CfgOption ο) :=
  if s.subnet.isNone then [] else (s.all.map (·.toCfgOption)).filter (!·.empty)

variable (coList : List (OptionContainer ο))

/-- The option from the first scope of the list that configures the code. -/
def configured (code : UInt8) : Option ο := firstOption coList code.toUInt16

/-- The codes that the client requests, then the ones that are always sent, cut to an octet. -/
def requestedCodes (oro : List UInt8) : List UInt8 :=
  oro ++ (persistentCodes coList).map (·.toUInt8)

/-- Add nothing when it is already there. -/
def addConfigured (resp : List (UInt8 × ο)) (opt : UInt8) : List (UInt8 × ο) :=
  if opt ∈ resp.map Prod.fst then resp
  else match configured coList opt with
    | some o => resp ++ [(opt, o)]
    | none => resp

def appendRequestedOptions (prl : List UInt8) (resp : List (UInt8 × ο)) : List (UInt8 × ο) :=
  (requestedCodes coList prl).foldl (addConfigured coList) resp

/-- Routers, domain name servers, domain name and server identifier. -/
def requiredOptions : List UInt8 := [3, 6, 15, 54]

def appendBasicOptions (resp : List (UInt8 × ο)) : List (UInt8 × ο) :=
  requiredOptions.foldl (addConfigured coList) resp

theorem foldl_addConfigured (codes : List UInt8) (resp : List (UInt8 × ο)) :
    ∃ added, codes.foldl (addConfigured coList) resp = resp ++ added ∧ (added.map Prod.fst).Nodup ∧
      ∀ c o, (c, o) ∈ added ↔
        c ∉ resp.map Prod.fst ∧ c ∈ codes ∧ configured coList c = some o := by
  induction codes generalizing resp with
  | nil => exact ⟨[], by simp⟩
  | cons opt codes ih =>
    by_cases hadd : opt ∉ resp.map Prod.fst ∧ ∃ o, configured coList opt = some o
    · obtain ⟨hfree, o, ho⟩ := hadd
      obtain ⟨added, heq, hnodup, hmem⟩ := ih (resp ++ [(opt, o)])
      have hstep : addConfigured coList resp opt = resp ++ [(opt, o)] := by
        rw [addConfigured, if_neg hfree, ho]
      refine ⟨(opt, o) :: added, by simp [hstep, heq], ?_, fun c o' => ?_⟩
      · rw [map_cons, nodup_cons]
        refine ⟨fun h => ?_, hnodup⟩
        obtain ⟨⟨c, o'⟩, hin, rfl⟩ := mem_map.mp h
        exact ((hmem _ _).mp hin).1 (by simp)
      · rw [mem_cons, hmem]
        by_cases hc : c = opt
        · subst hc
          simp [ho, eq_comm, hfree]
        · simp [hc]
    · obtain ⟨added, heq, hnodup, hmem⟩ := ih resp
      have hstep : addConfigured coList resp opt = resp := by
        unfold addConfigured
        split
        · rfl
        cases ho : configured coList opt with
        | none => rfl
        | some o => exact absurd ⟨‹_›, o, ho⟩ hadd
      refine ⟨added, by rw [foldl_cons, hstep, heq], hnodup, fun c o => ?_⟩
      rw [hmem, mem_cons]
      refine and_congr_right fun hc => and_congr_left fun ho => (or_iff_right ?_).symm
      rintro rfl
      exact hadd ⟨hc, o, ho⟩

section Scopes

variable {s : OptionScopes ο} (hsubnet : s.subnet.isNone = false)
variable {space : CfgOption ο → OptionContainer ο}
variable (hspace : ∀ cfg, cfg.empty = true → space cfg = [])
include hsubnet hspace

theorem configured_build (c : UInt8) :
    configured ((buildCfgOptionList s).map space) c = firstOption (s.spaces space) c.toUInt16 := by
  simp only [buildCfgOptionList, hsubnet, Bool.false_eq_true, if_false]
  exact firstOption_filter hspace c.toUInt16

theorem requestedCodes_build (prl : List UInt8) :
    requestedCodes ((buildCfgOptionList s).map space) prl = requestedCodes (s.spaces space) prl := by
  simp only [buildCfgOptionList, hsubnet, Bool.false_eq_true, if_false, requestedCodes]
  rw [persistentCodes_filter hspace, OptionScopes.spaces]

end Scopes

theorem mem_requestedCodes_iff {s : OptionScopes ο} {c : UInt8} {prl : List UInt8} :
    c ∈ requestedCodes (s.spaces (·.standard)) prl ↔ c ∈ prl ∨ s.AlwaysSends c := by
  simp only [requestedCodes, persistentCodes, OptionScopes.spaces, mem_append, mem_flatMap, mem_map,
    mem_filter]
  refine or_congr_right ⟨?_, ?_⟩
  · rintro ⟨_, ⟨_, ⟨_, ⟨cfg, hcfg, rfl⟩, rfl⟩, desc, ⟨hdesc, hpersistent⟩, rfl⟩, rfl⟩
    exact ⟨cfg, hcfg, desc, hdesc, hpersistent, (cfg.octet desc hdesc).symm⟩
  · rintro ⟨cfg, hcfg, desc, hdesc, hpersistent, htype⟩
    exact ⟨_, ⟨_, ⟨_, ⟨cfg, hcfg, rfl⟩, rfl⟩, desc, ⟨hdesc, hpersistent⟩, rfl⟩, by simp [htype]⟩

/--
**What a response gets from the configuration.** It keeps its options. In a subnet it also gets the
requested, persistent and required options that a scope configures, each once and from the first
such scope.
-/
theorem configured_options_added (s : OptionScopes ο) (prl : List UInt8) (resp : List (UInt8 × ο)) :
    ∃ added, appendBasicOptions ((buildCfgOptionList s).map (·.standard))
        (appendRequestedOptions ((buildCfgOptionList s).map (·.standard)) prl resp) = resp ++ added ∧
      (added.map Prod.fst).Nodup ∧
      ∀ c o, (c, o) ∈ added ↔ s.subnet.isSome ∧ c ∉ resp.map Prod.fst ∧
        (c ∈ prl ∨ s.AlwaysSends c ∨ c ∈ requiredOptions) ∧ s.first c = some o := by
  obtain ⟨added, heq, hnodup, hmem⟩ := foldl_addConfigured ((buildCfgOptionList s).map (·.standard))
    (requestedCodes ((buildCfgOptionList s).map (·.standard)) prl ++ requiredOptions) resp
  rw [foldl_append] at heq
  refine ⟨added, heq, hnodup, fun c o => (hmem c o).trans ?_⟩
  cases hsubnet : s.subnet.isNone with
  | true => simp_all [configured, buildCfgOptionList, firstOption]
  | false =>
    have hsome : s.subnet.isSome := by simpa [Option.isSome_iff_ne_none] using hsubnet
    rw [configured_build hsubnet CfgOption.standard_of_empty,
      requestedCodes_build hsubnet CfgOption.standard_of_empty, mem_append, mem_requestedCodes_iff]
    simp [OptionScopes.first, or_assoc, hsome]

/-- An option that only the global scope configures, for a client without a subnet. -/
def globalRouters : OptionScopes Nat where
  currentHost := none
  yiaddr := 0
  getPool := fun _ => none
  subnet := none
  sharedNetwork := none
  classes := []
  findClass := fun _ => none
  global := ⟨⟨[⟨3, 10, true⟩], [], false⟩, by decide⟩

theorem routers_not_sent : globalRouters.first 3 = some 10 ∧
    appendBasicOptions ((buildCfgOptionList globalRouters).map (·.standard))
      (appendRequestedOptions ((buildCfgOptionList globalRouters).map (·.standard)) [3] []) = [] := by
  decide

end Dhcp
