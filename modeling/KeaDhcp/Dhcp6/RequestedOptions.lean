import KeaDhcp.Dhcpsrv.CfgOption
import KeaDhcp.Dhcpsrv.Lease
import Mathlib.Data.FinEnum

/-!
# Requested options of a DHCPv6 answer

`Dhcpv6Srv::buildCfgOptionList`, `appendRequestedOptions` and `appendRequestedVendorOptions` of
`src/bin/dhcp6/dhcp6_srv.cc`. Unlike the DHCPv4 server, neither asks whether the answer has the
option already.
-/

namespace Dhcp.Dhcpv6Srv

open List

variable {ο : Type}

/-- What `buildCfgOptionList` reads of a query and its context. `getPool` looks for the pool of an
allocated address or prefix. -/
structure OptionScopes (ο : Type) where
  currentHost : Option (CfgOption ο)
  allocatedResources : List (Address 128 × Nat)
  getPool : Address 128 × Nat → Option (CfgOption ο)
  subnet : Option (CfgOption ο)
  sharedNetwork : Option (CfgOption ο)
  classes : List String
  findClass : String → Option (CfgOption ο)
  global : CfgOption ο

/-- The scopes in the order in which they are asked. -/
def OptionScopes.all (s : OptionScopes ο) : List (CfgOption ο) :=
  s.currentHost.toList ++
    (if s.subnet.isSome then
      s.allocatedResources.filterMap s.getPool ++ s.subnet.toList ++ s.sharedNetwork.toList
    else []) ++
    s.classes.filterMap s.findClass ++ [s.global]

def buildCfgOptionList (s : OptionScopes ο) : List (CfgOption ο) := s.all.filter (!·.empty)

variable (coList vendorList : List (OptionContainer ο)) (oro : List UInt16)

/-- The codes that the client requests, then the ones that are always sent. -/
def requestedOpts : List UInt16 := oro ++ persistentCodes coList

/-- The loop over the codes. A collection of DHCPv6 options takes a code a second time. -/
def addOptions (codes : List UInt16) (answer : List (UInt16 × ο)) : List (UInt16 × ο) :=
  codes.foldl (fun answer opt =>
    match firstOption coList opt with
    | some o => answer ++ [(opt, o)]
    | none => answer) answer

def appendRequestedOptions (answer : List (UInt16 × ο)) : List (UInt16 × ο) :=
  addOptions coList (requestedOpts coList oro) answer

/-- The vendor option that the answer gets; `vendorReq` has the codes that the one of the query
requests. -/
def appendRequestedVendorOptions (subnet : Bool) (vendorReq : Option (List UInt16)) :
    Option (List (UInt16 × ο)) := do
  guard subnet
  let oro ← vendorReq
  let vendorRsp := addOptions vendorList (requestedOpts vendorList oro) []
  if vendorRsp = [] then none else some vendorRsp

variable {coList vendorList oro} {c : UInt16} {codes : List UInt16} {answer : List (UInt16 × ο)}

theorem addOptions_eq : addOptions coList codes answer =
    answer ++ codes.filterMap fun opt => (firstOption coList opt).map (opt, ·) := by
  induction codes generalizing answer with
  | nil => simp [addOptions]
  | cons opt codes ih =>
    rw [addOptions, foldl_cons, ← addOptions, ih]
    cases hopt : firstOption coList opt <;> simp [hopt]

/-- An option that is not in the answer is added as often as its code is asked for. -/
theorem filter_addOptions {o : ο} (hc : c ∉ answer.map Prod.fst)
    (ho : firstOption coList c = some o) :
    (addOptions coList codes answer).filter (·.1 = c) = replicate (codes.count c) (c, o) := by
  have hnone : answer.filter (·.1 = c) = [] := by
    rw [filter_eq_nil_iff]
    rintro ⟨opt, o'⟩ hmem heq
    exact hc (mem_map.mpr ⟨_, hmem, of_decide_eq_true heq⟩)
  rw [addOptions_eq, filter_append, hnone, nil_append]
  induction codes with
  | nil => rfl
  | cons opt codes ih =>
    by_cases heq : opt = c
    · subst heq
      simp [ho, ih, replicate_succ]
    · cases hopt : firstOption coList opt <;> simp [hopt, heq, ih]

theorem codes_addOptions : (addOptions coList codes []).map Prod.fst =
    codes.filter fun opt => (firstOption coList opt).isSome := by
  rw [addOptions_eq, nil_append]
  induction codes with
  | nil => rfl
  | cons opt codes ih => cases hopt : firstOption coList opt <;> simp [hopt, ih]

theorem nodup_addOptions_iff : ((addOptions coList codes []).map Prod.fst).Nodup ↔
    ∀ c, firstOption coList c ≠ none → codes.count c ≤ 1 := by
  rw [codes_addOptions, nodup_iff_count_le_one]
  refine forall_congr' fun c => ?_
  cases hc : firstOption coList c with
  | none => simp [count_eq_zero_of_not_mem, hc]
  | some o => simp [count_filter, hc]

/--
The answer has each code once that is requested or always sent, configured and not there before,
from the first scope, and the vendor option has no code twice.
-/
def AnswersOnce (coList vendorList : List (OptionContainer ο)) (oro : List UInt16) (subnet : Bool)
    (vendorReq : Option (List UInt16)) (answer : List (UInt16 × ο)) : Prop :=
  (∀ c ∈ requestedOpts coList oro, c ∉ answer.map Prod.fst →
    ∀ o, firstOption coList c = some o →
      (appendRequestedOptions coList oro answer).filter (·.1 = c) = [(c, o)]) ∧
  ∀ vendorRsp ∈ appendRequestedVendorOptions vendorList subnet vendorReq,
    (vendorRsp.map Prod.fst).Nodup

/-- For any lists of scopes, no code that is configured may be asked for twice. -/
theorem answersOnce_list_iff {subnet : Bool} {vendorReq : Option (List UInt16)} :
    AnswersOnce coList vendorList oro subnet vendorReq answer ↔
      (∀ c, c ∉ answer.map Prod.fst → firstOption coList c ≠ none →
        (requestedOpts coList oro).count c ≤ 1) ∧
      (subnet → ∀ oro ∈ vendorReq, ∀ c, firstOption vendorList c ≠ none →
        (requestedOpts vendorList oro).count c ≤ 1) := by
  refine and_congr ⟨fun h c hc hne => ?_, fun h c hmem hc o ho => ?_⟩ ?_
  · obtain ⟨o, ho⟩ := Option.ne_none_iff_exists'.mp hne
    by_cases hmem : c ∈ requestedOpts coList oro
    · have hone := congrArg length (h c hmem hc o ho)
      rw [appendRequestedOptions, filter_addOptions hc ho, length_replicate] at hone
      exact Nat.le_of_eq hone
    · simp [count_eq_zero_of_not_mem hmem]
  · have hone : (requestedOpts coList oro).count c = 1 :=
      Nat.le_antisymm (h c hc (by simp [ho])) (count_pos_iff.mpr hmem)
    rw [appendRequestedOptions, filter_addOptions hc ho, hone]
    rfl
  · cases subnet <;> cases vendorReq with
    | none => simp [appendRequestedVendorOptions]
    | some oro =>
      by_cases hnil : addOptions vendorList (requestedOpts vendorList oro) [] = [] <;>
        simp [appendRequestedVendorOptions, ← nodup_addOptions_iff, hnil]

/--
**When requested options are answered once.** With the scopes that `buildCfgOptionList` finds, the
promise is kept if and only if no code that a scope of the client configures is asked for twice.
-/
theorem answersOnce_iff (s : OptionScopes ο) (oro : List UInt16)
    (vendorReq : Option (List UInt16)) (answer : List (UInt16 × ο)) :
    AnswersOnce ((buildCfgOptionList s).map (·.standard)) ((buildCfgOptionList s).map (·.vendor)) oro
        s.subnet.isSome vendorReq answer ↔
      (∀ c, c ∉ answer.map Prod.fst → firstOption (s.all.map (·.standard)) c ≠ none →
        (requestedOpts (s.all.map (·.standard)) oro).count c ≤ 1) ∧
      (s.subnet.isSome → ∀ oro ∈ vendorReq, ∀ c, firstOption (s.all.map (·.vendor)) c ≠ none →
        (requestedOpts (s.all.map (·.vendor)) oro).count c ≤ 1) := by
  simp only [answersOnce_list_iff, requestedOpts, buildCfgOptionList,
    firstOption_filter CfgOption.standard_of_empty, firstOption_filter CfgOption.vendor_of_empty,
    persistentCodes_filter CfgOption.standard_of_empty,
    persistentCodes_filter CfgOption.vendor_of_empty]

/-- The global scope configures the code 23. -/
def oneCode : OptionScopes Nat where
  currentHost := none
  allocatedResources := []
  getPool := fun _ => none
  subnet := none
  sharedNetwork := none
  classes := []
  findClass := fun _ => none
  global := ⟨[⟨23, 10, false⟩], [], false⟩

/-- A client that repeats the code gets the option twice. -/
theorem repeated_code_added_twice :
    appendRequestedOptions ((buildCfgOptionList oneCode).map (·.standard)) [23, 23] [] =
        [(23, 10), (23, 10)] ∧
      ¬AnswersOnce ((buildCfgOptionList oneCode).map (·.standard))
        ((buildCfgOptionList oneCode).map (·.vendor)) [23, 23] oneCode.subnet.isSome none [] := by
  refine ⟨rfl, fun h => ?_⟩
  have hone := h.1 23 (by decide) (by decide) 10 rfl
  cases hone

end Dhcp.Dhcpv6Srv
