import KeaDhcp.Dhcpsrv.CfgSubnets
import KeaDhcp.Properties.Allocate4

/-!
# Class guards in the selection of a subnet

A subnet that is selected is the first one that meets the criterion and lets the client in, by its
own class and that of its shared network. Only `selectSubnet4o6` does not ask for the classes.
-/

namespace Dhcp

open ConfiguredSubnet Option Except

variable {ι : Type} [DecidableEq ι] {w : Nat} {subnets : List (ConfiguredSubnet ι w)}
  {classes : ClientClasses} {criterion : ConfiguredSubnet ι w → Bool} {s : ConfiguredSubnet ι w}

/-- The subnet is the first that meets the criterion and supports the client. -/
structure FirstSupported (subnets : List (ConfiguredSubnet ι w)) (classes : ClientClasses)
    (criterion : ConfiguredSubnet ι w → Bool) (s : ConfiguredSubnet ι w) : Prop where
  supported : s.ptr.clientSupported classes = true
  meets : criterion s = true
  first : ∃ pre post, subnets = pre ++ s :: post ∧
    ∀ t ∈ pre, ¬(criterion t = true ∧ t.ptr.clientSupported classes = true)

omit [DecidableEq ι] in
theorem firstSupported_of_firstFor (h : firstFor subnets classes criterion = some s) :
    FirstSupported subnets classes criterion s := by
  obtain ⟨hs, pre, post, hsplit, hpre⟩ := List.find?_eq_some_iff_append.mp h
  obtain ⟨hmeets, hsupported⟩ := Bool.and_eq_true_iff.mp hs
  refine ⟨hsupported, hmeets, pre, post, hsplit, fun t ht hboth => ?_⟩
  simpa [hboth] using hpre t ht

/-- The criteria of `CfgSubnets4::selectSubnet`, with the addresses and names that it uses. -/
inductive Decides4 (ifaces : String → Option (Option (Address 32))) (selector : SubnetSelector ι) :
    (ConfiguredSubnet ι 32 → Bool) → Prop
  | relay : Decides4 ifaces selector (hasRelay4 selector.giaddr)
  | iface : Decides4 ifaces selector (onIface4 selector.ifaceName)
  | address (a : IOAddress)
      (ha : a ∈ [selector.optionSelect, selector.giaddr, selector.ciaddr, selector.remoteAddress] ∨
        ∃ b, ifaces selector.ifaceName = some (some b) ∧ a = .v4 b) :
      Decides4 ifaces selector (inRange4 a)

/-- The criteria of `CfgSubnets6::selectSubnet`. -/
inductive Decides6 (selector : SubnetSelector ι) : (ConfiguredSubnet ι 128 → Bool) → Prop
  | iface : Decides6 selector (onIface6 selector.ifaceName)
  | interfaceId : Decides6 selector (hasInterfaceId6 selector.interfaceId)
  | relay : Decides6 selector (hasRelay6 selector.firstRelayLinkaddr)
  | address (a : IOAddress) (ha : a ∈ [selector.remoteAddress, selector.firstRelayLinkaddr]) :
      Decides6 selector (inRange6 a)

variable {selector : SubnetSelector ι}

omit [DecidableEq ι] in
theorem selectSubnet4_guarded {ifaces : String → Option (Option (Address 32))}
    {subnets : List (ConfiguredSubnet ι 32)} {s : ConfiguredSubnet ι 32}
    (h : selectSubnet4 ifaces subnets selector = .ok (some s)) :
    ∃ criterion, Decides4 ifaces selector criterion ∧
      FirstSupported subnets selector.clientClasses criterion s := by
  have found : ∀ {criterion}, Decides4 ifaces selector criterion →
      firstFor subnets selector.clientClasses criterion = some s →
      ∃ criterion, Decides4 ifaces selector criterion ∧
        FirstSupported subnets selector.clientClasses criterion s :=
    fun hc hs => ⟨_, hc, firstSupported_of_firstFor hs⟩
  unfold selectSubnet4 at h
  dsimp only at h
  split at h
  · exact found (.address selector.optionSelect (by simp)) (ok.inj h)
  split at h
  · rcases or_eq_some_iff.mp (ok.inj h) with h | ⟨-, h⟩
    · exact found .relay h
    · exact found (.address selector.giaddr (by simp)) h
  split at h
  · exact found (.address selector.ciaddr (by simp)) (ok.inj h)
  split at h
  · exact found (.address selector.remoteAddress (by simp)) (ok.inj h)
  split at h
  · split at h
    · cases h
    rename_i address hiface
    rcases or_eq_some_iff.mp (ok.inj h) with h | ⟨-, h⟩
    · exact found .iface h
    cases address with
    | none => cases h
    | some a =>
      dsimp only at h
      split at h
      · cases h
      · exact found (.address (.v4 a) (.inr ⟨a, hiface, rfl⟩)) h
  · cases h

theorem selectSubnet6_guarded {subnets : List (ConfiguredSubnet ι 128)} {s : ConfiguredSubnet ι 128}
    (h : selectSubnet6 subnets selector = some s) :
    ∃ criterion, Decides6 selector criterion ∧
      FirstSupported subnets selector.clientClasses criterion s := by
  unfold selectSubnet6 at h
  split at h
  · rcases or_eq_some_iff.mp h with h | ⟨-, h⟩
    · split at h
      · exact ⟨_, .iface, firstSupported_of_firstFor h⟩
      · cases h
    · split at h
      · exact ⟨_, .address selector.remoteAddress (by simp), firstSupported_of_firstFor h⟩
      · cases h
  · rcases or_eq_some_iff.mp h with h | ⟨-, h⟩
    · exact ⟨_, .interfaceId, firstSupported_of_firstFor h⟩
    rcases or_eq_some_iff.mp h with h | ⟨-, h⟩
    · exact ⟨_, .relay, firstSupported_of_firstFor h⟩
    · exact ⟨_, .address selector.firstRelayLinkaddr (by simp), firstSupported_of_firstFor h⟩

/--
All three selections keep the guards, if and only if the first subnet that a DHCPv4-over-DHCPv6
query matches supports the client.
-/
theorem guards_kept_iff (ifaces : String → Option (Option (Address 32)))
    (subnets4 : List (ConfiguredSubnet ι 32)) (subnets6 : List (ConfiguredSubnet ι 128))
    (selector : SubnetSelector ι) :
    ((∀ s, selectSubnet4 ifaces subnets4 selector = .ok (some s) →
        ∃ criterion, Decides4 ifaces selector criterion ∧
          FirstSupported subnets4 selector.clientClasses criterion s) ∧
      (∀ s, selectSubnet4o6 subnets4 selector = some s →
        FirstSupported subnets4 selector.clientClasses (matches4o6 selector) s) ∧
      ∀ s, selectSubnet6 subnets6 selector = some s →
        ∃ criterion, Decides6 selector criterion ∧
          FirstSupported subnets6 selector.clientClasses criterion s) ↔
      ∀ pre s post, subnets4 = pre ++ s :: post → matches4o6 selector s = true →
        (∀ t ∈ pre, matches4o6 selector t = false) →
        s.ptr.clientSupported selector.clientClasses = true := by
  constructor
  · rintro ⟨-, h, -⟩ pre s post hsplit hs hpre
    have hfirst : selectSubnet4o6 subnets4 selector = some s :=
      List.find?_eq_some_iff_append.mpr ⟨hs, pre, post, hsplit, fun t ht => by simp [hpre t ht]⟩
    exact (h s hfirst).supported
  · intro h
    refine ⟨fun s => selectSubnet4_guarded, fun s hs => ?_, fun s => selectSubnet6_guarded⟩
    obtain ⟨hmatch, pre, post, hsplit, hpre⟩ := List.find?_eq_some_iff_append.mp hs
    have hnone : ∀ t ∈ pre, matches4o6 selector t = false := fun t ht => by simpa using hpre t ht
    refine ⟨h pre s post hsplit hmatch hnone, hmatch, pre, post, hsplit, fun t ht hboth => ?_⟩
    rw [hnone t ht] at hboth
    exact Bool.false_ne_true hboth.1

/-- A subnet for red clients that serves DHCPv4-over-DHCPv6 on `eth0`. -/
def redSubnet : ConfiguredSubnet Unit 32 :=
  { ptr := Sample.alone .all "red"
    relays := [], iface := "", interfaceId := none, networkRelays := [], networkIface := ""
    cfg4o6 := { enabled := true, iface4o6 := "eth0", subnet4o6 := (0, 128), interfaceId := none } }

/-- A client without classes is given the subnet for red clients. -/
theorem guard_bypassed : let selector : SubnetSelector Unit :=
      { ciaddr := .v4 0, giaddr := .v4 0, optionSelect := .v4 0, interfaceId := none
        firstRelayLinkaddr := .v6 0, localAddress := .v6 1, remoteAddress := .v6 2
        clientClasses := [], ifaceName := "eth0" }
    selectSubnet4o6 [redSubnet] selector = some redSubnet ∧
      redSubnet.ptr.clientSupported selector.clientClasses = false :=
  ⟨rfl, by decide⟩

end Dhcp
