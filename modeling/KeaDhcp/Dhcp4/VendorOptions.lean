import KeaDhcp.Dhcp4.ConfiguredOptions
import Mathlib.Data.FinEnum

/-!
# Vendor options of a DHCPv4 response

`Dhcpv4Srv::appendRequestedVendorOptions` of `src/bin/dhcp4/dhcp4_srv.cc`, for a query with a vendor
option and a response without one.
-/

namespace Dhcp

open Option

variable {ο : Type} (coList : List (OptionContainer ο)) (oro : List UInt8)

/-- `vendor_rsp` and `added`, and whether the response has the option yet. -/
structure VendorReply (ο : Type) where
  vendorRsp : List (UInt8 × ο)
  added : Bool
  attached : Bool

def addRequested (code : UInt8) (r : VendorReply ο) : VendorReply ο :=
  if r.vendorRsp.any (·.1 = code) then r
  else match configured coList code with
    | some o => { r with vendorRsp := r.vendorRsp ++ [(code, o)], added := true }
    | none => r

/-- The loop over the codes. It gives the option to the response, which refuses it a second time. -/
def appendCodes (coList : List (OptionContainer ο)) :
    List UInt8 → VendorReply ο → Except Unit (VendorReply ο)
  | [], r => .ok r
  | code :: codes, r =>
    let r := addRequested coList code r
    if r.added then
      if r.attached then .error () else appendCodes coList codes { r with attached := true }
    else appendCodes coList codes r

/-- The vendor option of the response; without scopes or codes the loop has nothing to do. -/
def appendRequestedVendorOptions : Except Unit (Option (List (UInt8 × ο))) := do
  let r ← appendCodes coList (requestedCodes coList oro)
    { vendorRsp := [], added := false, attached := false }
  return if r.attached then some r.vendorRsp else none

/-! ## What is answered -/

/--
The response has one vendor option if a code is configured that was requested or is always sent,
with each such code once and from the first scope of the list.
-/
def AnswersVendor : Prop :=
  ∃ answer, appendRequestedVendorOptions coList oro = .ok answer ∧
    (answer.isSome ↔ ∃ c ∈ requestedCodes coList oro, configured coList c ≠ none) ∧
    ∀ opts ∈ answer, (opts.map Prod.fst).Nodup ∧
      ∀ c o, (c, o) ∈ opts ↔ c ∈ requestedCodes coList oro ∧ configured coList c = some o

/-- What the last code adds. -/
def lastAdded (codes : List UInt8) : Option (UInt8 × ο) :=
  codes.getLast?.bind fun c => (configured coList c).map (c, ·)

/-- The option goes into the response with the first code that is configured; no code may follow. -/
theorem appendCodes_eq (codes : List UInt8) :
    appendCodes coList codes { vendorRsp := [], added := false, attached := false } =
      if ∀ c ∈ codes.dropLast, (configured coList c).isNone then
        .ok { vendorRsp := (lastAdded coList codes).toList
              added := (lastAdded coList codes).isSome
              attached := (lastAdded coList codes).isSome }
      else .error () := by
  induction codes with
  | nil => simp [appendCodes, lastAdded]
  | cons c codes ih =>
    unfold appendCodes
    cases hc : configured coList c with
    | none =>
      simp only [addRequested, hc, List.any_nil, Bool.false_eq_true, if_false, ih]
      cases codes with
      | nil => simp [lastAdded, hc]
      | cons d codes => simp [lastAdded, hc]
    | some o =>
      simp only [addRequested, hc, List.any_nil, Bool.false_eq_true, if_false, if_true]
      cases codes with
      | nil => simp [appendCodes, lastAdded, hc]
      | cons d codes =>
        have hadded : ∀ r : VendorReply ο, r.added = true → r.attached = true →
            appendCodes coList (d :: codes) r = .error () := by
          intro r hr hattached
          unfold appendCodes addRequested
          split
          · simp [hr, hattached]
          · cases configured coList d <;> simp [hr, hattached]
        rw [hadded _ rfl rfl]
        simp [hc]

/-- For any list of scopes, no code but the last one may be configured. -/
theorem answersVendor_list_iff :
    AnswersVendor coList oro ↔
      ∀ c ∈ (requestedCodes coList oro).dropLast, configured coList c = none := by
  have hloop := appendCodes_eq coList (requestedCodes coList oro)
  unfold AnswersVendor appendRequestedVendorOptions
  rw [hloop]
  simp only [isNone_iff_eq_none]
  generalize requestedCodes coList oro = codes
  constructor
  · rintro ⟨answer, hrun, -⟩
    split at hrun
    · assumption
    · cases hrun
  · intro hnone
    rw [if_pos hnone]
    have hlast : ∀ c o, lastAdded coList codes = some (c, o) ↔
        c ∈ codes ∧ configured coList c = some o := by
      intro c o
      rcases List.eq_nil_or_concat codes with rfl | ⟨front, d, rfl⟩
      · simp [lastAdded]
      simp only [lastAdded, List.concat_eq_append, List.getLast?_concat, bind_some,
        map_eq_some_iff, Prod.mk.injEq, List.mem_append, List.mem_singleton]
      constructor
      · rintro ⟨_, ho, rfl, rfl⟩
        exact ⟨.inr rfl, ho⟩
      rintro ⟨hc | rfl, ho⟩
      · rw [hnone c (by simpa using hc)] at ho
        cases ho
      · exact ⟨o, ho, rfl, rfl⟩
    refine ⟨_, rfl, ?_, ?_⟩
    · cases hadded : lastAdded coList codes with
      | none =>
        have hnot : ¬∃ c ∈ codes, configured coList c ≠ none := by
          rintro ⟨c, hc, hne⟩
          obtain ⟨o, ho⟩ := ne_none_iff_exists'.mp hne
          rw [(hlast c o).mpr ⟨hc, ho⟩] at hadded
          cases hadded
        simpa using hnot
      | some added =>
        obtain ⟨hc, ho⟩ := (hlast added.1 added.2).mp hadded
        exact ⟨fun _ => ⟨added.1, hc, by simp [ho]⟩, fun _ => rfl⟩
    · intro opts hopts
      cases hadded : lastAdded coList codes with
      | none => simp [hadded] at hopts
      | some added =>
        simp only [hadded, isSome_some, if_true, toList_some, mem_def,
          some.injEq] at hopts
        subst hopts
        refine ⟨by simp, fun c o => ?_⟩
        rw [← hlast, hadded, List.mem_singleton, some.injEq, eq_comm]

/--
**When vendor options are answered.** With the scopes that `buildCfgOptionList` finds, the promise is
kept if and only if none of the codes but the last one is configured in a scope of the client, or if
it has no subnet.
-/
theorem answersVendor_iff (s : OptionScopes ο) (oro : List UInt8) :
    AnswersVendor ((buildCfgOptionList s).map (·.vendor)) oro ↔
      (s.subnet.isSome → ∀ c ∈ (requestedCodes (s.spaces (·.vendor)) oro).dropLast,
        firstOption (s.spaces (·.vendor)) c.toUInt16 = none) := by
  rw [answersVendor_list_iff]
  cases hsubnet : s.subnet.isNone with
  | true => simp_all [buildCfgOptionList, configured, firstOption]
  | false =>
    have hsome : s.subnet.isSome := by simpa [isSome_iff_ne_none] using hsubnet
    simp only [requestedCodes_build hsubnet CfgOption.vendor_of_empty,
      configured_build hsubnet CfgOption.vendor_of_empty, hsome, forall_const]

/-- Two codes of the vendor that the subnet configures. -/
def twoCodes : OptionScopes Nat where
  currentHost := none
  yiaddr := 0
  getPool := fun _ => none
  subnet := some ⟨⟨[], [⟨1, 10, false⟩, ⟨2, 20, false⟩], false⟩, by decide⟩
  sharedNetwork := none
  classes := []
  findClass := fun _ => none
  global := ⟨⟨[], [], false⟩, by decide⟩

/-- A client that requests both codes makes the function throw. -/
theorem second_code_throws :
    appendRequestedVendorOptions ((buildCfgOptionList twoCodes).map (·.vendor)) [1, 2] = .error () ∧
      ¬AnswersVendor ((buildCfgOptionList twoCodes).map (·.vendor)) [1, 2] := by
  refine ⟨rfl, ?_⟩
  rintro ⟨answer, hrun, -⟩
  cases hrun

end Dhcp
