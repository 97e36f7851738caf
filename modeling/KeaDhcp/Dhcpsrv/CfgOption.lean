/-!
# Configured options

`OptionDescriptor` and `CfgOption` of `src/lib/dhcpsrv/cfg_option.h`: the options that one scope
configures, and what a list of scopes has for a code. The type of an option's contents is a
parameter.
-/

namespace Dhcp

open List

variable {ο : Type}

structure OptionDescriptor (ο : Type) where
  type : UInt16
  option : ο
  persistent : Bool

/-- The options that one scope configures in one space: `getAll(space)`. -/
abbrev OptionContainer (ο : Type) := List (OptionDescriptor ο)

/-- `CfgOption::get(space, code)`. -/
def OptionContainer.get (opts : OptionContainer ο) (code : UInt16) : Option ο :=
  (opts.find? (·.type = code)).map (·.option)

/-- The options of one scope. -/
structure CfgOption (ο : Type) where
  /-- The space of the protocol, `dhcp4` or `dhcp6`. -/
  standard : OptionContainer ο
  /-- The space of the vendor that the query names. -/
  vendor : OptionContainer ο
  otherSpaces : Bool

def CfgOption.empty (cfg : CfgOption ο) : Bool :=
  cfg.standard.isEmpty && cfg.vendor.isEmpty && !cfg.otherSpaces

/-- The option from the first scope of the list that configures the code. -/
def firstOption (coList : List (OptionContainer ο)) (code : UInt16) : Option ο :=
  coList.findSome? (·.get code)

/-- The codes that are always sent, scope by scope. -/
def persistentCodes (coList : List (OptionContainer ο)) : List UInt16 :=
  coList.flatMap fun opts => (opts.filter (·.persistent)).map (·.type)

section

variable {scopes : List (CfgOption ο)} {space : CfgOption ο → OptionContainer ο}
variable (hspace : ∀ cfg, cfg.empty = true → space cfg = [])
include hspace

/-- A scope without options makes no difference to what is found. -/
theorem firstOption_filter (code : UInt16) :
    firstOption ((scopes.filter (!·.empty)).map space) code = firstOption (scopes.map space) code := by
  unfold firstOption
  induction scopes with
  | nil => rfl
  | cons cfg scopes ih =>
    cases hempty : cfg.empty with
    | false => simp [hempty, findSome?_cons, ih]
    | true =>
      have hnone : (space cfg).get code = none := by
        rw [hspace cfg hempty]
        rfl
      simp [hempty, ih, hnone]

/-- A scope without options makes no difference to what is always sent. -/
theorem persistentCodes_filter :
    persistentCodes ((scopes.filter (!·.empty)).map space) = persistentCodes (scopes.map space) := by
  unfold persistentCodes
  induction scopes with
  | nil => rfl
  | cons cfg scopes ih =>
    cases hempty : cfg.empty with
    | false => simp [hempty, ih]
    | true => simp [hempty, ih, hspace cfg hempty]

end

theorem CfgOption.standard_of_empty (cfg : CfgOption ο) (h : cfg.empty = true) :
    cfg.standard = [] := by
  simp_all [CfgOption.empty]

theorem CfgOption.vendor_of_empty (cfg : CfgOption ο) (h : cfg.empty = true) : cfg.vendor = [] := by
  simp_all [CfgOption.empty]

end Dhcp
