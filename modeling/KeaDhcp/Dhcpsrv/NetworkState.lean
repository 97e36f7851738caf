import Mathlib.Algebra.Order.Ring.Int

/-!
# The network state

`src/lib/dhcpsrv/network_state.cc`, with the handlers of the commands `dhcp-disable` and
`dhcp-enable` (`src/bin/dhcp4/ctrl_dhcp4_srv.cc`; the ones for DHCPv6 differ in one text). The timer
is the one registered under the name of the network state, with its interval in milliseconds.
-/

namespace Dhcp

structure NetworkState where
  globallyDisabled : Bool
  timer : Option Nat
  deriving DecidableEq

namespace NetworkState

/-- The constructor. -/
def fresh : NetworkState := { globallyDisabled := false, timer := none }

def disableService (n : NetworkState) : NetworkState := { n with globallyDisabled := true }

def enableService (n : NetworkState) : NetworkState := { n with globallyDisabled := false }

/-- `enableAll`: the timer is destroyed as well. -/
def enableAll (n : NetworkState) : NetworkState :=
  { n with globallyDisabled := false, timer := none }

/-- `delayedEnableAll`; the interval is computed in unsigned arithmetic. -/
def delayedEnableAll (n : NetworkState) (seconds : Nat) : NetworkState :=
  { n with timer := some (seconds * 1000 % 2 ^ 32) }

def isServiceEnabled (n : NetworkState) : Bool := !n.globallyDisabled

/-- The timer runs off. One with the interval 0 does nothing then. -/
def timerExpired (n : NetworkState) : NetworkState :=
  match n.timer with
  | some interval => if interval = 0 then n else n.enableAll
  | none => n

/-! ## Commands -/

/-- The member `max-period` of the arguments. -/
inductive MaxPeriod where
  | notInteger
  | integer (value : Int)

/-- The arguments of `dhcp-disable`. -/
inductive DisableArguments where
  | absent
  | notMap
  | map (maxPeriod : Option MaxPeriod)

/-- The result and the text of an answer. -/
structure Answer where
  success : Bool
  text : String
  deriving DecidableEq

/-- What is wrong with the arguments; the empty text if nothing is. -/
def DisableArguments.message : DisableArguments → String
  | .absent => ""
  | .notMap => "arguments for the 'dhcp-disable' command must be a map"
  | .map none => ""
  | .map (some .notInteger) => "'max-period' argument must be a number"
  | .map (some (.integer value)) => if value ≤ 0 then "'max-period' must be positive integer" else ""

/-- The value of `max-period`, also when it is not positive. -/
def DisableArguments.maxPeriod : DisableArguments → Option Int
  | .map (some (.integer value)) => some value
  | _ => none

/-- The period, as it is told in the answer. -/
def periodText : Option Int → String
  | some value => if value > 0 then " for " ++ toString value ++ " seconds" else ""
  | none => ""

/-- `commandDhcpDisableHandler`: the timer is set before the period is refused. -/
def commandDhcpDisable (n : NetworkState) (args : DisableArguments) : NetworkState × Answer :=
  let n' :=
    match args.maxPeriod with
    | some value => n.delayedEnableAll (value % 2 ^ 32).toNat
    | none => n
  if args.message = "" then
    (n'.disableService,
      { success := true, text := "DHCPv4 service disabled" ++ periodText args.maxPeriod })
  else (n', { success := false, text := args.message })

/-- `commandDhcpEnableHandler`. -/
def commandDhcpEnable (n : NetworkState) : NetworkState × Answer :=
  (n.enableService, { success := true, text := "DHCP service successfully enabled" })

end NetworkState

end Dhcp
