import KeaDhcp.Dhcpsrv.Lease
import KeaDhcp.Dns.MessageRenderer

/-!
# The DNS client, and names of DHCP clients

`D2ClientMgr` of `src/lib/dhcpsrv/d2_client_mgr.h` and `d2_client_mgr.cc`: the names that the server
gives to clients, and how it answers the Client FQDN option (`src/lib/dhcp/option4_client_fqdn.cc`).
The characters of a string stand for the bytes of a `std::string`.
-/

namespace Dhcp

open Util Dns

/-! ## Domain names -/

/-- What goes wrong with a name. -/
inductive NameError where
  /-- One of the exceptions that are derived from `isc::Exception`. -/
  | exception
  /-- An assertion fails, and the process is gone. -/
  | abort
  deriving DecidableEq

def NameError.ofFailure : Failure → NameError
  | .exception _ _ => .exception
  | .assertion | .outOfRange => .abort

def dnsName (text : String) : Except NameError Name :=
  (Name.ofString (ascii text) false).mapError .ofFailure

def textOf (bytes : List UInt8) : String := String.ofList (bytes.map fun c => Char.ofNat c.toNat)

def nameText (name : Name) (omitFinalDot : Bool) : Except NameError String :=
  (((LabelSequence.ofName name).toText omitFinalDot).map textOf).mapError .ofFailure

def nameRawText (name : Name) (omitFinalDot : Bool) : Except NameError String :=
  (((LabelSequence.ofName name).toRawText omitFinalDot).map textOf).mapError .ofFailure

/-- `dns::Name(text).toText()`, which ends in the final dot; none for what is no domain name. -/
def absoluteText (text : String) : Option String := (dnsName text >>= (nameText · false)).toOption

/-! ## Configuration -/

inductive ReplaceClientNameMode where
  | never | always | whenPresent | whenNotPresent
  deriving DecidableEq

/-- `D2ClientConfig`. The sanitizer is its function `scrub`, which may throw. -/
structure D2Client where
  ddnsEnabled : Bool
  overrideNoUpdate : Bool := false
  overrideClientUpdate : Bool := false
  replaceClientNameMode : ReplaceClientNameMode := .never
  generatedPrefix : String := "myhost"
  qualifyingSuffix : String
  hostnameSanitizer : Option (String → Except NameError String) := none

def endsWithDot (name : String) : Bool := name.toList.getLast? = some '.'

variable (d2 : D2Client)

namespace D2Client

def qualifyName (name : String) (trailingDot : Bool) : String :=
  let qualified :=
    if d2.qualifyingSuffix = "" then name
    else if name = "" || endsWithDot name then name ++ d2.qualifyingSuffix
    else name ++ "." ++ d2.qualifyingSuffix
  if trailingDot then
    if qualified = "" || endsWithDot qualified then qualified else qualified ++ "."
  else if endsWithDot qualified then String.ofList qualified.toList.dropLast
  else qualified

end D2Client

/-- The octets of an address, with dashes between them. -/
def dashedText (addr : Address 32) : String :=
  "-".intercalate ([24, 16, 8, 0].map fun shift => toString (addr.toNat / 2 ^ shift % 256))

def D2Client.generateFqdn (addr : Address 32) (trailingDot : Bool) : String :=
  d2.qualifyName (d2.generatedPrefix ++ "-" ++ dashedText addr) trailingDot

/-- The name is replaced by one that the server makes up, where the client has sent one. -/
def D2Client.replacesPresent : Bool :=
  d2.replaceClientNameMode = .always || d2.replaceClientNameMode = .whenPresent

/-- `analyzeFqdn`: the flags S and N of the response. -/
def D2Client.analyzeFqdn (clientS clientN : Bool) : Except NameError (Bool × Bool) :=
  match clientN, clientS with
  | false, false => .ok (if d2.ddnsEnabled then (d2.overrideClientUpdate, false) else (false, true))
  | false, true => .ok (d2.ddnsEnabled, !d2.ddnsEnabled)
  | true, false =>
    let serverS := d2.ddnsEnabled && d2.overrideNoUpdate
    .ok (serverS, !serverS)
  -- "Invalid client FQDN - N and S cannot both be 1"
  | true, true => .error .exception

/-! ## The Client FQDN option -/

inductive DomainNameType where
  | partialName | full
  deriving DecidableEq

/-- `Option4ClientFqdn`; an empty name has no `Name` object. -/
structure Option4ClientFqdn where
  flagS : Bool
  flagN : Bool
  domainName : Option Name
  domainNameType : DomainNameType

namespace Option4ClientFqdn

variable (fqdn : Option4ClientFqdn)

def getDomainName : Except NameError String :=
  match fqdn.domainName with
  | some name => nameText name (fqdn.domainNameType = .partialName)
  | none => .ok ""

def setDomainName (domainName : String) (type : DomainNameType) :
    Except NameError Option4ClientFqdn :=
  let name := trim domainName
  if name = "" then
    -- "fully qualified domain-name must not be empty"
    if type = .full then .error .exception
    else .ok { fqdn with domainName := none, domainNameType := type }
  else (dnsName name).map fun n => { fqdn with domainName := some n, domainNameType := type }

end Option4ClientFqdn

/-- The name of a client, scrubbed label by label. -/
def scrubLabels (scrub : String → Except NameError String) (clientName : String) :
    Except NameError String := do
  let rawName ← nameRawText (← dnsName clientName) false
  let labels ← (rawName.toList.splitOn '.').mapM fun label => scrub (String.ofList label)
  return ".".intercalate labels

/-- `adjustDomainName`: the answer to a Client FQDN option, with its name. -/
def D2Client.adjustDomainName (fqdn : Option4ClientFqdn) : Except NameError Option4ClientFqdn := do
  let clientName ← fqdn.getDomainName
  if d2.replacesPresent || clientName = "" then fqdn.setDomainName "" .partialName
  else
    let clientName ←
      match d2.hostnameSanitizer with
      | some scrub => scrubLabels scrub clientName
      | none => .ok clientName
    if fqdn.domainNameType = .partialName then
      fqdn.setDomainName (d2.qualifyName clientName true) .full
    else fqdn.setDomainName clientName .full

end Dhcp
