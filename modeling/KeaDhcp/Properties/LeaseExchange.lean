import KeaDhcp.Dhcpsrv.LeaseElement
import KeaDhcp.Properties.CsvRoundtrip

/-!
# Leases that are exchanged as JSON
-/

namespace Dhcp

open Data Infra Util StoredLease6 HWAddr Option MapElement LeaseElement

/-- The type of a hardware address is not in its text. -/
def HWAddr.ethernet (h : HWAddr) : HWAddr := { h with htype := 1 }

theorem HWAddr.fromText_toText_ethernet {h : HWAddr} (hlen : h.hwaddr.length ≤ MAX_HWADDR_LEN) :
    fromText h.toText = some h.ethernet := by
  have hconv : h.ethernet.Convertible := ⟨rfl, hlen⟩
  exact fromText_toText hconv

/-! ## What both families have -/

/--
A lease that the server can hold and that is exchanged as a whole: a comment in its user context would
be left out.
-/
structure StoredLease.Exchangeable {w : Nat} (l : StoredLease w MapElement) : Prop where
  subnetId : l.subnetId ≠ 0
  cltt : 0 < l.cltt
  hwaddr : ∀ h ∈ l.hwaddr, h.hwaddr.length ≤ HWAddr.MAX_HWADDR_LEN
  state : l.state ≤ 2
  context : ∀ c ∈ l.context, get "comment" c = none

/-- The map has what `fromElementCommon` reads of the lease. -/
structure Carries {w : Nat} (A : IOAddressText) (addr : IOAddress) (l : StoredLease w MapElement)
    (map : MapElement) : Prop where
  ipAddress : map.get "ip-address" = some (.string (A.toText addr))
  subnetId : map.get "subnet-id" = some (.integer l.subnetId.toNat)
  hwAddress : map.get "hw-address" = l.hwaddr.map fun h => .string h.toText
  cltt : map.get "cltt" = some (.integer l.cltt)
  validLft : map.get "valid-lft" = some (.integer l.validLft.toNat)
  fqdnFwd : map.get "fqdn-fwd" = some (.boolean l.fqdnFwd)
  fqdnRev : map.get "fqdn-rev" = some (.boolean l.fqdnRev)
  hostname : map.get "hostname" = some (.string l.hostname)
  state : map.get "state" = some (.integer l.state.toNat)
  context : map.get "user-context" = l.context.map .map

variable {map : MapElement} {w : Nat} {l : StoredLease w MapElement}

section Common

variable {A : IOAddressText} {addr : IOAddress}

theorem uint32_ofInt_toNat {n : UInt32} : UInt32.ofInt (n.toNat : Int) = n := by
  apply UInt32.toNat_inj.mp
  have hlt := n.toNat_lt
  simp only [UInt32.ofInt, UInt32.toNat_ofNat']
  omega

/-- The states of a lease are small numbers, so that they fit into an `int`. -/
theorem toInt32_toInt {state : UInt32} (h : state ≤ 2) : state.toInt32.toInt = state.toNat := by
  have hle : state.toNat ≤ 2 := UInt32.le_iff_toNat_le.mp h
  have hcases : state = 0 ∨ state = 1 ∨ state = 2 := by
    rcases Nat.lt_or_ge state.toNat 1 with hzero | hone
    · exact .inl (UInt32.toNat_inj.mp (show state.toNat = 0 by omega))
    rcases Nat.lt_or_ge state.toNat 2 with hone' | htwo
    · exact .inr (.inl (UInt32.toNat_inj.mp (show state.toNat = 1 by omega)))
    · exact .inr (.inr (UInt32.toNat_inj.mp (show state.toNat = 2 by omega)))
  rcases hcases with rfl | rfl | rfl <;> rfl

open LeaseElement

theorem readHWAddr_carries (h : Carries A addr l map) (hl : l.Exchangeable) :
    readHWAddr map = .ok (l.hwaddr.map ethernet) := by
  unfold readHWAddr
  rw [h.hwAddress]
  cases hhw : l.hwaddr with
  | none => rfl
  | some hw =>
    have hlen := hl.hwaddr hw (by rw [hhw]; rfl)
    simp only [map_some]
    rw [fromText_toText_ethernet hlen]
    rfl

theorem readContext_carries (h : Carries A addr l map) :
    LeaseElement.readContext map = .ok l.context := by
  unfold LeaseElement.readContext
  rw [h.context]
  cases l.context <;> rfl

theorem fromElementCommon_carries (h : Carries A addr l map) (hl : l.Exchangeable) :
    fromElementCommon A (.map map) = .ok
      { addr := addr, subnetId := l.subnetId, hwaddr := l.hwaddr.map ethernet
        cltt := l.cltt, validLft := l.validLft, fqdnFwd := l.fqdnFwd, fqdnRev := l.fqdnRev
        hostname := l.hostname, state := l.state, context := l.context } := by
  have hsubnet : ¬((l.subnetId.toNat : Int) ≤ 0) := by
    have hne : l.subnetId.toNat ≠ 0 := fun hzero => hl.subnetId (UInt32.toNat_inj.mp hzero)
    omega
  have hcltt : ¬(l.cltt ≤ 0) := Int.not_le.mpr hl.cltt
  have hstate : ¬((l.state.toNat : Int) < 0 ∨ (l.state.toNat : Int) > 2) := by
    have hle : l.state.toNat ≤ 2 := UInt32.le_iff_toNat_le.mp hl.state
    omega
  have hvalid : ¬((l.validLft.toNat : Int) < 0) := by omega
  unfold fromElementCommon requireString requireInteger requireBoolean
  simp only [h.ipAddress, h.subnetId, h.cltt, h.validLft, h.fqdnFwd, h.fqdnRev, h.hostname, h.state,
    A.fromText_toText, readHWAddr_carries h hl, readContext_carries h, hsubnet, hcltt, hstate,
    uint32_ofInt_toNat, except_ok_bind]
  rfl

end Common

theorem get_contextToElement (hl : l.Exchangeable) (name : String) :
    (contextToElement l.context []).get name =
      if name = "user-context" then l.context.map .map else none := by
  unfold contextToElement
  cases hctx : l.context with
  | none => simp [MapElement.get]
  | some context =>
    have hcomment : get "comment" context = none := hl.context context (by rw [hctx]; rfl)
    dsimp only
    rw [hcomment]
    by_cases hname : name = "user-context"
    · simp [hname]
    · simp [hname, MapElement.get_set_ne hname, MapElement.get]

/-! ## DHCPv4 -/

namespace StoredLease4

variable {A : IOAddressText} {l : StoredLease4 MapElement}

structure Exchangeable (l : StoredLease4 MapElement) : Prop
    extends l.toStoredLease.Exchangeable where
  hwaddr_isSome : l.hwaddr.isSome
  clientId : ∀ c ∈ l.clientId, c.clientid.length ≤ DUID.MAX_DUID_LEN

/-- What comes back of a lease. -/
def exchanged (l : StoredLease4 MapElement) : StoredLease4 MapElement :=
  { l with t1 := 0, t2 := 0, hwaddr := l.hwaddr.map ethernet }

theorem toElement_carries (h : l.Exchangeable) : ∃ map : MapElement,
    l.toElement A = some (.map map) ∧ Carries A (.v4 l.addr) l.toStoredLease map ∧
    map.get "client-id" = l.clientId.map fun c => .string c.toText := by
  obtain ⟨hw, hhw⟩ := isSome_iff_exists.mp h.hwaddr_isSome
  have hstate := toInt32_toInt h.state
  have hcontext := get_contextToElement h.toExchangeable
  unfold toElement
  rw [hhw]
  refine ⟨_, rfl, ?_, ?_⟩
  · cases l.clientId with
    | none | some c => constructor <;> simp [get_set_ne, hcontext, hhw, hstate]
  · cases l.clientId with
    | none => simp [get_set_ne, hcontext]
    | some c => simp [get_set_ne]

theorem fromElement_toElement (h : l.Exchangeable) :
    ∃ element, l.toElement A = some element ∧ fromElement A element = .ok l.exchanged := by
  obtain ⟨map, hto, hcarries, hclient⟩ := toElement_carries (A := A) h
  refine ⟨_, hto, ?_⟩
  have hreadClient : readClientId map = .ok l.clientId := by
    unfold readClientId
    rw [hclient]
    cases hc : l.clientId with
    | none => rfl
    | some c =>
      simp only [map_some]
      rw [ClientId.fromText_toText (h.clientId c (by rw [hc]; rfl))]
      rfl
  obtain ⟨hw, hhw⟩ := isSome_iff_exists.mp h.hwaddr_isSome
  unfold fromElement
  rw [fromElementCommon_carries hcarries h.toExchangeable]
  simp only [hreadClient, hhw, map_some]
  unfold exchanged
  rw [hhw]
  rfl

end StoredLease4

/-! ## DHCPv6 -/

variable {type : LeaseType}

theorem LeaseType.textToType_typeToText : textToType type.typeToText = .ok type := by
  cases type <;> rfl

namespace StoredLease6

variable {A : IOAddressText} {l : StoredLease6 MapElement}

structure Exchangeable (l : StoredLease6 MapElement) : Prop
    extends l.toStoredLease.Exchangeable where
  duid : l.duid.duid.length ≤ DUID.MAX_DUID_LEN
  prefixlen : l.type = .pd → 1 ≤ l.prefixlen ∧ l.prefixlen ≤ 128

/-- What comes back of a lease: only delegated prefixes are exchanged with their length. -/
def exchanged (l : StoredLease6 MapElement) : StoredLease6 MapElement :=
  { l with
    t1 := 0, t2 := 0, hwaddr := l.hwaddr.map ethernet
    prefixlen := if l.type = .pd then l.prefixlen else 0 }

/-- The map has what `fromElement` reads besides. -/
structure Carries6 (l : StoredLease6 MapElement) (map : MapElement) : Prop where
  type : map.get "type" = some (.string l.type.typeToText.toList)
  prefixLen : l.type = .pd → map.get "prefix-len" = some (.integer l.prefixlen.toNat)
  iaid : map.get "iaid" = some (.integer l.iaid.toNat)
  duid : map.get "duid" = some (.string l.duid.toText)
  preferredLft : map.get "preferred-lft" = some (.integer l.preferredLft.toNat)

theorem toElement_carries (h : l.Exchangeable) : ∃ map : MapElement, l.toElement A = .map map ∧
    Carries A (.v6 l.addr) l.toStoredLease map ∧ Carries6 l map := by
  have hcontext := get_contextToElement h.toExchangeable
  refine ⟨_, rfl, ?_, ?_⟩
  · by_cases htype : l.type = .pd <;> cases hhw : l.hwaddr with
    | none | some hw => constructor <;> simp [get_set_ne, hcontext, hhw, htype]
  · by_cases htype : l.type = .pd <;> cases l.hwaddr with
    | none | some hw => constructor <;> simp [get_set_ne, htype]

theorem readPrefixLen_carries (h : l.Exchangeable) (hcarries : Carries6 l map) :
    readPrefixLen l.type map = .ok (if l.type = .pd then l.prefixlen else 0) := by
  unfold readPrefixLen
  cases htype : l.type with
  | na | ta | v4 => rfl
  | pd =>
    obtain ⟨hlow, hhigh⟩ := h.prefixlen htype
    have hlow : 1 ≤ l.prefixlen.toNat := UInt8.le_iff_toNat_le.mp hlow
    have hhigh : l.prefixlen.toNat ≤ 128 := UInt8.le_iff_toNat_le.mp hhigh
    have hrange : ¬((l.prefixlen.toNat : Int) < 1 ∨ (l.prefixlen.toNat : Int) > 128) := by omega
    have hback : UInt8.ofInt (l.prefixlen.toNat : Int) = l.prefixlen := by
      apply UInt8.toNat_inj.mp
      simp only [UInt8.ofInt, UInt8.toNat_ofNat']
      omega
    simp only [requireInteger, hcarries.prefixLen htype, except_ok_bind, hrange,
      hback]
    rfl

theorem fromElement_toElement (h : l.Exchangeable) : fromElement A (l.toElement A) = .ok l.exchanged := by
  obtain ⟨map, hto, hcarries, hcarries6⟩ := toElement_carries (A := A) h
  have hiaid : ¬((l.iaid.toNat : Int) < 0) := by omega
  have hpreferred : ¬((l.preferredLft.toNat : Int) < 0) := by omega
  rw [hto]
  unfold fromElement
  rw [fromElementCommon_carries hcarries h.toExchangeable]
  simp only [requireString, requireInteger,
    hcarries6.type, hcarries6.iaid, hcarries6.duid, hcarries6.preferredLft, String.ofList_toList,
    LeaseType.textToType_typeToText, readPrefixLen_carries h hcarries6,
    DUID.fromText_toText h.duid, except_ok_bind, hpreferred, uint32_ofInt_toNat]
  rfl

end StoredLease6

/-! ## Both families -/

/--
**Leases survive the exchange as JSON**, except for T1 and T2, for the type of the hardware address,
which is taken to be Ethernet, and for the length of what is not a delegated prefix.
-/
theorem leases_survive_exchange (A : IOAddressText) (l₄ : StoredLease4 MapElement)
    (l₆ : StoredLease6 MapElement) (h₄ : l₄.Exchangeable) (h₆ : l₆.Exchangeable) :
    (∃ element, l₄.toElement A = some element ∧
      StoredLease4.fromElement A element = .ok { l₄ with
        t1 := 0, t2 := 0, hwaddr := l₄.hwaddr.map fun h => { h with htype := 1 } }) ∧
    fromElement A (l₆.toElement A) = .ok { l₆ with
      t1 := 0, t2 := 0, hwaddr := l₆.hwaddr.map fun h => { h with htype := 1 }
      prefixlen := if l₆.type = .pd then l₆.prefixlen else 0 } :=
  ⟨StoredLease4.fromElement_toElement h₄, fromElement_toElement h₆⟩

namespace ExchangeSample

/-- Addresses as decimal numbers behind the version of the protocol. -/
def addresses : IOAddressText where
  toText
    | .v4 a => '4' :: natText a.toNat
    | .v6 a => '6' :: natText a.toNat
  fromText
    | '4' :: t => (readDigits t).map fun n => .v4 (BitVec.ofNat 32 n)
    | '6' :: t => (readDigits t).map fun n => .v6 (BitVec.ofNat 128 n)
    | _ => none
  fromText_toText a := by cases a <;> simp [readDigits_natText]

def lease4 (htype : Nat) : StoredLease4 MapElement :=
  { CsvSample.lease4 7 100 ['a'] with
    t1 := 50, t2 := 75, fqdnRev := true, hwaddr := some { htype := htype, hwaddr := [2, 0] }
    context := some [("rack", .integer 3)] }

def lease6 (type : LeaseType) : StoredLease6 MapElement :=
  { CsvSample.lease6 with state := 1, context := none, type := type }

theorem lease4_exchangeable {htype : Nat} : (lease4 htype).Exchangeable where
  subnetId := by
    show (1 : UInt32) ≠ 0
    decide
  cltt := by
    show (0 : Int) < 7
    decide
  hwaddr := by
    rintro h ⟨⟩
    show 2 ≤ 20
    decide
  state := by
    show (0 : UInt32) ≤ 2
    decide
  context := by
    rintro c ⟨⟩
    rfl
  hwaddr_isSome := rfl
  clientId := nofun

theorem lease6_exchangeable : (lease6 type).Exchangeable where
  subnetId := by
    show (1 : UInt32) ≠ 0
    decide
  cltt := by
    show (0 : Int) < 7
    decide
  hwaddr := nofun
  state := by
    show (1 : UInt32) ≤ 2
    decide
  context := nofun
  duid := by
    show 3 ≤ 128
    decide
  prefixlen := by
    intro _
    show (1 : UInt8) ≤ 128 ∧ (128 : UInt8) ≤ 128
    decide

end ExchangeSample

open ExchangeSample in
theorem leases_survive_sample :
    (∃ element, (lease4 1).toElement addresses = some element ∧
      StoredLease4.fromElement addresses element = .ok { lease4 1 with t1 := 0, t2 := 0 }) ∧
    fromElement addresses ((lease6 .pd).toElement addresses) = .ok (lease6 .pd) :=
  leases_survive_exchange addresses (lease4 1) (lease6 .pd) lease4_exchangeable
    lease6_exchangeable

open ExchangeSample in
/-- Another hardware type than Ethernet, and the prefix length of an address, do not come back. -/
theorem exchange_loses_fields :
    (∀ element, (lease4 6).toElement addresses = some element →
      StoredLease4.fromElement addresses element ≠ .ok { lease4 6 with t1 := 0, t2 := 0 }) ∧
    fromElement addresses ((lease6 .na).toElement addresses) ≠ .ok (lease6 .na) := by
  constructor
  · intro element helement hsame
    obtain ⟨element', hto, hfrom⟩ :=
      StoredLease4.fromElement_toElement (A := addresses) lease4_exchangeable
    rw [helement, some.injEq] at hto
    rw [← hto, hsame, Except.ok.injEq] at hfrom
    have htype : some 6 = some 1 := congrArg (fun l => l.hwaddr.map htype) hfrom
    exact absurd htype (by decide)
  · rw [fromElement_toElement lease6_exchangeable, ne_eq, Except.ok.injEq]
    intro hsame
    have hlen : (0 : UInt8) = 128 := congrArg prefixlen hsame
    exact absurd hlen (by decide)

end Dhcp
