import KeaDhcp.Dhcpsrv.Dhcp4o6Ipc
import KeaDhcp.Properties.RelayRoundtrip

/-!
# DHCPv4-over-DHCPv6 messages between the servers

What `receive` makes of the datagram that `send` sent. The metadata travel in a vendor option of the
message, where the options of the client are as well.
-/

namespace Dhcp

open Infra DhcpOption List Option

variable {l S : List DhcpOption} {p : Pkt4o6}

/-! ## Suboptions -/

/-- The options of one code, in their order. -/
def ofCode (k : Nat) (l : List DhcpOption) : List DhcpOption := l.filter (·.getType.toNat = k)

variable {k : Nat} {type : UInt16}

theorem ofCode_delOption :
    ofCode k (delOption l type) = if type.toNat = k then (ofCode k l).tail else ofCode k l := by
  induction l with
  | nil => simp [ofCode, delOption]
  | cons o l ih =>
    unfold ofCode delOption at ih ⊢
    by_cases ho : o.getType = type
    · rw [filter_cons]
      split <;> simp [*]
    · rw [eraseP_cons_of_neg (by simpa using ho), filter_cons]
      have hne : o.getType.toNat ≠ type.toNat := fun h => ho (UInt16.toNat_inj.mp h)
      grind

theorem tail_append_singleton {w : DhcpOption} {F : List DhcpOption} :
    (F ++ [w]).tail = F ↔ ∀ x ∈ F, x = w := by
  cases F with
  | nil => simp
  | cons x F =>
    show F ++ [w] = x :: F ↔ _
    induction F generalizing x with
    | nil => simp [eq_comm]
    | cons y F ih =>
      grind

namespace Pkt4o6

theorem ofCode_addMetadata (h : Ascending compareCode S) (k : Nat) :
    ofCode k (p.addMetadata S) = ofCode k S ++ ofCode k p.metadata := by
  unfold addMetadata
  generalize p.metadata = new
  induction new generalizing S with
  | nil => simp [ofCode]
  | cons o new ih =>
    rw [foldl_cons, ih (linkUpper_ascending h)]
    unfold ofCode
    rw [show compareCode = compareOn fun o : DhcpOption => o.getType.toNat from rfl,
      filter_linkUpper h]
    split <;> simp_all

theorem ofCode_delMetadata : ofCode k (delMetadata S) =
    if k = 60000 ∨ k = 60001 ∨ k = 60002 then (ofCode k S).tail else ofCode k S := by
  unfold delMetadata
  simp only [ofCode_delOption, ISC_V6_4O6_INTERFACE, ISC_V6_4O6_SRC_ADDRESS, ISC_V6_4O6_SRC_PORT]
  grind

/-- The suboptions of an option come back if there is nothing but the metadata in the way. -/
theorem delMetadata_addMetadata (h : Ascending compareCode S) :
    delMetadata (p.addMetadata S) = S ↔
      ∀ new ∈ p.metadata, ∀ sub ∈ S, sub.getType = new.getType → sub = new := by
  have hone : ∀ new ∈ p.metadata,
      ofCode new.getType.toNat (delMetadata (p.addMetadata S)) =
        (ofCode new.getType.toNat S ++ [new]).tail := by
    intro new hnew
    rw [ofCode_delMetadata, ofCode_addMetadata h]
    simp only [metadata, mem_cons, not_mem_nil, or_false] at hnew
    rcases hnew with rfl | rfl | rfl <;> rfl
  constructor
  · intro heq new hnew sub hsub htype
    have hkept := hone new hnew
    rw [heq] at hkept
    refine (tail_append_singleton).mp hkept.symm sub (mem_filter.mpr ⟨hsub, ?_⟩)
    simp [htype]
  · intro hsame
    have hlong : Ascending compareCode (p.addMetadata S) :=
      linkUpper_ascending (linkUpper_ascending (linkUpper_ascending h))
    have hasc : Ascending compareCode (delMetadata (p.addMetadata S)) :=
      hlong.sublist (eraseP_sublist.trans (eraseP_sublist.trans eraseP_sublist))
    refine hasc.eq_of_filter h fun k => ?_
    show ofCode k _ = ofCode k S
    by_cases hk : ∃ new ∈ p.metadata, new.getType.toNat = k
    · obtain ⟨new, hnew, rfl⟩ := hk
      rw [hone new hnew]
      refine (tail_append_singleton).mpr fun sub hsub => ?_
      obtain ⟨hsub, htype⟩ := mem_filter.mp hsub
      exact hsame new hnew sub hsub (UInt16.toNat_inj.mp (of_decide_eq_true htype))
    · have hnone : ofCode k p.metadata = [] :=
        filter_eq_nil_iff.mpr fun new hnew htype => hk ⟨new, hnew, of_decide_eq_true htype⟩
      rw [ofCode_delMetadata, ofCode_addMetadata h, hnone, append_nil, if_neg]
      rintro (rfl | rfl | rfl)
      all_goals exact hk (by simp [metadata, getType, ISC_V6_4O6_INTERFACE, ISC_V6_4O6_SRC_ADDRESS,
        ISC_V6_4O6_SRC_PORT])

/-! ## The vendor option -/

variable {o : DhcpOption}

theorem getType_of_ofISC (h : o.ofISC) : o.getType = D6O_VENDOR_OPTS := by
  cases o with
  | vendor => rfl
  | generic => cases h

variable {post pre : List DhcpOption}

section Update

variable {f : List DhcpOption → List DhcpOption} {new : DhcpOption}

theorem getOptions_withOptions : (o.withOptions f).getOptions = f o.getOptions := by
  cases o <;> rfl

theorem ofISC_withOptions : (o.withOptions f).ofISC = o.ofISC := by
  cases o <;> rfl

theorem updateISC_append (h : ∀ x ∈ pre, ¬x.ofISC) :
    updateISC f (pre ++ l) = pre ++ updateISC f l := by
  induction pre with
  | nil => rfl
  | cons x pre ih =>
    rw [forall_mem_cons] at h
    rw [cons_append, updateISC, if_neg h.1, ih h.2, cons_append]

theorem length_updateISC : (updateISC f l).length = l.length := by
  induction l with
  | nil => rfl
  | cons x l ih =>
    rw [updateISC]
    split <;> simp [ih]

/-- With the option of another vendor in front, that one is deleted and the new one stays. -/
theorem updateISC_ne (ho : ¬o.ofISC) (hnew : new.ofISC) :
    updateISC f (pre ++ new :: post) ≠ o :: (pre ++ post) := by
  induction pre generalizing o with
  | nil =>
    rw [nil_append, updateISC, if_pos hnew]
    intro heq
    exact ho ((cons.inj heq).1 ▸ ofISC_withOptions.trans hnew)
  | cons x pre ih =>
    rw [cons_append, updateISC]
    split
    · next hx =>
      intro heq
      exact ho ((cons.inj heq).1 ▸ ofISC_withOptions.trans hx)
    · next hx => exact fun heq => ih hx (cons.inj heq).2

/-- No vendor option is in front. -/
def NoVendor (pre : List DhcpOption) : Prop := ∀ x ∈ pre, x.getType ≠ D6O_VENDOR_OPTS

theorem NoVendor.notISC (h : NoVendor pre) : ∀ x ∈ pre, ¬x.ofISC :=
  fun x hx hisc => h x hx (getType_of_ofISC hisc)

theorem NoVendor.delOption_append (h : NoVendor pre) (ho : o.getType = D6O_VENDOR_OPTS) :
    delOption (pre ++ o :: post) D6O_VENDOR_OPTS = pre ++ post := by
  unfold delOption
  rw [eraseP_append_right _ fun x hx => by simpa using h x hx,
    eraseP_cons_of_pos (by simpa using ho)]

theorem NoVendor.find (h : NoVendor pre) (ho : o.ofISC) :
    (pre ++ o :: post).find? ofISC = some o := by
  rw [find?_append, find?_eq_none.mpr h.notISC, find?_cons_of_pos ho]
  rfl

/-- What `receive` returns if the first vendor option is ISC's. -/
theorem NoVendor.restored_eq (h : NoVendor pre) (ho : o.ofISC) : restored o (pre ++ o :: post) =
    pre ++ if (delMetadata o.getOptions).isEmpty then post
      else o.withOptions delMetadata :: post := by
  unfold restored
  rw [updateISC_append h.notISC, updateISC]
  split
  · exact h.delOption_append (getType_of_ofISC (ofISC_withOptions.trans ho))
  · rfl

end Update

/-! ## The message -/

/-- The options of the packet and their sub-options are in the order of a `multimap`. -/
def Ordered (p : Pkt4o6) : Prop :=
  Ascending compareCode p.options ∧ ∀ o ∈ p.options, Ascending compareCode o.getOptions

/-- There is no vendor option, or the first one is ISC's and has suboptions, but none with the codes
of the metadata and other contents. -/
def Apart (p : Pkt4o6) : Prop :=
  ∀ o ∈ getOption p.options D6O_VENDOR_OPTS, o.ofISC ∧ o.getOptions ≠ [] ∧
    ∀ new ∈ p.metadata, ∀ sub ∈ o.getOptions, sub.getType = new.getType → sub = new

theorem first_vendor (h : getOption l D6O_VENDOR_OPTS = some o) :
    o.getType = D6O_VENDOR_OPTS ∧ ∃ pre post, l = pre ++ o :: post ∧ NoVendor pre := by
  obtain ⟨htype, pre, post, rfl, hpre⟩ := find?_eq_some_iff_append.mp h
  exact ⟨by simpa using htype, pre, post, rfl, by simpa [NoVendor] using hpre⟩

/-- What `send` does with the first vendor option. -/
theorem send_eq (hp : p.Ordered) (ho : o.getType = D6O_VENDOR_OPTS) (hpre : NoVendor pre)
    (hL : p.options = pre ++ o :: post) :
    p.send = if o.ofISC then pre ++ o.withOptions p.addMetadata :: post
      else pre ++ o :: linkUpper compareCode p.created post := by
  have hfirst : getOption p.options D6O_VENDOR_OPTS = some o := by
    unfold getOption
    rw [hL, find?_append, find?_eq_none.mpr fun x hx => by simpa using hpre x hx,
      find?_cons_of_pos (by simpa using ho)]
    rfl
  unfold send
  rw [hfirst, any_some, hL]
  split
  · next hisc => rw [updateISC_append hpre.notISC, updateISC, if_pos hisc]
  rw [append_cons, linkUpper_append, append_cons pre o (linkUpper _ _ _)]
  intro y hy hlt
  have hle : y.getType.toNat ≤ o.getType.toNat := by
    rcases mem_append.mp hy with hy | hy
    · exact compareOn_isLE.mp
        ((pairwise_append.mp (hL ▸ hp.1)).2.2 y hy o mem_cons_self)
    · rw [mem_singleton.mp hy]
  rw [ho] at hle
  exact absurd (Nat.compare_eq_lt.mp hlt) (Nat.not_lt.mpr hle)

variable {option : DhcpOption}

theorem apart_of_restored (hp : p.Ordered) (hfind : p.send.find? ofISC = some option)
    (h : restored option p.send = p.options) : p.Apart := by
  intro o ho
  obtain ⟨htype, pre, post, hL, hpre⟩ := first_vendor ho
  rw [send_eq hp htype hpre hL] at hfind h
  by_cases hisc : o.ofISC
  · have ho' : (o.withOptions p.addMetadata).ofISC := ofISC_withOptions.trans hisc
    rw [if_pos hisc] at hfind h
    obtain rfl := some.inj (hfind.symm.trans (hpre.find ho'))
    rw [hpre.restored_eq ho', hL, getOptions_withOptions] at h
    have hsame := append_cancel_left h
    split at hsame
    · exact absurd (congrArg length hsame) (by simp)
    · next hne =>
      have hsubs := congrArg getOptions (cons.inj hsame).1
      rw [getOptions_withOptions, getOptions_withOptions] at hsubs
      refine ⟨hisc, ?_, (delMetadata_addMetadata (hp.2 o (hL ▸ by simp))).mp hsubs⟩
      rw [hsubs] at hne
      simpa using hne
  · obtain ⟨a, b, rfl, hlink⟩ := linkUpper_split compareCode p.created post
    rw [if_neg hisc, hlink, hL] at h
    unfold restored at h
    rw [updateISC_append hpre.notISC, updateISC] at h
    split at h
    · rw [hpre.delOption_append htype] at h
      exact absurd (append_cancel_left h) (updateISC_ne hisc rfl)
    · have hlength := congrArg length h
      simp [length_updateISC] at hlength

theorem restored_of_apart (hp : p.Ordered) (h : p.Apart) :
    ∃ S option, Ascending compareCode S ∧
      (∀ new ∈ p.metadata, ∀ sub ∈ S, sub.getType = new.getType → sub = new) ∧
      option.getOptions = p.addMetadata S ∧ p.send.find? ofISC = some option ∧
      restored option p.send = p.options := by
  cases hfirst : getOption p.options D6O_VENDOR_OPTS with
  | none =>
    have hnone : NoVendor p.options := by simpa [NoVendor] using find?_eq_none.mp hfirst
    obtain ⟨pre, post, hL, hlink⟩ := linkUpper_split compareCode p.created p.options
    have hpre : NoVendor pre := fun x hx => hnone x (hL ▸ mem_append_left _ hx)
    have hempty : delMetadata p.created.getOptions = [] :=
      (delMetadata_addMetadata List.Pairwise.nil).mpr nofun
    have hsend : p.send = pre ++ p.created :: post := by
      unfold send
      rw [hfirst, if_neg (by simp), hlink]
    refine ⟨[], p.created, List.Pairwise.nil, nofun, rfl, ?_, ?_⟩
    · rw [hsend, hpre.find rfl]
    · rw [hsend, hpre.restored_eq rfl, if_pos (isEmpty_iff.mpr hempty), hL]
  | some o =>
    obtain ⟨hisc, hne, hsubs⟩ := h o hfirst
    obtain ⟨htype, pre, post, hL, hpre⟩ := first_vendor hfirst
    have hasc := hp.2 o (hL ▸ by simp)
    have hback := (delMetadata_addMetadata hasc).mpr hsubs
    have ho' : (o.withOptions p.addMetadata).ofISC := ofISC_withOptions.trans hisc
    have hsame : (o.withOptions p.addMetadata).withOptions delMetadata = o := by
      cases o <;> exact congrArg _ hback
    refine ⟨o.getOptions, o.withOptions p.addMetadata, hasc, hsubs, getOptions_withOptions, ?_⟩
    rw [send_eq hp htype hpre hL, if_pos hisc, hpre.find ho', hpre.restored_eq ho',
      getOptions_withOptions, hback, if_neg (by simpa using hne), hsame]
    exact ⟨rfl, hL.symm⟩

theorem suboption_eq {data : List UInt8} (hS : Ascending compareCode S)
    (hsame : ∀ new ∈ p.metadata, ∀ sub ∈ S, sub.getType = new.getType → sub = new)
    (hoption : option.getOptions = p.addMetadata S) (hnew : .generic .v6 type data [] ∈ p.metadata)
    (name : String) : suboption option type name = .ok data := by
  have hmem {x : DhcpOption} (htype : x.getType = type) :
      x ∈ p.addMetadata S ↔ x ∈ S ∨ x ∈ p.metadata := by
    have hx := congrArg (x ∈ ·) (ofCode_addMetadata (p := p) hS type.toNat)
    simpa [ofCode, htype] using hx
  obtain ⟨x, hx⟩ : ∃ x, getOption (p.addMetadata S) type = some x :=
    isSome_iff_exists.mp
      (find?_isSome.mpr ⟨_, (hmem rfl).mpr (.inr hnew), by simp [getType]⟩)
  have htype : x.getType = type := by simpa using find?_some hx
  obtain rfl : x = .generic .v6 type data [] := by
    rcases (hmem htype).mp (mem_of_find?_eq_some hx) with hold | hmeta
    · exact hsame _ hnew x hold htype
    have hcodes : (p.metadata.map getType).Nodup :=
      show [ISC_V6_4O6_INTERFACE, ISC_V6_4O6_SRC_ADDRESS, ISC_V6_4O6_SRC_PORT].Nodup by decide
    exact inj_on_of_nodup_map hcodes hmeta hnew htype
  unfold suboption
  rw [hoption, hx]

/-- **Messages between the servers.** The packet comes back if and only if its options are apart
from the metadata. -/
theorem relayed_faithfully_iff (ifaces : List UInt8 → Bool) (p : Pkt4o6) (hp : p.Ordered)
    (hiface : ifaces p.iface) : receive ifaces p.send = .ok p ↔ p.Apart := by
  unfold receive
  constructor
  · intro h
    split at h
    · cases h
    · next option hfind =>
      obtain ⟨ifname, -, h⟩ := except_bind_eq_ok h
      split at h
      · cases h
      obtain ⟨srcs, -, h⟩ := except_bind_eq_ok h
      obtain ⟨sport, -, h⟩ := except_bind_eq_ok h
      obtain ⟨remoteAddr, -, h⟩ := except_bind_eq_ok h
      obtain ⟨remotePort, -, h⟩ := except_bind_eq_ok h
      exact apart_of_restored hp hfind (congrArg options (Except.ok.inj h))
  · intro h
    obtain ⟨S, option, hS, hsame, hoption, hfind, hback⟩ := restored_of_apart hp h
    have hsub {type data} (hnew : .generic .v6 type data [] ∈ p.metadata) :=
      suboption_eq hS hsame hoption hnew
    have haddr : readAddress6 (addressToBytes p.remoteAddr) 0 = .ok p.remoteAddr :=
      Pkt6.readAddress6_of_drop (Nat.zero_le _) (append_nil _).symm
    have hport : readUint16 (writeUint16 p.remotePort) 0 = .ok p.remotePort := by
      rw [writeUint16_eq, readUint16_of_drop (append_nil _).symm, UInt16.ofNat_toNat]
    rw [hfind]
    dsimp only
    rw [hsub (.head _), except_ok_bind, if_neg (by simp [hiface]), hsub (.tail _ (.head _)),
      except_ok_bind, hsub (.tail _ (.tail _ (.head _))), except_ok_bind, haddr, hport, hback]
    rfl

namespace Sample

/-- A message from the address `1` on the interface `eth0`. -/
def message (options : List DhcpOption) : Pkt4o6 :=
  { options := options, iface := [101, 116, 104, 48], remoteAddr := 1, remotePort := 546 }

/-- The elapsed time of a client, and a vendor option of ISC with a suboption of another code. -/
def ordinary : Pkt4o6 :=
  message [.generic .v6 8 [0, 5] [], .vendor ENTERPRISE_ID_ISC [.generic .v6 7 [1] []]]

/-- A vendor option of ISC that the client has put a source address into. -/
def spoofed : Pkt4o6 := message [.vendor ENTERPRISE_ID_ISC
  [.generic .v6 ISC_V6_4O6_SRC_ADDRESS (addressToBytes 2) []]]

end Sample

theorem relayed_with_vendor :
    receive (fun _ => true) Sample.ordinary.send = .ok Sample.ordinary := by
  have hordered : Sample.ordinary.Ordered :=
    ⟨by unfold Ascending; decide, by unfold Ascending; decide⟩
  refine (relayed_faithfully_iff (fun _ => true) Sample.ordinary hordered rfl).mpr ?_
  rintro o ⟨⟩
  have hcodes : ∀ new ∈ Sample.ordinary.metadata, (7 : UInt16) ≠ new.getType := by decide
  refine ⟨rfl, nofun, fun new hnew sub hsub htype => ?_⟩
  rw [mem_singleton.mp hsub] at htype
  exact absurd htype (hcodes new hnew)

/-- The message is taken for one from the address `2`. -/
theorem source_address_spoofed :
    receive (fun _ => true) Sample.spoofed.send ≠ .ok Sample.spoofed := by
  have hread : (receive (fun _ => true) Sample.spoofed.send).toOption.map remoteAddr = some 2 := by
    decide
  intro h
  rw [h] at hread
  exact absurd hread (by decide)

end Pkt4o6

end Dhcp
