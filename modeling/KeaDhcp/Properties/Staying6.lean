import KeaDhcp.Properties.Settle6

/-!
# The leases of a client that the checks leave

What the checks of `allocateLeases6` and `renewLeases6` make of the client's leases, lease by lease
and in terms of the leases, hosts and reservations before the call.
-/

namespace Dhcp

open Infra ServerM6 Engine6 MultiIndex List Except SubnetPtr

variable {env : Env} {ctx : ClientContext6} {s t : SubnetPtr 128} {sn sn' : Session6}
  {leases ls ms kept : List Lease6} {l k m : Lease6}

/-! ## One pass -/

section Passes

variable {keep : Lease6 → Except EngineError Bool}

/-- The check keeps the lease. -/
def lets (keep : Lease6 → Except EngineError Bool) (l : Lease6) : Bool :=
  match keep l with
  | .ok b => b
  | .error _ => false

theorem lets_iff : lets keep l ↔ keep l = .ok true := by
  unfold lets
  split <;> simp_all

/-- The check has a verdict on every lease, and does not end with an exception. -/
def Decides (keep : Lease6 → Except EngineError Bool) (leases : List Lease6) : Prop :=
  ∀ m ∈ leases, (keep m).isOk

theorem decides_iff : Decides keep leases ↔ ∀ m ∈ leases, ∃ b, keep m = .ok b := by
  refine forall₂_congr fun m _ => ?_
  cases keep m <;> simp [Except.isOk, Except.toBool]

/-- A pass that looks at all leases keeps those that the check keeps. -/
theorem sift_none_eq (h : Decides keep leases) :
    sift keep none leases =
      { removed := leases.filter (!lets keep ·), kept := .ok (leases.filter (lets keep)) } := by
  rw [decides_iff] at h
  induction leases with
  | nil => rfl
  | cons l ls ih =>
    obtain ⟨⟨b, hl⟩, hls⟩ := forall_mem_cons.mp h
    cases b <;> simp [sift, hl, ih hls, lets, Except.map]

theorem sift_none_ok_iff :
    (sift keep none leases).kept = .ok kept ↔
      Decides keep leases ∧ leases.filter (lets keep) = kept := by
  constructor
  · intro h
    have hlooked : Decides keep leases := decides_iff.mpr (looked_of_sift h)
    rw [sift_none_eq hlooked] at h
    exact ⟨hlooked, ok.inj h⟩
  · rintro ⟨hlooked, rfl⟩
    rw [sift_none_eq hlooked]

theorem filter_lets_nil_iff (h : Decides keep leases) :
    leases.filter (lets keep) = [] ↔ ∀ l ∈ leases, keep l = .ok false := by
  rw [filter_eq_nil_iff]
  refine forall₂_congr fun l hl => ?_
  obtain ⟨b, hb⟩ := decides_iff.mp h l hl
  simp [lets_iff, hb]

/--
A pass that counts keeps the lease: the check keeps it and has a verdict on all leases, or all
leases before it go and it is the last of several.
-/
def KeptLast (keep : Lease6 → Except EngineError Bool) (leases : List Lease6) (l : Lease6) : Prop :=
  (l ∈ leases ∧ keep l = .ok true ∧ Decides keep leases) ∨
    (leases.dropLast ≠ [] ∧ (∀ m ∈ leases.dropLast, keep m = .ok false) ∧ leases.getLast? = some l)

theorem KeptLast.mem (h : KeptLast keep leases l) : l ∈ leases := by
  rcases h with ⟨hl, -⟩ | ⟨-, -, hlast⟩
  · exact hl
  · exact mem_of_getLast? hlast

theorem sift_length_iff :
    (∃ kept, (sift keep (some leases.length) leases).kept = .ok kept ∧ l ∈ kept) ↔
      KeptLast keep leases l := by
  rcases eq_nil_or_concat' leases with rfl | ⟨pre, last, rfl⟩
  · simp [sift, KeptLast]
  have hsift := sift_counted keep 0 pre last
  rw [Nat.zero_add, show pre.length + 1 = (pre ++ [last]).length by simp] at hsift
  rw [hsift, KeptLast, dropLast_concat, getLast?_concat]
  by_cases hlast : pre ≠ [] ∧ ∀ m ∈ pre, keep m = .ok false
  · rw [if_pos ⟨rfl, hlast⟩]
    constructor
    · rintro ⟨_, ⟨⟩, hl⟩
      exact .inr ⟨hlast.1, hlast.2, by rw [mem_singleton.mp hl]⟩
    · refine fun h => ⟨[last], rfl, mem_singleton.mpr ?_⟩
      rcases h with ⟨hl, hkeep, -⟩ | ⟨-, -, heq⟩
      · rcases mem_append.mp hl with hl | hl
        · rw [hlast.2 l hl] at hkeep
          cases hkeep
        · exact mem_singleton.mp hl
      · exact (Option.some.inj heq).symm
  · rw [if_neg fun h => hlast h.2]
    simp only [sift_none_ok_iff]
    constructor
    · rintro ⟨_, ⟨hlooked, rfl⟩, hl⟩
      obtain ⟨hmem, hlets⟩ := List.mem_filter.mp hl
      exact .inl ⟨hmem, lets_iff.mp hlets, hlooked⟩
    · rintro (⟨hl, hkeep, hlooked⟩ | ⟨hne, hall, -⟩)
      · exact ⟨_, ⟨hlooked, rfl⟩, List.mem_filter.mpr ⟨hl, lets_iff.mpr hkeep⟩⟩
      · exact absurd ⟨hne, hall⟩ hlast

/-- A pass that counts leaves nothing of nothing, or of one lease that the check does not keep. -/
theorem sift_length_nil_iff :
    (sift keep (some leases.length) leases).kept = .ok [] ↔
      leases = [] ∨ ∃ m, leases = [m] ∧ keep m = .ok false := by
  constructor
  · intro h
    have hnone : ∀ l, ¬KeptLast keep leases l := by
      intro l hl
      obtain ⟨kept, hkept, hmem⟩ := sift_length_iff.mpr hl
      rw [h, ok.injEq] at hkept
      rw [← hkept] at hmem
      cases hmem
    have hall : ∀ m ∈ leases, keep m = .ok false := fun m hm =>
      keep_of_sift_removed (by simpa using (sift_perm h).mem_iff.mpr hm)
    rcases eq_nil_or_concat' leases with rfl | ⟨pre, last, rfl⟩
    · exact .inl rfl
    refine .inr ⟨last, ?_, hall last (by simp)⟩
    by_contra hne
    refine hnone last (.inr ⟨?_, ?_, getLast?_concat⟩)
    · rw [dropLast_concat]
      rintro rfl
      exact hne rfl
    · rw [dropLast_concat]
      exact fun m hm => hall m (mem_append_left _ hm)
  · rintro (rfl | ⟨m, rfl, hm⟩)
    · rfl
    · simp [sift, hm]

/-- A pass does not see what the check does not look at. -/
theorem sift_map {f : Lease6 → Lease6} (hf : ∀ l, keep (f l) = keep l) (total : Option Nat)
    (leases : List Lease6) :
    (sift keep total (leases.map f)).kept = (sift keep total leases).kept.map (·.map f) := by
  induction leases generalizing total with
  | nil => rfl
  | cons l ls ih =>
    rw [map_cons, sift, sift, hf]
    rcases keep l with e | _ | _
    · rfl
    · dsimp only
      split
      · rfl
      · exact ih _
    · dsimp only
      rw [ih]
      cases (sift keep total ls).kept <;> rfl

end Passes

/-! ## The leases that are checked -/

/--
The leases that are checked, and the subnet in which they are: those of the client, with the one for
its first free reservation, unless a lease of the client is reserved.
-/
def checklist6 (env : Env) (ctx : ClientContext6) (sn : Session6) (leases : List Lease6) :
    Except EngineError (SubnetPtr 128 × List Lease6) :=
  match findReservedLease ctx leases with
  | .error e => .error e
  | .ok (some _) => .ok (sn.subnet, leases)
  | .ok none =>
    match findFreeReservation ctx sn.server.leases sn.subnet with
    | none => .ok (sn.subnet, leases)
    | some (t, h, r) => .ok (t, leases ++ [reservedLease6 env ctx sn t h r])

/-- The lease, with a new lifetime if it is the client's first reserved one. -/
def prolonged6 (env : Env) (ctx : ClientContext6) (leases : List Lease6) (l : Lease6) : Lease6 :=
  if ctx.fakeAllocation = false ∧ findReservedLease ctx leases = .ok (some l) then
    conditionalExtendLifetime env l
  else l

theorem prolonged6_of_none (h : findReservedLease ctx leases = .ok none) :
    prolonged6 env ctx leases = id := by
  funext l
  simp [prolonged6, h]

/-- The plan is the list that is checked, with the new lifetime. -/
theorem planned6_eq (hhosts : ctx.hosts ≠ []) :
    planned6 env ctx sn leases = (checklist6 env ctx sn leases).map fun p =>
      (p.1, p.2.map (prolonged6 env ctx leases)) := by
  unfold planned6 checklist6
  rw [if_neg (by simpa using hhosts)]
  cases hfound : findReservedLease ctx leases with
  | error e => rfl
  | ok found =>
    cases found with
    | none =>
      rw [prolonged6_of_none hfound]
      cases findFreeReservation ctx sn.server.leases sn.subnet <;> simp [Except.map]
    | some l =>
      have hone : prolonged6 env ctx leases = fun k =>
          if ctx.fakeAllocation = false ∧ k = l then conditionalExtendLifetime env k else k := by
        funext k
        simp only [prolonged6, hfound, ok.injEq, Option.some.injEq, eq_comm (a := l)]
      rw [hone]
      cases ctx.fakeAllocation <;> simp [Except.map]

/-- A checked lease is one of the client's, or the one of a free reservation. -/
theorem mem_checklist6 (h : checklist6 env ctx sn leases = .ok (t, ms)) (hl : l ∈ ms) :
    l ∈ leases ∨ ∃ host r, findFreeReservation ctx sn.server.leases sn.subnet = some (t, host, r) ∧
      l = reservedLease6 env ctx sn t host r := by
  unfold checklist6 at h
  split at h
  · cases h
  · cases h
    exact .inl hl
  split at h
  · cases h
    exact .inl hl
  · rename_i t' host r hfree
    cases h
    rcases mem_append.mp hl with hl | hl
    · exact .inl hl
    · exact .inr ⟨host, r, hfree, mem_singleton.mp hl⟩

theorem checklist6_subnet_mem (h : checklist6 env ctx sn leases = .ok (t, ms)) :
    t ∈ sn.subnet.siblings := by
  unfold checklist6 at h
  split at h
  · cases h
  · cases h
    exact sn.subnet.self_mem_siblings
  split at h
  · cases h
    exact sn.subnet.self_mem_siblings
  · rename_i hfree
    cases h
    exact (findFreeReservation_some hfree).1

@[simp] theorem prolonged6_addr : (prolonged6 env ctx leases l).addr = l.addr := by
  unfold prolonged6
  split <;> rfl

theorem mayKeep6_prolonged : mayKeep6 env ctx t (prolonged6 env ctx leases l) = mayKeep6 env ctx t l := by
  unfold prolonged6
  split <;> rfl

theorem isReserved6_prolonged : isReserved6 ctx (prolonged6 env ctx leases l) = isReserved6 ctx l := by
  unfold prolonged6
  split <;> rfl

theorem checked6_prolonged :
    checked6 env ctx t (ms.map (prolonged6 env ctx leases)) =
      (checked6 env ctx t ms).map (·.map (prolonged6 env ctx leases)) := by
  unfold checked6
  rw [sift_map fun _ => mayKeep6_prolonged]
  cases (sift (mayKeep6 env ctx t) none ms).kept with
  | error e => rfl
  | ok kept =>
    simp only [Except.map, Except.bind, length_map]
    exact sift_map (fun _ => isReserved6_prolonged) _ kept

/-! ## The leases that stay -/

/-- Of the leases, both checks leave this one: the conflict check, and the one of the reservations. -/
def Stays6 (env : Env) (ctx : ClientContext6) (t : SubnetPtr 128) (ms : List Lease6) (l : Lease6) :
    Prop :=
  Decides (mayKeep6 env ctx t) ms ∧
    KeptLast (isReserved6 ctx) (ms.filter (lets (mayKeep6 env ctx t))) l

theorem mem_checked6_iff :
    (∃ kept, checked6 env ctx t ms = .ok kept ∧ l ∈ kept) ↔ Stays6 env ctx t ms l := by
  unfold checked6 Stays6
  rw [← sift_length_iff]
  constructor
  · rintro ⟨kept, hkept, hl⟩
    cases hpass : (sift (mayKeep6 env ctx t) none ms).kept with
    | error e => simp [hpass, Except.bind] at hkept
    | ok first =>
      obtain ⟨hdecides, rfl⟩ := sift_none_ok_iff.mp hpass
      simp only [hpass, Except.bind] at hkept
      exact ⟨hdecides, kept, hkept, hl⟩
  · rintro ⟨hdecides, kept, hkept, hl⟩
    exact ⟨kept, by simpa only [sift_none_eq hdecides, Except.bind] using hkept, hl⟩

/--
A lease that the cases 1 to 3 of `allocateLeases6` lead to, checked in the subnet `t`: one of the
client that the conflict check keeps, the lease of a reservation if the client has none, or one that
stays.
-/
inductive Remains6 (env : Env) (ctx : ClientContext6) (sn : Session6) (leases : List Lease6) :
    SubnetPtr 128 → Lease6 → Prop
  | pooled {l : Lease6} (hhosts : ctx.hosts = []) (hl : l ∈ leases)
      (hkeep : mayKeep6 env ctx sn.subnet l = .ok true) : Remains6 env ctx sn leases sn.subnet l
  | reserved {t : SubnetPtr 128} {host : Host} {r : IPv6Resrv} (hhosts : ctx.hosts ≠ [])
      (hnone : leases = [])
      (hfree : findFreeReservation ctx sn.server.leases sn.subnet = some (t, host, r)) :
      Remains6 env ctx sn leases t (reservedLease6 env ctx sn t host r)
  | checked {t : SubnetPtr 128} {ms : List Lease6} {l : Lease6} (hhosts : ctx.hosts ≠ [])
      (hsome : leases ≠ []) (hlist : checklist6 env ctx sn leases = .ok (t, ms))
      (hstays : Stays6 env ctx t ms l) : Remains6 env ctx sn leases t l

theorem mayKeep6_isOk (hhosts : ctx.hosts = []) : (mayKeep6 env ctx s l).isOk := by
  have hres : ∀ type len, ctx.hasReservation l type len = .ok false := by
    intro type len
    simp [ClientContext6.hasReservation, ClientContext6.findHost, hhosts]
  unfold mayKeep6
  split
  · rfl
  · rw [keepsReserved, hres]
    rfl

theorem findReservedLease_of_no_hosts (hhosts : ctx.hosts = []) (leases : List Lease6) :
    findReservedLease ctx leases = .ok none := by
  induction leases with
  | nil => rfl
  | cons l ls ih =>
    simp [findReservedLease, ClientContext6.hasReservation, ClientContext6.findHost, hhosts, ih]

/-- Without reservations, the leases that pass the conflict check stay as they are. -/
theorem settled6_of_no_hosts (hhosts : ctx.hosts = []) :
    settled6 env ctx sn leases = .ok (leases.filter (lets (mayKeep6 env ctx sn.subnet))) := by
  unfold settled6
  rw [hhosts]
  cases leases with
  | nil => rfl
  | cons l ls =>
    simp only [isEmpty_cons, isEmpty_nil]
    rw [sift_none_eq fun _ _ => mayKeep6_isOk hhosts]

theorem settled6_of_both (hhosts : ctx.hosts ≠ []) (hleases : leases ≠ []) :
    settled6 env ctx sn leases = (checklist6 env ctx sn leases).bind fun p =>
      (checked6 env ctx p.1 p.2).map (·.map (prolonged6 env ctx leases)) := by
  unfold settled6
  rw [planned6_eq hhosts]
  simp only [isEmpty_eq_false_iff.mpr hleases, isEmpty_eq_false_iff.mpr hhosts]
  cases checklist6 env ctx sn leases with
  | error e => rfl
  | ok p => exact checked6_prolonged

theorem settled6_of_no_leases (hhosts : ctx.hosts ≠ []) :
    settled6 env ctx sn [] = .ok ((findFreeReservation ctx sn.server.leases sn.subnet).map fun p =>
      reservedLease6 env ctx sn p.1 p.2.1 p.2.2).toList := by
  unfold settled6
  rw [planned6_eq hhosts]
  simp only [isEmpty_nil, isEmpty_eq_false_iff.mpr hhosts, checklist6, findReservedLease]
  cases findFreeReservation ctx sn.server.leases sn.subnet <;>
    simp [Except.map, prolonged6, findReservedLease]

/--
**What stays.** The leases that the checks lead to are the ones that remain, the first reserved one
with a new lifetime.
-/
theorem mem_settled6_iff :
    (∃ kept, settled6 env ctx sn leases = .ok kept ∧ k ∈ kept) ↔
      ∃ t l, Remains6 env ctx sn leases t l ∧ k = prolonged6 env ctx leases l := by
  by_cases hhosts : ctx.hosts = []
  · simp only [settled6_of_no_hosts hhosts, ok.injEq, exists_eq_left', List.mem_filter, lets_iff,
      prolonged6_of_none (findReservedLease_of_no_hosts hhosts leases), id]
    constructor
    · rintro ⟨hl, hkeep⟩
      exact ⟨sn.subnet, k, .pooled hhosts hl hkeep, rfl⟩
    · rintro ⟨t, l, hremains, rfl⟩
      cases hremains with
      | pooled _ hl hkeep => exact ⟨hl, hkeep⟩
      | reserved h | checked h => exact absurd hhosts h
  by_cases hleases : leases = []
  · subst hleases
    have hsame : prolonged6 env ctx [] = id := prolonged6_of_none rfl
    simp only [settled6_of_no_leases hhosts, ok.injEq, exists_eq_left', Option.mem_toList,
      Option.map_eq_some_iff, hsame, id]
    constructor
    · rintro ⟨⟨t, host, r⟩, hfree, rfl⟩
      exact ⟨t, _, .reserved hhosts rfl hfree, rfl⟩
    · rintro ⟨t, l, hremains, rfl⟩
      cases hremains with
      | pooled h => exact absurd h hhosts
      | @reserved _ host r _ _ hfree => exact ⟨(t, host, r), hfree, rfl⟩
      | checked _ h => exact absurd rfl h
  · rw [settled6_of_both hhosts hleases]
    constructor
    · rintro ⟨kept, hkept, hk⟩
      cases hlist : checklist6 env ctx sn leases with
      | error e => simp [hlist, Except.bind] at hkept
      | ok p =>
        cases hchecked : checked6 env ctx p.1 p.2 with
        | error e => simp [hlist, hchecked, Except.bind, Except.map] at hkept
        | ok first =>
          simp only [hlist, hchecked, Except.bind, Except.map, ok.injEq] at hkept
          subst hkept
          obtain ⟨l, hl, rfl⟩ := mem_map.mp hk
          exact ⟨p.1, l, .checked hhosts hleases hlist (mem_checked6_iff.mp ⟨first, hchecked, hl⟩), rfl⟩
    · rintro ⟨t, l, hremains, rfl⟩
      cases hremains with
      | pooled h => exact absurd h hhosts
      | reserved _ h => exact absurd h hleases
      | checked _ _ hlist hstays =>
        obtain ⟨kept, hkept, hl⟩ := mem_checked6_iff.mpr hstays
        exact ⟨kept.map (prolonged6 env ctx leases), by simp [hlist, hkept, Except.bind, Except.map],
          mem_map_of_mem hl⟩

/-! ## When nothing stays -/

/--
The cases 1 to 3 of `allocateLeases6` leave none of the leases `ms`, which are checked in the subnet
`t`. With reservations, the last lease goes if it is not reserved.
-/
inductive Emptied6 (env : Env) (ctx : ClientContext6) (sn : Session6) (leases : List Lease6) :
    SubnetPtr 128 → List Lease6 → Prop
  | pooled (hhosts : ctx.hosts = [])
      (hgo : ∀ l ∈ leases, mayKeep6 env ctx sn.subnet l = .ok false) :
      Emptied6 env ctx sn leases sn.subnet leases
  | reserved (hhosts : ctx.hosts ≠ []) (hnone : leases = [])
      (hfree : findFreeReservation ctx sn.server.leases sn.subnet = none) :
      Emptied6 env ctx sn leases sn.subnet leases
  | checked {t : SubnetPtr 128} {ms : List Lease6} (hhosts : ctx.hosts ≠ []) (hsome : leases ≠ [])
      (hlist : checklist6 env ctx sn leases = .ok (t, ms)) (hdecides : Decides (mayKeep6 env ctx t) ms)
      (hgo : ms.filter (lets (mayKeep6 env ctx t)) = [] ∨
        ∃ m, ms.filter (lets (mayKeep6 env ctx t)) = [m] ∧ isReserved6 ctx m = .ok false) :
      Emptied6 env ctx sn leases t ms

theorem Emptied6.unique {ms' : List Lease6} {t' : SubnetPtr 128}
    (h : Emptied6 env ctx sn leases t ms) (h' : Emptied6 env ctx sn leases t' ms') :
    t' = t ∧ ms' = ms := by
  cases h <;> cases h' <;> simp_all

theorem checked6_nil_iff :
    checked6 env ctx t ms = .ok [] ↔ Decides (mayKeep6 env ctx t) ms ∧
      (ms.filter (lets (mayKeep6 env ctx t)) = [] ∨
        ∃ m, ms.filter (lets (mayKeep6 env ctx t)) = [m] ∧ isReserved6 ctx m = .ok false) := by
  unfold checked6
  rw [← sift_length_nil_iff]
  constructor
  · intro h
    cases hpass : (sift (mayKeep6 env ctx t) none ms).kept with
    | error e => simp [hpass, Except.bind] at h
    | ok first =>
      obtain ⟨hdecides, rfl⟩ := sift_none_ok_iff.mp hpass
      exact ⟨hdecides, by simpa only [hpass, Except.bind] using h⟩
  · rintro ⟨hdecides, h⟩
    simpa only [sift_none_eq hdecides, Except.bind] using h

theorem settled6_nil_iff :
    settled6 env ctx sn leases = .ok [] ↔ ∃ t ms, Emptied6 env ctx sn leases t ms := by
  by_cases hhosts : ctx.hosts = []
  · have hdecides : Decides (mayKeep6 env ctx sn.subnet) leases := fun _ _ => mayKeep6_isOk hhosts
    rw [settled6_of_no_hosts hhosts, ok.injEq, filter_lets_nil_iff hdecides]
    constructor
    · exact fun hgo => ⟨_, _, .pooled hhosts hgo⟩
    · rintro ⟨t, ms, hempty⟩
      cases hempty with
      | pooled _ hgo => exact hgo
      | reserved h | checked h => exact absurd hhosts h
  by_cases hleases : leases = []
  · subst hleases
    rw [settled6_of_no_leases hhosts, ok.injEq, Option.toList_eq_nil_iff, Option.map_eq_none_iff]
    constructor
    · exact fun hfree => ⟨_, _, .reserved hhosts rfl hfree⟩
    · rintro ⟨t, ms, hempty⟩
      cases hempty with
      | pooled h => exact absurd h hhosts
      | reserved _ _ hfree => exact hfree
      | checked _ h => exact absurd rfl h
  · rw [settled6_of_both hhosts hleases]
    constructor
    · intro h
      cases hlist : checklist6 env ctx sn leases with
      | error e => simp [hlist, Except.bind] at h
      | ok p =>
        cases hchecked : checked6 env ctx p.1 p.2 with
        | error e => simp [hlist, hchecked, Except.bind, Except.map] at h
        | ok first =>
          simp only [hlist, hchecked, Except.bind, Except.map, ok.injEq, map_eq_nil_iff] at h
          obtain ⟨hdecides, hgo⟩ := checked6_nil_iff.mp (h ▸ hchecked)
          exact ⟨p.1, p.2, .checked hhosts hleases hlist hdecides hgo⟩
    · rintro ⟨t, ms, hempty⟩
      cases hempty with
      | pooled h => exact absurd h hhosts
      | reserved _ h => exact absurd h hleases
      | checked _ _ hlist hdecides hgo =>
        simp [hlist, checked6_nil_iff.mpr ⟨hdecides, hgo⟩, Except.bind, Except.map]

/-- Where a lease remains, the checks leave something. -/
theorem Emptied6.not_remains {t' : SubnetPtr 128} (h : Emptied6 env ctx sn leases t ms) :
    ¬Remains6 env ctx sn leases t' l := by
  intro hremains
  obtain ⟨kept, hkept, hmem⟩ := mem_settled6_iff.mpr ⟨t', l, hremains, rfl⟩
  rw [settled6_nil_iff.mpr ⟨t, ms, h⟩, ok.injEq] at hkept
  rw [← hkept] at hmem
  cases hmem

/-- The session after the checks have left nothing: in the subnet `t`, without the leases `ms`. -/
structure Emptied6.Left (t : SubnetPtr 128) (ms : List Lease6) (sn sn' : Session6) : Prop where
  subnet : sn'.subnet = t
  allocator : sn'.server.allocator = sn.server.allocator
  leases : ∀ m, m ∈ sn'.server.leases ↔ m ∈ eraseAll ms sn.server.leases

theorem Pass6.CarriedOut.yields {p : Pass6} {x : Engine6 (List Lease6)} (h : p.CarriedOut ctx x sn)
    (hkept : p.kept = .ok kept) :
    Yields x sn fun r sn' => r = kept ∧ Dropped6 ctx p.removed sn sn' := by
  refine .mono h ?_ ?_
  · rintro r sn' ⟨hr, hdrop⟩
    rw [hkept, ok.injEq] at hr
    exact ⟨hr.symm, hdrop⟩
  · rintro e sn' ⟨he, -⟩
    rw [hkept] at he
    cases he

theorem Dropped6.left {removed : List Lease6} (h : Dropped6 ctx removed sn sn')
    (hperm : removed.Perm ms) : Emptied6.Left sn.subnet ms sn sn' where
  subnet := h.subnet
  allocator := h.allocator
  leases := by
    intro m
    rw [h.leases, mem_eraseAll, mem_eraseAll]
    exact and_congr_right fun _ => forall_congr' fun _ => by rw [hperm.mem_iff]

/-- Both passes, when nothing stays. -/
theorem passes6_emptied (hnodup : (ls.map (·.addr)).Nodup)
    (h : checked6 env ctx sn.subnet ls = .ok []) :
    Yields (removeNonmatchingReservedLeases6 env ctx ls >>= removeNonreservedLeases6 env ctx) sn
      fun r sn' => r = [] ∧ Emptied6.Left sn.subnet ls sn sn' := by
  unfold checked6 at h
  cases hpass : (sift (mayKeep6 env ctx sn.subnet) none ls).kept with
  | error e => simp [hpass, Except.bind] at h
  | ok first =>
    simp only [hpass, Except.bind] at h
    refine Yields.seq ((removeNonmatching_post hnodup).yields hpass) ?_
    rintro kept sn₁ ⟨rfl, hdrop⟩
    refine .imp ((removeNonreserved_post env ctx kept sn₁).yields h) ?_
    rintro _ sn' ⟨rfl, hdrop'⟩
    refine ⟨rfl, (hdrop.append hdrop').left ?_⟩
    have hrest : (sift (isReserved6 ctx) (some kept.length) kept).removed.Perm kept := by
      simpa using sift_perm h
    exact (hrest.append_left _).trans (sift_perm hpass)

/-- What the checks remove when nothing stays: all leases, and the one of a reservation as well. -/
theorem Emptied6.run (h : Emptied6 env ctx sn leases t ms) (hnodup : (leases.map (·.addr)).Nodup)
    (hmem : ∀ l ∈ leases, l ∈ sn.server.leases ∧ l.type = ctx.type) :
    Yields (settleLeases6 env ctx leases) sn fun ls sn' => ls = [] ∧ Emptied6.Left t ms sn sn' := by
  have hidle : Emptied6.Left sn.subnet [] sn sn := ⟨rfl, rfl, fun _ => Iff.rfl⟩
  unfold settleLeases6
  cases h with
  | pooled hhosts hgo =>
    rw [hhosts]
    cases leases with
    | nil => exact .pure ⟨rfl, hidle⟩
    | cons l ls =>
      have hdecides : Decides (mayKeep6 env ctx sn.subnet) (l :: ls) := fun _ _ => mayKeep6_isOk hhosts
      have hkept := sift_none_ok_iff.mpr ⟨hdecides, (filter_lets_nil_iff hdecides).mpr hgo⟩
      refine Yields.seq ((removeNonmatching_post hnodup).yields hkept) ?_
      rintro _ sn' ⟨rfl, hdrop⟩
      exact .pure ⟨rfl, hdrop.left (by simpa using sift_perm hkept)⟩
  | reserved hhosts hnone hfree =>
    subst hnone
    simp only [isEmpty_nil, isEmpty_eq_false_iff.mpr hhosts, allocateReservedLeases6,
      findReservedLease]
    refine .step (run_get sn) ?_
    rw [hfree]
    exact .pure ⟨rfl, hidle⟩
  | checked hhosts hsome hlist hdecides hgo =>
    simp only [isEmpty_eq_false_iff.mpr hsome, isEmpty_eq_false_iff.mpr hhosts]
    have hplan := allocateReserved_post env ctx fun l hl => (hmem l hl).1
    rw [planned6_eq hhosts, hlist] at hplan
    refine .bind (.mono hplan ?_ (by rintro e sn' ⟨⟨⟩, -⟩))
    rintro ls sn₁ ⟨hls, heffect, hcursors⟩
    simp only [Except.map, ok.injEq, Prod.mk.injEq] at hls
    obtain ⟨rfl, rfl⟩ := hls
    have hchecked : checked6 env ctx sn₁.subnet (ms.map (prolonged6 env ctx leases)) = .ok [] := by
      rw [checked6_prolonged, checked6_nil_iff.mpr ⟨hdecides, hgo⟩]
      rfl
    refine .imp (passes6_emptied (heffect.nodup hmem hnodup) hchecked) ?_
    rintro r sn' ⟨rfl, hleft⟩
    refine ⟨rfl, hleft.subnet, hleft.allocator.trans hcursors, fun m => ?_⟩
    rw [hleft.leases, mem_eraseAll, mem_eraseAll]
    have haddrs : (∀ l ∈ ms.map (prolonged6 env ctx leases), m.addr ≠ l.addr) ↔
        ∀ l ∈ ms, m.addr ≠ l.addr := by
      simp only [forall_mem_map, prolonged6_addr]
    rw [← haddrs]
    exact and_congr_left fun hne => heffect.frame (fun l hl => (hmem l hl).1) hne

/-! ## Renewals -/

/-- The leases that pass the conflict check of the current subnet. -/
def passing6 (env : Env) (ctx : ClientContext6) (sn : Session6) (leases : List Lease6) : List Lease6 :=
  leases.filter (lets (mayKeep6 env ctx sn.subnet))

/-- The session without the leases that do not pass it. -/
def purged6 (env : Env) (ctx : ClientContext6) (sn : Session6) (leases : List Lease6) : Session6 :=
  sn.without (leases.filter (!lets (mayKeep6 env ctx sn.subnet) ·))

/--
A lease that `renewLeases6` goes on with. Without reservations the conflict check keeps it; with
reservations it is left of those and of the lease for the first reservation that is free when the
others are gone.
-/
inductive RemainsRenewed6 (env : Env) (ctx : ClientContext6) (sn : Session6) (leases : List Lease6)
    (l : Lease6) : Prop
  | pooled (hhosts : ctx.hosts = []) (hl : l ∈ leases)
      (hkeep : mayKeep6 env ctx sn.subnet l = .ok true)
  | checked {t : SubnetPtr 128} {ms : List Lease6} (hhosts : ctx.hosts ≠ [])
      (hdecides : Decides (mayKeep6 env ctx sn.subnet) leases)
      (hlist : checklist6 env ctx (purged6 env ctx sn leases) (passing6 env ctx sn leases) = .ok (t, ms))
      (hkept : KeptLast (isReserved6 ctx) ms l)

theorem settledRenewed6_eq (hdecides : Decides (mayKeep6 env ctx sn.subnet) leases) :
    settledRenewed6 env ctx sn leases =
      if ctx.hosts.isEmpty then .ok (passing6 env ctx sn leases)
      else (planned6 env ctx (purged6 env ctx sn leases) (passing6 env ctx sn leases)).bind
        fun p => (sift (isReserved6 ctx) (some p.2.length) p.2).kept := by
  rw [settledRenewed6, sift_none_eq hdecides]
  rfl

theorem decides_of_settledRenewed6 (h : settledRenewed6 env ctx sn leases = .ok kept) :
    Decides (mayKeep6 env ctx sn.subnet) leases := by
  unfold settledRenewed6 at h
  cases hpass : (sift (mayKeep6 env ctx sn.subnet) none leases).kept with
  | error e => simp [hpass, Except.bind] at h
  | ok first => exact (sift_none_ok_iff.mp hpass).1

/-- **What stays in a renewal.** The counterpart of `mem_settled6_iff`. -/
theorem mem_settledRenewed6_iff :
    (∃ kept, settledRenewed6 env ctx sn leases = .ok kept ∧ k ∈ kept) ↔
      ∃ l, RemainsRenewed6 env ctx sn leases l ∧
        k = prolonged6 env ctx (passing6 env ctx sn leases) l := by
  by_cases hhosts : ctx.hosts = []
  · have hdecides : Decides (mayKeep6 env ctx sn.subnet) leases := fun _ _ => mayKeep6_isOk hhosts
    simp only [settledRenewed6_eq hdecides, hhosts, isEmpty_nil, if_true, ok.injEq, exists_eq_left',
      prolonged6_of_none (findReservedLease_of_no_hosts hhosts _), id, exists_eq_right', passing6,
      List.mem_filter, lets_iff]
    constructor
    · exact fun ⟨hl, hkeep⟩ => .pooled hhosts hl hkeep
    · rintro (⟨-, hl, hkeep⟩ | ⟨h⟩)
      · exact ⟨hl, hkeep⟩
      · exact absurd hhosts h
  · constructor
    · rintro ⟨kept, hkept, hk⟩
      have hdecides := decides_of_settledRenewed6 hkept
      rw [settledRenewed6_eq hdecides, if_neg (by simpa using hhosts), planned6_eq hhosts] at hkept
      cases hlist : checklist6 env ctx (purged6 env ctx sn leases) (passing6 env ctx sn leases) with
      | error e => simp [hlist, Except.bind, Except.map] at hkept
      | ok p =>
        simp only [hlist, Except.bind, Except.map, length_map] at hkept
        rw [sift_map fun _ => isReserved6_prolonged] at hkept
        cases hpass : (sift (isReserved6 ctx) (some p.2.length) p.2).kept with
        | error e => simp [hpass, Except.map] at hkept
        | ok last =>
          simp only [hpass, Except.map, ok.injEq] at hkept
          subst hkept
          obtain ⟨l, hl, rfl⟩ := mem_map.mp hk
          exact ⟨l, .checked hhosts hdecides hlist (sift_length_iff.mp ⟨last, hpass, hl⟩), rfl⟩
    · rintro ⟨l, ⟨h⟩ | ⟨-, hdecides, hlist, hlast⟩, rfl⟩
      · exact absurd h hhosts
      obtain ⟨kept, hkept, hl⟩ := sift_length_iff.mpr hlast
      refine ⟨kept.map (prolonged6 env ctx (passing6 env ctx sn leases)), ?_, mem_map_of_mem hl⟩
      rw [settledRenewed6_eq hdecides, if_neg (by simpa using hhosts), planned6_eq hhosts, hlist]
      simp only [Except.bind, Except.map, length_map]
      rw [sift_map fun _ => isReserved6_prolonged, hkept]
      rfl

end Dhcp
