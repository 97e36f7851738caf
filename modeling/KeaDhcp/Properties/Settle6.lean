import KeaDhcp.Properties.Effects6

/-!
# What the checks leave of a client's leases

The cases 1 to 3 of `allocateLeases6`, and the corresponding steps of `renewLeases6`, as functions
of the leases that the client has, and what holds of the leases on the way.
-/

namespace Dhcp

open Infra ServerM6 Engine6 MultiIndex SubnetPtr List IPv6Resrv ClientContext6

variable {env : Env} {ctx : ClientContext6} {s t : SubnetPtr 128} {st st' : Server6}
  {sn sn' : Session6} {db : Lease6Storage} {leases ls kept removed : List Lease6}
variable {l m : Lease6}

/-! ## The decisions -/

/-- The leases that both removal passes leave. -/
def checked6 (env : Env) (ctx : ClientContext6) (s : SubnetPtr 128) (leases : List Lease6) :
    Except EngineError (List Lease6) :=
  (sift (mayKeep6 env ctx s) none leases).kept.bind fun kept =>
    (sift (isReserved6 ctx) (some kept.length) kept).kept

/-- The leases that the cases 1 to 3 of `allocateLeases6` lead to. -/
def settled6 (env : Env) (ctx : ClientContext6) (sn : Session6) (leases : List Lease6) :
    Except EngineError (List Lease6) :=
  match leases.isEmpty, ctx.hosts.isEmpty with
  | true, false => (planned6 env ctx sn leases).map Prod.snd
  | false, true => (sift (mayKeep6 env ctx sn.subnet) none leases).kept
  | false, false => (planned6 env ctx sn leases).bind fun p => checked6 env ctx p.1 p.2
  | true, true => .ok leases

/-- The session when these leases are gone from the database. -/
def Session6.without (sn : Session6) (removed : List Lease6) : Session6 :=
  { sn with server := { sn.server with leases := eraseAll removed sn.server.leases } }

/-- The leases that `renewLeases6` goes on with. -/
def settledRenewed6 (env : Env) (ctx : ClientContext6) (sn : Session6) (leases : List Lease6) :
    Except EngineError (List Lease6) :=
  (sift (mayKeep6 env ctx sn.subnet) none leases).kept.bind fun kept =>
    if ctx.hosts.isEmpty then .ok kept
    else
      (planned6 env ctx (sn.without (sift (mayKeep6 env ctx sn.subnet) none leases).removed) kept).bind
        fun p => (sift (isReserved6 ctx) (some p.2.length) p.2).kept

theorem Dropped6.planned6_eq {removed : List Lease6} (h : Dropped6 ctx removed sn sn') :
    planned6 env ctx sn' leases = planned6 env ctx (sn.without removed) leases := by
  have hstick : ∀ t host, (stickToHost env ctx (some t) (some host) sn').hostname =
      (stickToHost env ctx (some t) (some host) (sn.without removed)).hostname := by
    intro t host
    cases hsome : sn.hostSubnet.isSome <;>
      simp [stickToHost, h.hostSubnet, h.hostname, Session6.without, hsome]
  unfold planned6 reservedLease6
  simp only [h.leases, h.subnet, hstick]
  rfl

/-! ## The leases on the way -/

/--
The leases that a call carries along: no address twice, all for the client's IA and in its network,
as the session. In a real allocation the addresses are in use, and the database has no lease but these
and those of before.
-/
structure Carried6 (ctx : ClientContext6) (s : SubnetPtr 128) (db : Lease6Storage)
    (ls : List Lease6) (sn : Session6) : Prop where
  subnet : sn.subnet ∈ s.siblings
  nodup : (ls.map (·.addr)).Nodup
  own : ∀ l ∈ ls, l.duid = ctx.duid ∧ l.iaid = ctx.iaid ∧ l.type = ctx.type
  network : ∀ l ∈ ls, ∃ t ∈ s.siblings, l.subnetId = t.getID
  inUse : ctx.fakeAllocation = false → ∀ l ∈ ls, ∃ m ∈ sn.server.leases, m.addr = l.addr
  origin : ctx.fakeAllocation = false → ∀ m ∈ sn.server.leases, m ∈ db ∨ m ∈ ls

/-- No lease of another type has the address. -/
def NoClash6 (ctx : ClientContext6) (db : Lease6Storage) (addr : Address 128) : Prop :=
  ∀ m ∈ db, m.addr = addr → m.type = ctx.type

theorem noClash_of_mem (hl : l ∈ db) (htype : l.type = ctx.type) : NoClash6 ctx db l.addr := by
  intro m hm haddr
  rw [eq_of_key_eq hm hl haddr]
  exact htype

/--
What holds of the leases that the checks lead to. In a real allocation such a lease is in the
database, unless a lease of another type had its address.
-/
structure Settled6 (ctx : ClientContext6) (s : SubnetPtr 128) (db : Lease6Storage)
    (ls : List Lease6) (sn : Session6) : Prop extends Carried6 ctx s db ls sn where
  stored : ctx.fakeAllocation = false → ∀ l ∈ ls, l ∈ sn.server.leases ↔ NoClash6 ctx db l.addr

theorem clientLeases6_carried {duid : DUID} (hduid : ctx.duid = some duid) (sn : Session6) :
    Carried6 ctx sn.subnet sn.server.leases (clientLeases6 ctx duid sn.server.leases sn.subnet)
      sn where
  subnet := sn.subnet.self_mem_siblings
  nodup := clientLeases6_nodup
  own := by
    intro l hl
    obtain ⟨-, hd, hiaid, htype, -⟩ := mem_clientLeases6.mp hl
    exact ⟨hd.trans hduid.symm, hiaid, htype⟩
  network := fun l hl => (mem_clientLeases6.mp hl).2.2.2.2
  inUse := fun _ l hl => ⟨l, (mem_clientLeases6.mp hl).1, rfl⟩
  origin := fun _ _ hm => .inl hm

theorem Carried6.settled (h : Carried6 ctx s sn.server.leases leases sn)
    (hmem : ∀ l ∈ leases, l ∈ sn.server.leases) : Settled6 ctx s sn.server.leases leases sn where
  toCarried6 := h
  stored := fun _ l hl =>
    iff_of_true (hmem l hl) (noClash_of_mem (hmem l hl) (h.own l hl).2.2)

/-! ### Removal -/

theorem mem_eraseAll_of_kept (hperm : (removed ++ kept).Perm leases)
    (hnodup : (leases.map (·.addr)).Nodup) (hl : l ∈ kept) (haddr : m.addr = l.addr) :
    m ∈ eraseAll removed db ↔ m ∈ db := by
  rw [mem_eraseAll, and_iff_left_iff_imp]
  intro _ k hk heq
  have happ : (removed.map (·.addr) ++ kept.map (·.addr)).Nodup := by
    rw [← map_append]
    exact (hperm.map _).nodup_iff.mpr hnodup
  exact (nodup_append.mp happ).2.2 k.addr (mem_map.mpr ⟨k, hk, rfl⟩) l.addr
    (mem_map.mpr ⟨l, hl, rfl⟩) (heq.symm.trans haddr)

/-- A pass that ends well parts the list; one that does not ends with the exception of `IPv6Resrv`. -/
theorem Pass6.CarriedOut.post {keep : Lease6 → Except EngineError Bool} {total : Option Nat}
    {x : Engine6 (List Lease6)} (hx : (sift keep total leases).CarriedOut ctx x sn)
    (hkeep : ∀ {l e}, keep l = .error e → e = .badValue) :
    Post x sn (fun kept sn' => (sift keep total leases).kept = .ok kept ∧
        ((sift keep total leases).removed ++ kept).Perm leases ∧
        Dropped6 ctx (sift keep total leases).removed sn sn')
      fun e _ => e = .badValue ∧ (sift keep total leases).kept = .error e := by
  refine .mono hx ?_ ?_
  · rintro kept sn' ⟨hkept, hdrop⟩
    exact ⟨hkept, sift_perm hkept, hdrop⟩
  · rintro e sn' ⟨hkept, -⟩
    obtain ⟨l, -, hl⟩ := sift_error hkept
    exact ⟨hkeep hl, hkept⟩

section

variable (hperm : (removed ++ kept).Perm leases) (hdrop : Dropped6 ctx removed sn sn')

include hperm hdrop

theorem Dropped6.mem_kept (hnodup : (leases.map (·.addr)).Nodup)
    (hmem : ∀ l ∈ leases, l ∈ sn.server.leases) (hl : l ∈ kept) : l ∈ sn'.server.leases := by
  rw [hdrop.leases]
  refine (mem_eraseAll_of_kept hperm hnodup hl rfl).mpr (hmem l ?_)
  exact hperm.mem_iff.mp (mem_append_right removed hl)

theorem Carried6.dropped (h : Carried6 ctx s db leases sn) : Carried6 ctx s db kept sn' := by
  have hmem : ∀ l ∈ kept, l ∈ leases := fun l hl =>
    hperm.mem_iff.mp (mem_append_right removed hl)
  refine ⟨hdrop.subnet ▸ h.subnet, ?_, fun l hl => h.own l (hmem l hl),
    fun l hl => h.network l (hmem l hl), fun hreal l hl => ?_, fun hreal m hm => ?_⟩
  · have hall := (hperm.map (·.addr)).nodup_iff.mpr h.nodup
    rw [map_append] at hall
    exact (nodup_append.mp hall).2.1
  · obtain ⟨m, hm, haddr⟩ := h.inUse hreal l (hmem l hl)
    refine ⟨m, ?_, haddr⟩
    rw [hdrop.leases]
    exact (mem_eraseAll_of_kept hperm h.nodup hl haddr).mpr hm
  · rw [hdrop.leases, mem_eraseAll] at hm
    refine (h.origin hreal m hm.1).imp_right fun hin => ?_
    refine (mem_append.mp (hperm.mem_iff.mpr hin)).resolve_left fun hrem => ?_
    exact hm.2 m hrem rfl

theorem Settled6.dropped (h : Settled6 ctx s db leases sn) : Settled6 ctx s db kept sn' where
  toCarried6 := h.toCarried6.dropped hperm hdrop
  stored := by
    intro hreal l hl
    rw [hdrop.leases, mem_eraseAll_of_kept hperm h.nodup hl rfl]
    exact h.stored hreal l (hperm.mem_iff.mp (mem_append_right removed hl))

end

/-! ### Reservations -/

theorem mem_extended {k : Lease6}
    (hk : k ∈ leases.map fun k => if k = l then conditionalExtendLifetime env k else k) :
    (k = conditionalExtendLifetime env l ∧ l ∈ leases) ∨ (k ∈ leases ∧ k ≠ l) := by
  obtain ⟨m, hm, rfl⟩ := mem_map.mp hk
  split
  · rename_i heq
    exact .inl ⟨by rw [heq], heq ▸ hm⟩
  · rename_i hne
    exact .inr ⟨hm, hne⟩

/-- A lease of the plan is an old one, perhaps extended, or the one of a free reservation. -/
theorem mem_planned6 (hplanned : planned6 env ctx sn leases = .ok (t, ls)) (hl : l ∈ ls) :
    (∃ k ∈ leases, l = k ∨ l = conditionalExtendLifetime env k) ∨
      ∃ h r, findFreeReservation ctx sn.server.leases sn.subnet = some (t, h, r) ∧
        l = reservedLease6 env ctx sn t h r := by
  unfold planned6 at hplanned
  split at hplanned
  · cases hplanned
    exact .inl ⟨l, hl, .inl rfl⟩
  split at hplanned
  · cases hplanned
  · cases hplanned
    split at hl
    · exact .inl ⟨l, hl, .inl rfl⟩
    rcases mem_extended hl with ⟨rfl, hk⟩ | ⟨hk, -⟩
    · exact .inl ⟨_, hk, .inr rfl⟩
    · exact .inl ⟨l, hk, .inl rfl⟩
  · split at hplanned
    · cases hplanned
      exact .inl ⟨l, hl, .inl rfl⟩
    rename_i h r hfree
    cases hplanned
    rcases mem_append.mp hl with hl | hl
    · exact .inl ⟨l, hl, .inl rfl⟩
    · exact .inr ⟨h, r, hfree, mem_singleton.mp hl⟩

/-- The lease of a free reservation passes as reserved. -/
theorem isReserved6_reservedLease6 (htype : ctx.type ≠ .ta) {host : Host} {r : IPv6Resrv}
    (hfree : findFreeReservation ctx sn.server.leases sn.subnet = some (t, host, r)) :
    isReserved6 ctx (reservedLease6 env ctx sn t host r) = .ok true := by
  obtain ⟨-, -, hhost, hr, -⟩ := findFreeReservation_some hfree
  obtain ⟨hr, hrtype⟩ : r ∈ host.ipv6Reservations ∧ r.type = ctx.resrvType := by
    simpa [Host.getIPv6Reservations] using hr
  have hv4 := ctx.type_ne_v4
  have hlen : (reservedLease6 env ctx sn t host r).prefixlen = r.len := by
    have hvalid := r.valid
    simp only [validResrv, Bool.and_eq_true, hrtype,
      resrvType] at hvalid
    cases hctx : ctx.type <;> simp_all [reservedLease6, newLease6]
  have hmake : make ctx.resrvType (reservedLease6 env ctx sn t host r).addr r.len = some r := by
    rw [← hrtype]
    exact dif_pos r.valid
  have hfound : ctx.findHost (reservedLease6 env ctx sn t host r).subnetId = some host := hhost
  simp [isReserved6, hlen, hmake, hfound, Host.hasReservation, Host.getIPv6Reservations, hr]

theorem mem_insert_iff_noClash (htype : l.type = ctx.type)
    (hnone : db.getLease6 ctx.type l.addr = none) : l ∈ db.insert l ↔ NoClash6 ctx db l.addr := by
  cases hfind : db.find l.addr with
  | none =>
    refine iff_of_true ((mem_insert hfind).mpr (.inl rfl)) ?_
    exact fun m hm haddr => absurd haddr (find_eq_none_iff.mp hfind m hm)
  | some m =>
    obtain ⟨hm, haddr⟩ := find_eq_some_iff.mp hfind
    have hclash : m.type ≠ ctx.type := by
      intro heq
      rw [Lease6Storage.getLease6_eq_some.mpr ⟨hm, haddr, heq⟩] at hnone
      cases hnone
    rw [insert_taken hfind]
    refine iff_of_false (fun hl => hclash ?_) fun h => hclash (h m hm haddr)
    rw [eq_of_key_eq hm hl haddr]
    exact htype

namespace ReservedEffect6

section

variable (heffect : ReservedEffect6 env ctx leases sn st' t ls)
include heffect

theorem inUse
    (hreal : ctx.fakeAllocation = false) (hmem : ∀ l ∈ leases, l ∈ sn.server.leases) (hl : l ∈ ls) :
    ∃ k ∈ st'.leases, k.addr = l.addr := by
  cases heffect with
  | unchanged hsame => exact ⟨l, hsame.leases ▸ hmem l hl, rfl⟩
  | extended _ _ hleases =>
    obtain ⟨k, hk, haddr⟩ : ∃ k ∈ leases, k.addr = l.addr := by
      rcases mem_extended hl with ⟨rfl, hk⟩ | ⟨hk, -⟩
      · exact ⟨_, hk, rfl⟩
      · exact ⟨l, hk, rfl⟩
    rw [hleases, ← haddr]
    exact exists_key_replace (hmem k hk)
  | created _ _ hleases =>
    rw [hleases]
    rcases mem_append.mp hl with hl | hl
    · exact ⟨l, mem_insert_of_mem (hmem l hl), rfl⟩
    · rw [mem_singleton.mp hl]
      exact exists_key_insert
  | offered hfake => simp [hreal] at hfake

/-- In a real allocation a lease of the new list is stored, unless its address was taken. -/
theorem stored (hreal : ctx.fakeAllocation = false)
    (hmem : ∀ l ∈ leases, l ∈ sn.server.leases ∧ l.type = ctx.type) (hl : l ∈ ls) :
    l ∈ st'.leases ↔ NoClash6 ctx sn.server.leases l.addr := by
  have hclash : ∀ l ∈ leases, NoClash6 ctx sn.server.leases l.addr :=
    fun l hl => noClash_of_mem (hmem l hl).1 (hmem l hl).2
  cases heffect with
  | unchanged hsame => exact iff_of_true (hsame.leases ▸ (hmem l hl).1) (hclash l hl)
  | @extended k _ hfound hleases =>
    have hk := (hmem k (findReservedLease_mem hfound).1).1
    have hfind := find_extended env hk
    rw [hleases, mem_replace hfind]
    rcases mem_extended hl with ⟨rfl, hk'⟩ | ⟨hl', hne⟩
    · exact iff_of_true (.inl rfl) (hclash k hk')
    · refine iff_of_true (.inr ⟨(hmem l hl').1, fun heq => hne ?_⟩) (hclash l hl')
      exact eq_of_key_eq (hmem l hl').1 hk heq
  | created _ hfree hleases =>
    rw [hleases]
    rcases mem_append.mp hl with hl | hl
    · exact iff_of_true (mem_insert_of_mem (hmem l hl).1) (hclash l hl)
    · rw [mem_singleton.mp hl]
      exact mem_insert_iff_noClash rfl (findFreeReservation_some hfree).2.2.2.2
  | offered hfake => simp [hreal] at hfake

/-- Other addresses than those of the new list are left alone. -/
theorem frame (hmem : ∀ l ∈ leases, l ∈ sn.server.leases) (hm : ∀ l ∈ ls, m.addr ≠ l.addr) :
    m ∈ st'.leases ↔ m ∈ sn.server.leases := by
  cases heffect with
  | unchanged hsame => rw [hsame.leases]
  | @extended k _ hfound hleases =>
    have hk := (findReservedLease_mem hfound).1
    have hne : m.addr ≠ (conditionalExtendLifetime env k).addr :=
      hm _ (mem_map.mpr ⟨k, hk, if_pos rfl⟩)
    rw [hleases, mem_replace (find_extended env (hmem k hk))]
    constructor
    · rintro (rfl | ⟨hm, -⟩)
      · exact absurd rfl hne
      · exact hm
    · exact fun hm => .inr ⟨hm, hne⟩
  | created _ _ hleases =>
    rw [hleases]
    refine ⟨fun hin => (mem_of_mem_insert hin).resolve_left ?_, mem_insert_of_mem⟩
    rintro rfl
    exact hm _ (by simp) rfl
  | offered _ _ hsame => rw [hsame.leases]

/-- What comes to the database is in the new list. -/
theorem origin (hmem : ∀ l ∈ leases, l ∈ sn.server.leases) (hm : m ∈ st'.leases) :
    (m ∈ sn.server.leases ∧ m ∉ leases) ∨ m ∈ ls := by
  have hstays : ∀ m ∈ sn.server.leases, m ∈ leases ∨ m ∉ leases := fun m _ => Classical.em _
  cases heffect with
  | unchanged hsame =>
    rw [hsame.leases] at hm
    exact (hstays m hm).elim .inr fun h => .inl ⟨hm, h⟩
  | @extended k _ hfound hleases =>
    have hk := (findReservedLease_mem hfound).1
    have hfind := find_extended env (hmem k hk)
    rw [hleases, mem_replace hfind] at hm
    rcases hm with rfl | ⟨hm, hne⟩
    · exact .inr (mem_map.mpr ⟨k, hk, by simp⟩)
    refine (hstays m hm).elim (fun h => .inr (mem_map.mpr ⟨m, h, ?_⟩)) fun h => .inl ⟨hm, h⟩
    rw [if_neg]
    rintro rfl
    exact hne rfl
  | created _ _ hleases =>
    rw [hleases] at hm
    rcases mem_of_mem_insert hm with rfl | hm
    · exact .inr (by simp)
    · exact (hstays m hm).elim (fun h => .inr (mem_append_left _ h)) fun h => .inl ⟨hm, h⟩
  | offered _ _ hsame =>
    rw [hsame.leases] at hm
    exact (hstays m hm).elim (fun h => .inr (mem_append_left _ h)) fun h => .inl ⟨hm, h⟩

end

end ReservedEffect6

section

variable (hmem : ∀ l ∈ leases, l ∈ sn.server.leases)
  (hplanned : planned6 env ctx sn leases = .ok (sn'.subnet, ls))
  (heffect : ReservedEffect6 env ctx leases sn sn'.server sn'.subnet ls)

include hmem hplanned heffect

/-- Reserving keeps the leases and adds the one of a free reservation, if there is one. -/
theorem Carried6.reserved (h : Carried6 ctx s db leases sn) :
    Carried6 ctx s db ls sn' where
  subnet := sibling_trans h.subnet heffect.subnet_mem
  nodup := heffect.nodup (fun l hl => ⟨hmem l hl, (h.own l hl).2.2⟩) h.nodup
  own := by
    intro l hl
    rcases mem_planned6 hplanned hl with ⟨k, hk, rfl | rfl⟩ | ⟨host, r, -, rfl⟩
    · exact h.own l hk
    · exact h.own k hk
    · exact ⟨rfl, rfl, rfl⟩
  network := by
    intro l hl
    rcases mem_planned6 hplanned hl with ⟨k, hk, rfl | rfl⟩ | ⟨host, r, -, rfl⟩
    · exact h.network l hk
    · exact h.network k hk
    · exact ⟨sn'.subnet, sibling_trans h.subnet heffect.subnet_mem, rfl⟩
  inUse := by
    exact fun hreal l hl => heffect.inUse hreal hmem hl
  origin := by
    intro hreal m hm
    rcases heffect.origin hmem hm with ⟨hm, hnot⟩ | hm
    · exact .inl ((h.origin hreal m hm).resolve_right hnot)
    · exact .inr hm

theorem Carried6.settled_reserved (h : Carried6 ctx s sn.server.leases leases sn) :
    Settled6 ctx s sn.server.leases ls sn' where
  toCarried6 := h.reserved hmem hplanned heffect
  stored := fun hreal _ hl =>
    heffect.stored hreal (fun l hl => ⟨hmem l hl, (h.own l hl).2.2⟩) hl

end

/-! ### Updates -/

theorem updatedLease6_own {hostname : String} :
    (updatedLease6 env ctx hostname l).duid = l.duid ∧
      (updatedLease6 env ctx hostname l).iaid = l.iaid ∧
      (updatedLease6 env ctx hostname l).type = l.type := by
  unfold updatedLease6
  split <;> exact ⟨rfl, rfl, rfl⟩

/-- Leases are written over the ones with the same addresses. -/
theorem mem_replaceAll {f : Lease6 → Lease6} (hf : ∀ l, (f l).addr = l.addr)
    (hnodup : (kept.map (·.addr)).Nodup) (hmem : ∀ l ∈ kept, l ∈ db) :
    m ∈ kept.foldl (fun db l => db.replace (f l)) db ↔
      (∃ l ∈ kept, m = f l) ∨ (m ∈ db ∧ ∀ l ∈ kept, m.addr ≠ l.addr) := by
  induction kept generalizing db with
  | nil => simp
  | cons l ls ih =>
    rw [map_cons, nodup_cons] at hnodup
    have hne : ∀ k ∈ ls, k.addr ≠ l.addr := fun k hk heq =>
      hnodup.1 (mem_map.mpr ⟨k, hk, heq⟩)
    have hfind : db.find (lease6Spec.key (f l)) = some l :=
      find_eq_some_iff.mpr ⟨hmem l mem_cons_self, (hf l).symm⟩
    have hreplace : ∀ {m : Lease6}, m ∈ db.replace (f l) ↔ m = f l ∨ (m ∈ db ∧ m.addr ≠ l.addr) := by
      intro m
      rw [mem_replace hfind, lease6Spec_key, lease6Spec_key, hf]
    have hmem' : ∀ k ∈ ls, k ∈ db.replace (f l) := fun k hk =>
      hreplace.mpr (.inr ⟨hmem k (mem_cons_of_mem l hk), hne k hk⟩)
    rw [foldl_cons, ih hnodup.2 hmem', hreplace]
    constructor
    · rintro (⟨k, hk, rfl⟩ | ⟨rfl | ⟨hm, hml⟩, hmls⟩)
      · exact .inl ⟨k, mem_cons_of_mem l hk, rfl⟩
      · exact .inl ⟨l, mem_cons_self, rfl⟩
      · exact .inr ⟨hm, forall_mem_cons.mpr ⟨hml, hmls⟩⟩
    · rintro (⟨k, hk, rfl⟩ | ⟨hm, hall⟩)
      · rcases mem_cons.mp hk with rfl | hk
        · refine .inr ⟨.inl rfl, fun j hj heq => hne j hj ?_⟩
          rw [← heq, hf]
        · exact .inl ⟨k, hk, rfl⟩
      · rw [forall_mem_cons] at hall
        exact .inr ⟨.inr ⟨hm, hall.1⟩, hall.2⟩

/-- A lease that is updated keeps its place in the database. -/
theorem Settled6.updated (env : Env) (h : Settled6 ctx s db kept sn)
    (hmem : ∀ l ∈ kept, l ∈ sn.server.leases) :
    Yields (updateLeaseData env ctx false kept) sn
      fun ls sn' => ls = kept.map (updatedLease6 env ctx sn.hostname) ∧ Settled6 ctx s db ls sn' := by
  have hown : ∀ l ∈ kept.map (updatedLease6 env ctx sn.hostname),
      l.duid = ctx.duid ∧ l.iaid = ctx.iaid ∧ l.type = ctx.type := by
    refine forall_mem_map.mpr fun l hl => ?_
    obtain ⟨hduid, hiaid, htype⟩ := updatedLease6_own
    rw [hduid, hiaid, htype]
    exact h.own l hl
  have hnetwork : ∀ l ∈ kept.map (updatedLease6 env ctx sn.hostname),
      ∃ t ∈ s.siblings, l.subnetId = t.getID := by
    refine forall_mem_map.mpr fun l hl => ?_
    rw [updatedLease6_subnetId]
    exact h.network l hl
  have hnodup : ((kept.map (updatedLease6 env ctx sn.hostname)).map (·.addr)).Nodup := by
    rw [map_map]
    exact (map_congr_left fun l _ => updatedLease6_addr env ctx sn.hostname l) ▸ h.nodup
  cases hfake : ctx.fakeAllocation with
  | true =>
    refine .of_ok (updateLeaseData_fake hfake) ⟨rfl, ⟨h.subnet, hnodup, hown,
      hnetwork, fun hreal => ?_, fun hreal => ?_⟩, fun hreal => ?_⟩ <;> simp [hfake] at hreal
  | false =>
    refine .imp (updateLeaseData_post env hfake false sn hmem h.nodup) ?_
    rintro _ sn' ⟨rfl, hup⟩
    have hmem' : ∀ {m}, m ∈ sn'.server.leases ↔
        (∃ l ∈ kept, m = updatedLease6 env ctx sn.hostname l) ∨
          (m ∈ sn.server.leases ∧ ∀ l ∈ kept, m.addr ≠ l.addr) := by
      rw [hup.leases]
      exact mem_replaceAll (updatedLease6_addr env ctx sn.hostname) h.nodup hmem
    have hin : ∀ l ∈ kept.map (updatedLease6 env ctx sn.hostname), l ∈ sn'.server.leases :=
      forall_mem_map.mpr fun k hk => hmem'.mpr (.inl ⟨k, hk, rfl⟩)
    refine ⟨rfl, ⟨hup.subnet ▸ h.subnet, hnodup, hown, hnetwork, fun _ l hl => ⟨l, hin l hl, rfl⟩,
      fun _ m hm => ?_⟩, fun _ l hl => iff_of_true (hin l hl) ?_⟩
    · rcases hmem'.mp hm with ⟨l, hl, rfl⟩ | ⟨hm, hne⟩
      · exact .inr (mem_map_of_mem hl)
      · exact .inl ((h.origin hfake m hm).resolve_right fun hin => hne m hin rfl)
    · obtain ⟨k, hk, rfl⟩ := mem_map.mp hl
      rw [NoClash6, updatedLease6_addr]
      exact (h.stored hfake k hk).mp (hmem k hk)

/-! ## The checks as a whole -/

theorem settleLeases6_post (env : Env) (h : Carried6 ctx s sn.server.leases leases sn)
    (hmem : ∀ l ∈ leases, l ∈ sn.server.leases) :
    Post (settleLeases6 env ctx leases) sn
      (fun ls sn' => (∃ kept, settled6 env ctx sn leases = .ok kept ∧
          ls = if ctx.hosts.isEmpty then kept.map (updatedLease6 env ctx sn.hostname) else kept) ∧
        Settled6 ctx s sn.server.leases ls sn')
      fun e _ => e = .badValue ∧ settled6 env ctx sn leases = .error e := by
  have hplan := allocateReserved_post env ctx hmem
  unfold settleLeases6 settled6
  cases hempty : leases.isEmpty with
  | true =>
    cases hhosts : ctx.hosts.isEmpty with
    | true =>
      obtain rfl := isEmpty_iff.mp hempty
      exact .pure ⟨⟨[], rfl, rfl⟩, h.settled hmem⟩
    | false =>
      refine .mono hplan ?_ ?_
      · rintro ls sn' ⟨hplanned, heffect, -⟩
        exact ⟨⟨ls, by rw [hplanned]; rfl, rfl⟩, h.settled_reserved hmem hplanned heffect⟩
      · rintro e sn' ⟨herr, hbad, -⟩
        exact ⟨hbad, by rw [herr]; rfl⟩
  | false =>
    cases hhosts : ctx.hosts.isEmpty with
    | true =>
      refine .seq ((removeNonmatching_post h.nodup).post mayKeep6_error) ?_
      rintro kept sn₁ ⟨hkept, hperm, hdrop⟩
      have hkept' := (h.settled hmem).dropped hperm hdrop
      refine Yields.imp (hkept'.updated env fun l hl => hdrop.mem_kept hperm h.nodup hmem hl) ?_
      rintro _ sn' ⟨rfl, hsettled⟩
      exact ⟨⟨kept, hkept, by rw [hdrop.hostname]; rfl⟩, hsettled⟩
    | false =>
      refine .bind (.mono hplan ?_ ?_)
      · rintro ls sn₁ ⟨hplanned, heffect, -⟩
        have hls := h.settled_reserved hmem hplanned heffect
        simp only [hplanned, Except.bind, checked6]
        refine .bind (.mono ((removeNonmatching_post hls.nodup).post mayKeep6_error) ?_ ?_)
        · rintro kept sn₂ ⟨hkept, hperm, hdrop⟩
          simp only [hkept]
          refine .imp ((removeNonreserved_post env ctx kept sn₂).post isReserved6_error) ?_
          rintro kept' sn' ⟨hkept', hperm', hdrop'⟩
          exact ⟨⟨kept', hkept', rfl⟩, (hls.dropped hperm hdrop).dropped hperm' hdrop'⟩
        · rintro e sn' ⟨hbad, herr⟩
          exact ⟨hbad, by rw [herr]⟩
      · rintro e sn' ⟨herr, hbad, -⟩
        exact ⟨hbad, by rw [herr]; rfl⟩

/-- An allocation that is not real only takes the leases that fail the checks from the database. -/
theorem settleRenewed6_post (h : Carried6 ctx s db leases sn)
    (hmem : ∀ l ∈ leases, l ∈ sn.server.leases) :
    Post (settleRenewed6 env ctx leases) sn
      (fun ls sn' => settledRenewed6 env ctx sn leases = .ok ls ∧ Carried6 ctx s db ls sn' ∧
        (ctx.fakeAllocation = true → ∀ l ∈ ls, ∀ m : Lease6, m.addr = l.addr →
          (m ∈ sn'.server.leases ↔
            m ∈ eraseAll (sift (mayKeep6 env ctx sn.subnet) none leases).removed sn.server.leases)))
      fun e _ => e = .badValue ∧ settledRenewed6 env ctx sn leases = .error e := by
  unfold settleRenewed6 settledRenewed6
  refine .bind (.mono ((removeNonmatching_post h.nodup).post mayKeep6_error) ?_ ?_)
  · rintro kept sn₁ ⟨hkept, hperm, hdrop⟩
    have hkept' := h.dropped hperm hdrop
    have hmem' : ∀ l ∈ kept, l ∈ sn₁.server.leases :=
      fun l hl => hdrop.mem_kept hperm h.nodup hmem hl
    rw [hkept]
    simp only [Except.bind]
    cases hhosts : ctx.hosts.isEmpty with
    | true => exact .pure ⟨rfl, hkept', fun _ _ _ _ _ => by rw [hdrop.leases]⟩
    | false =>
      simp only [Bool.false_eq_true, if_false]
      rw [← hdrop.planned6_eq]
      refine .bind (.mono (allocateReserved_post env ctx hmem') ?_ ?_)
      · rintro ls sn₂ ⟨hplanned, heffect, -⟩
        simp only [hplanned]
        refine .imp ((removeNonreserved_post env ctx ls sn₂).post isReserved6_error) ?_
        rintro kept' sn' ⟨hkept'', hperm', hdrop'⟩
        have hls := hkept'.reserved hmem' hplanned heffect
        refine ⟨hkept'', hls.dropped hperm' hdrop', fun hfake l hl m haddr => ?_⟩
        rw [hdrop'.leases, mem_eraseAll_of_kept hperm' hls.nodup hl haddr,
          (heffect.unchanged_of_fake hfake).leases, hdrop.leases]
      · rintro e sn' ⟨herr, hbad, -⟩
        exact ⟨hbad, by rw [herr]⟩
  · rintro e sn' ⟨hbad, herr⟩
    exact ⟨hbad, by rw [herr]; rfl⟩

/-! ## Extensions -/

/-- Within the network the lease decides about its subnet, not the subnet that is current. -/
theorem subnetOfLease_eq {u : SubnetPtr 128} (ht : t ∈ s.siblings) (hu : u ∈ s.siblings)
    (hl : l.subnetId = u.getID) : subnetOfLease t l = u := by
  unfold subnetOfLease
  split
  · rename_i hid
    exact eq_of_getID_eq ht hu (hid.trans hl)
  rename_i hid
  cases hnet : t.network with
  | none =>
    have hself : u ∈ t.siblings := siblings_of_sibling ht ▸ hu
    have heq : u = t := by simpa [siblings, hnet] using hself
    exact absurd (heq ▸ hl.symm) hid
  | some n =>
    have hfound : t.siblings.find? (fun v => decide (v.getID = l.subnetId)) = some u := by
      rw [siblings_of_sibling ht]
      cases hfind : s.siblings.find? (fun v => decide (v.getID = l.subnetId)) with
      | none => simpa [hl] using find?_eq_none.mp hfind u hu
      | some v =>
        have hv : v.getID = l.subnetId := by simpa using find?_some hfind
        rw [eq_of_getID_eq (mem_of_find?_eq_some hfind) hu (hv.trans hl)]
    simp [getSubnet, hnet, hfound]

/-- What becomes of a lease of `renewLeases6`, with the database at the end of the call. -/
inductive Outcome6 (env : Env) (ctx : ClientContext6) (s : SubnetPtr 128) (db : Lease6Storage)
    (l : Lease6) : Lease6 → Prop
  | removed (hleaves : leavesSubnet ctx (subnetOfLease s l) l = true)
      (hgone : ∀ m ∈ db, m.addr ≠ l.addr) : Outcome6 env ctx s db l l
  | renewed {hostname : String} (hstays : leavesSubnet ctx (subnetOfLease s l) l = false)
      (hmem : extendedLease6 env ctx (subnetOfLease s l) hostname l ∈ db) :
      Outcome6 env ctx s db l (extendedLease6 env ctx (subnetOfLease s l) hostname l)

theorem Outcome6.frame {db' : Lease6Storage} {r : Lease6} (h : Outcome6 env ctx s db l r)
    (hframe : ∀ m : Lease6, m.addr = l.addr → (m ∈ db' ↔ m ∈ db)) : Outcome6 env ctx s db' l r := by
  cases h with
  | removed hleaves hgone =>
    exact .removed hleaves fun m hm haddr => hgone m ((hframe m haddr).mp hm) haddr
  | renewed hstays hmem =>
    refine .renewed hstays ((hframe _ ?_).mpr hmem)
    rfl

/-- One extension: the lease has its outcome, and other addresses are not touched. -/
theorem Extended6.outcome {r : Lease6} (h : Extended6 env ctx l sn sn' r)
    (hsubnet : sn'.subnet = subnetOfLease s l) :
    Outcome6 env ctx s sn'.server.leases l r ∧
      ∀ m : Lease6, m.addr ≠ l.addr → (m ∈ sn'.server.leases ↔ m ∈ sn.server.leases) := by
  cases h with
  | removed hleaves hleases _ =>
    rw [hsubnet] at hleaves
    rw [hleases]
    refine ⟨.removed hleaves fun m hm => (mem_erase.mp hm).2, fun m hne => ?_⟩
    exact mem_erase.trans (and_iff_left hne)
  | renewed hstays hfind hleases _ =>
    rw [hsubnet] at hstays hleases ⊢
    have hreplace : ∀ m : Lease6, m ∈ sn'.server.leases ↔
        m = extendedLease6 env ctx (subnetOfLease s l) sn.hostname l ∨
          (m ∈ sn.server.leases ∧ m.addr ≠ l.addr) := by
      intro m
      rw [hleases]
      exact mem_replace hfind
    refine ⟨.renewed hstays ((hreplace _).mpr (.inl rfl)), fun m hne => ?_⟩
    refine (hreplace m).trans ⟨?_, fun hm => .inr ⟨hm, hne⟩⟩
    rintro (rfl | ⟨hm, -⟩)
    · exact absurd rfl hne
    · exact hm

/-- The lease may stay in its subnet, but the database has no lease for its address to write over. -/
def Missing6 (ctx : ClientContext6) (s : SubnetPtr 128) (db : Lease6Storage) (l : Lease6) : Prop :=
  leavesSubnet ctx (subnetOfLease s l) l = false ∧ ∀ m ∈ db, m.addr ≠ l.addr

theorem Missing6.frame {db' : Lease6Storage} (h : Missing6 ctx s db l)
    (hframe : ∀ m : Lease6, m.addr = l.addr → (m ∈ db' ↔ m ∈ db)) : Missing6 ctx s db' l :=
  ⟨h.1, fun m hm haddr => h.2 m ((hframe m haddr).mp hm) haddr⟩

theorem Extended6.not_missing {r : Lease6} (h : Extended6 env ctx l sn sn' r)
    (hsubnet : sn'.subnet = subnetOfLease s l) : ¬Missing6 ctx s sn.server.leases l := by
  rintro ⟨hstays, hnone⟩
  cases h with
  | removed hleaves =>
    rw [hsubnet, hstays] at hleaves
    cases hleaves
  | renewed _ hfind =>
    obtain ⟨hold, haddr⟩ := find_eq_some_iff.mp hfind
    exact hnone _ hold haddr

/-- The extensions of all leases, which end with an exception where a lease is missing. -/
theorem extendLeases6_post (hsubnet : sn.subnet ∈ s.siblings) (hnodup : (ls.map (·.addr)).Nodup)
    (hnetwork : ∀ l ∈ ls, ∃ t ∈ s.siblings, l.subnetId = t.getID) :
    Post (extendLeases6 env ctx ls) sn
      (fun rs sn' => ls.Forall₂ (Outcome6 env ctx s sn'.server.leases) rs ∧
        (∀ m : Lease6, (∀ l ∈ ls, m.addr ≠ l.addr) →
          (m ∈ sn'.server.leases ↔ m ∈ sn.server.leases)) ∧
        ∀ l ∈ ls, ¬Missing6 ctx s sn.server.leases l)
      fun e _ => e = .noSuchLease ∧ ∃ l ∈ ls, Missing6 ctx s sn.server.leases l := by
  induction ls generalizing sn with
  | nil => exact .pure ⟨.nil, fun _ _ => Iff.rfl, by simp⟩
  | cons l ls ih =>
    rw [map_cons, nodup_cons] at hnodup
    rw [forall_mem_cons] at hnetwork
    have hother : ∀ k ∈ ls, k.addr ≠ l.addr := fun k hk heq =>
      hnodup.1 (mem_map.mpr ⟨k, hk, heq⟩)
    obtain ⟨u, hu, hid⟩ := hnetwork.1
    have hown : subnetOfLease sn.subnet l = subnetOfLease s l :=
      (subnetOfLease_eq hsubnet hu hid).trans (subnetOfLease_eq s.self_mem_siblings hu hid).symm
    refine .bind (.mono extendLease6_post ?_ ?_)
    · rintro r sn₁ ⟨hmoved, -, hext⟩
      obtain ⟨hout, hframe⟩ := hext.outcome (hmoved.trans hown)
      have hfirst := hext.not_missing (hmoved.trans hown)
      rw [subnetOfLease_eq hsubnet hu hid] at hmoved
      refine .bind (.mono (ih (hmoved ▸ hu) hnodup.2 hnetwork.2) ?_ ?_)
      · rintro rs sn' ⟨hrest, hframe', hfound⟩
        refine .pure ⟨.cons (hout.frame fun m haddr => hframe' m ?_) hrest, fun m hne => ?_,
          forall_mem_cons.mpr ⟨hfirst, fun k hk hmissing => hfound k hk ?_⟩⟩
        · exact fun k hk heq => hother k hk (heq.symm.trans haddr)
        · rw [forall_mem_cons] at hne
          exact (hframe' m hne.2).trans (hframe m hne.1)
        · exact hmissing.frame fun m haddr => hframe m (haddr ▸ hother k hk)
      · rintro e sn' ⟨rfl, k, hk, hmissing⟩
        refine ⟨rfl, k, mem_cons_of_mem l hk, hmissing.frame fun m haddr => ?_⟩
        exact (hframe m (haddr ▸ hother k hk)).symm
    · rintro e sn₁ ⟨rfl, hstays, hnone⟩
      rw [hown] at hstays
      exact ⟨rfl, l, mem_cons_self, hstays, fun m hm => find_eq_none_iff.mp hnone m hm⟩

theorem Carried6.extended (env : Env) (hreal : ctx.fakeAllocation = false)
    (h : Carried6 ctx s db ls sn) :
    Yields (extendLeases6 env ctx ls) sn
      fun rs sn' => ls.Forall₂ (Outcome6 env ctx s sn'.server.leases) rs := by
  refine .mono (extendLeases6_post h.subnet h.nodup h.network) (fun _ _ h => h.1) ?_
  -- In a real allocation the address is in use, so there is a lease to update.
  rintro e sn' ⟨-, l, hl, -, hnone⟩
  obtain ⟨m, hm, haddr⟩ := h.inUse hreal l hl
  exact hnone m hm haddr

end Dhcp
