import Mathlib.Data.List.Nodup
import Mathlib.Data.List.TakeWhile
import Mathlib.Algebra.BigOperators.Group.List.Basic
import Mathlib.Algebra.Ring.Int.Defs

/-!
# Ordered multi-index containers

A container that keeps the same elements in several ordered sequences, one per index.
One key is unique; every other index admits equal elements and keeps them in the order in
which they were linked.

The invariant is carried by the structure: the sequences are permutations of each other,
each is sorted by its own comparison, and the key is unique.
-/

namespace Infra

open List Option

variable {α κ ι : Type}

/-! ## One ordered sequence -/

variable {cmp : α → α → Ordering} {p : α → Bool} {a b x : α} {l m pre post : List α}

/-- Links `x` behind every element that is not greater. -/
def linkUpper (cmp : α → α → Ordering) (x : α) : List α → List α
  | [] => [x]
  | y :: ys => if cmp x y = .lt then x :: y :: ys else y :: linkUpper cmp x ys

/-- Each element is not greater than the ones behind it. -/
def Ascending (cmp : α → α → Ordering) (l : List α) : Prop :=
  l.Pairwise fun a b => (cmp a b).isLE

/-- The elements stay in their order around the new one. -/
theorem linkUpper_split (cmp : α → α → Ordering) (x : α) (l : List α) :
    ∃ pre post, l = pre ++ post ∧ linkUpper cmp x l = pre ++ x :: post := by
  induction l with
  | nil => exact ⟨[], [], rfl, rfl⟩
  | cons y ys ih =>
    rw [linkUpper]
    split
    · exact ⟨[], y :: ys, rfl, rfl⟩
    · obtain ⟨pre, post, rfl, hlink⟩ := ih
      exact ⟨y :: pre, post, rfl, by rw [hlink]; rfl⟩

theorem linkUpper_perm : (linkUpper cmp x l).Perm (x :: l) := by
  obtain ⟨pre, post, rfl, hlink⟩ := linkUpper_split cmp x l
  rw [hlink]
  exact perm_middle

theorem isLE_of_not_lt [Std.OrientedCmp cmp] (h : cmp a b ≠ .lt) : (cmp b a).isLE := by
  have hswap : cmp b a = (cmp a b).swap := Std.OrientedCmp.eq_swap
  cases hc : cmp a b <;> simp_all

theorem linkUpper_ascending [Std.TransCmp cmp]
    (h : Ascending cmp l) : Ascending cmp (linkUpper cmp x l) := by
  induction l with
  | nil => exact pairwise_singleton _ _
  | cons y ys ih =>
    obtain ⟨hy, hys⟩ := pairwise_cons.mp h
    rw [linkUpper]
    split
    · rename_i hlt
      have hxy : (cmp x y).isLE := by simp [hlt]
      refine pairwise_cons.mpr ⟨?_, h⟩
      intro b hb
      rcases mem_cons.mp hb with rfl | hb
      · exact hxy
      · exact Std.TransCmp.isLE_trans hxy (hy b hb)
    · rename_i hge
      have hyx : (cmp y x).isLE := isLE_of_not_lt hge
      refine pairwise_cons.mpr ⟨?_, ih hys⟩
      intro b hb
      rcases mem_cons.mp ((linkUpper_perm).mem_iff.mp hb) with rfl | hb
      · exact hyx
      · exact hy b hb

/-- What is not less than the elements is linked behind them. -/
theorem linkUpper_append (h : ∀ y ∈ l, cmp x y ≠ .lt) (m : List α) :
    linkUpper cmp x (l ++ m) = l ++ linkUpper cmp x m := by
  induction l with
  | nil => rfl
  | cons y ys ih =>
    rw [cons_append, linkUpper, if_neg (h y mem_cons_self),
      ih fun z hz => h z (mem_cons_of_mem y hz)]
    rfl

/-- Elements that come in order are linked in that order. -/
theorem foldl_linkUpper [Std.OrientedCmp cmp]
    (h : Ascending cmp (l ++ m)) : m.foldl (fun l x => linkUpper cmp x l) l = l ++ m := by
  induction m generalizing l with
  | nil => rw [append_nil]; rfl
  | cons x m ih =>
    have hx : ∀ y ∈ l, cmp x y ≠ .lt := by
      intro y hy hlt
      have hle : (cmp y x).isLE := (pairwise_append.mp h).2.2 y hy x mem_cons_self
      have hswap : cmp y x = (cmp x y).swap := Std.OrientedCmp.eq_swap
      rw [hswap, hlt] at hle
      cases hle
    have hlast : linkUpper cmp x l = l ++ [x] := by simpa [linkUpper] using linkUpper_append hx []
    rw [foldl_cons, hlast, ih (by simpa using h)]
    simp

/-- `x` may stand between the neighbours `before` and `after` without breaking the order. -/
def fitsBetween (cmp : α → α → Ordering) (before after : Option α) (x : α) : Bool :=
  before.all (fun b => cmp x b != .lt) && after.all (fun a => cmp a x != .lt)

/--
Replaces the first element that `p` marks by `x`.

The element keeps its position when `x` fits between its neighbours; otherwise it is
unlinked and `x` is linked anew.
-/
def relink (cmp : α → α → Ordering) (p : α → Bool) (x : α) (l : List α) : List α :=
  match l.dropWhile (fun a => !p a) with
  | [] => l
  | _ :: post =>
    let pre := l.takeWhile (fun a => !p a)
    if fitsBetween cmp pre.getLast? post.head? x then pre ++ x :: post
    else linkUpper cmp x (pre ++ post)

theorem relink_append (hpre : ∀ b ∈ pre, ¬p b) (ha : p a) :
    relink cmp p x (pre ++ a :: post) =
      if fitsBetween cmp pre.getLast? post.head? x then pre ++ x :: post
      else linkUpper cmp x (pre ++ post) := by
  have hpre' : ∀ b ∈ pre, (!p b) = true := by simpa using hpre
  have hdrop : (pre ++ a :: post).dropWhile (fun b => !p b) = a :: post := by
    rw [dropWhile_append_of_pos hpre']
    simp [ha]
  have htake : (pre ++ a :: post).takeWhile (fun b => !p b) = pre := by
    rw [takeWhile_append_of_pos hpre']
    simp [ha]
  simp only [relink, hdrop, htake]

theorem relink_perm (ha : a ∈ l) (hp : p a) : (relink cmp p x l).Perm (x :: l.eraseP p) := by
  obtain ⟨c, pre, post, hpre, hc, rfl, herase⟩ := exists_of_eraseP ha hp
  rw [relink_append hpre hc, herase]
  split
  · exact perm_middle
  · exact linkUpper_perm

theorem Ascending.middle [Std.TransCmp cmp]
    (h : Ascending cmp (pre ++ post)) (hx : fitsBetween cmp pre.getLast? post.head? x) :
    Ascending cmp (pre ++ x :: post) := by
  obtain ⟨hpre, hpost, hcross⟩ := pairwise_append.mp h
  simp only [fitsBetween, Bool.and_eq_true] at hx
  have hbefore : ∀ b ∈ pre, (cmp b x).isLE := by
    intro b hb
    obtain ⟨c, hc⟩ := isSome_iff_exists.mp (getLast?_isSome.mpr (ne_nil_of_mem hb))
    obtain ⟨ys, rfl⟩ := getLast?_eq_some_iff.mp hc
    have hcx : (cmp c x).isLE := isLE_of_not_lt (by simpa [hc] using hx.1)
    rcases mem_append.mp hb with hb | hb
    · exact Std.TransCmp.isLE_trans ((pairwise_append.mp hpre).2.2 b hb c (by simp)) hcx
    · rwa [mem_singleton.mp hb]
  have hafter : ∀ b ∈ post, (cmp x b).isLE := by
    cases post with
    | nil => simp
    | cons c cs =>
      have hxc : (cmp x c).isLE := isLE_of_not_lt (by simpa using hx.2)
      intro b hb
      rcases mem_cons.mp hb with rfl | hb
      · exact hxc
      · exact Std.TransCmp.isLE_trans hxc ((pairwise_cons.mp hpost).1 b hb)
  refine pairwise_append.mpr ⟨hpre, pairwise_cons.mpr ⟨hafter, hpost⟩, ?_⟩
  intro b hb c hc
  rcases mem_cons.mp hc with rfl | hc
  · exact hbefore b hb
  · exact hcross b hb c hc

theorem relink_ascending [Std.TransCmp cmp] (h : Ascending cmp l) :
    Ascending cmp (relink cmp p x l) := by
  by_cases hex : ∃ a ∈ l, p a
  · obtain ⟨a, ha, hp⟩ := hex
    obtain ⟨c, pre, post, hpre, hc, rfl, -⟩ := exists_of_eraseP ha hp
    have hrest : Ascending cmp (pre ++ post) :=
      h.sublist (List.Sublist.append_left (sublist_cons_self c post) pre)
    rw [relink_append hpre hc]
    split
    · rename_i hfits
      exact hrest.middle hfits
    · exact linkUpper_ascending hrest
  · have hnil : l.dropWhile (fun a => !p a) = [] := by
      rw [dropWhile_eq_nil_iff]
      intro a ha
      simpa using fun hp => hex ⟨a, ha, hp⟩
    simp only [relink, hnil]
    exact h

/-! ## Sequences ordered by a key -/

section Keys

variable {f : α → Nat} {l m : List α} {x : α}

theorem compareOn_isLE {a b : α} : (compareOn f a b).isLE ↔ f a ≤ f b := by
  rw [compareOn, Nat.isLE_compare]

/-- A new element is the last one of its key. -/
theorem filter_linkUpper (h : Ascending (compareOn f) l) {k : Nat} :
    (linkUpper (compareOn f) x l).filter (f · = k) =
      l.filter (f · = k) ++ if f x = k then [x] else [] := by
  induction l with
  | nil => simp [linkUpper, filter_cons]
  | cons y l ih =>
    obtain ⟨hy, hl⟩ := pairwise_cons.mp h
    rw [linkUpper]
    split
    · next hlt =>
      have hlt : f x < f y := Nat.compare_eq_lt.mp hlt
      by_cases hx : f x = k
      · have hnone : (y :: l).filter (f · = k) = [] := by
          refine filter_eq_nil_iff.mpr fun z hz => ?_
          have hle : f y ≤ f z := by
            rcases mem_cons.mp hz with rfl | hz
            exacts [le_rfl, compareOn_isLE.mp (hy z hz)]
          simp
          omega
        simp [hx, hnone]
      · simp [hx]
    · rw [filter_cons, filter_cons, ih hl]
      split <;> rfl

/-- The elements of each key determine the sequence. -/
theorem Ascending.eq_of_filter (hl : Ascending (compareOn f) l) (hm : Ascending (compareOn f) m)
    (h : ∀ k, l.filter (f · = k) = m.filter (f · = k)) : l = m := by
  induction l generalizing m with
  | nil =>
    refine (eq_nil_iff_forall_not_mem.mpr fun z hz => ?_).symm
    exact filter_eq_nil_iff.mp (h (f z)).symm z hz (by simp)
  | cons x l ih =>
    have hle {z : α} {a b : List α} (ha : Ascending (compareOn f) (z :: a)) (w : α)
        (heq : (z :: a).filter (f · = f w) = (w :: b).filter (f · = f w)) : f z ≤ f w := by
      have hw : w ∈ z :: a := mem_of_mem_filter (heq ▸ by simp : w ∈ (z :: a).filter (f · = f w))
      rcases mem_cons.mp hw with rfl | hw
      exacts [le_rfl, compareOn_isLE.mp ((pairwise_cons.mp ha).1 w hw)]
    cases m with
    | nil => simpa using h (f x)
    | cons y m =>
      have hxy : f x = f y := Nat.le_antisymm (hle hl y (h _)) (hle hm x (h _).symm)
      obtain ⟨rfl, -⟩ : x = y ∧ _ := by simpa [hxy] using h (f y)
      rw [ih (pairwise_cons.mp hl).2 (pairwise_cons.mp hm).2 fun k => ?_]
      have hk := h k
      by_cases hx : f x = k <;> simpa [hx] using hk

end Keys

/-! ## The container -/

/-- The unique key, and one comparison per index. `main` is the index that is listed. -/
structure IndexSpec (α κ ι : Type) where
  main : ι
  key : α → κ
  cmp : ι → α → α → Ordering
  trans : ∀ i, Std.TransCmp (cmp i)

/-- The sequences of a container, one per index. -/
structure MultiIndex (S : IndexSpec α κ ι) where
  seq : ι → List α
  perm : ∀ i, (seq i).Perm (seq S.main)
  ascending : ∀ i, Ascending (S.cmp i) (seq i)
  nodup : ((seq S.main).map S.key).Nodup

namespace MultiIndex

variable {S : IndexSpec α κ ι} {d e : MultiIndex S} {a b x : α} {i : ι} {k : κ} {p q : α → Bool}
  {f : α → Int}

/-- The elements, in the order of the main index. -/
def rows (d : MultiIndex S) : List α := d.seq S.main

instance : Membership α (MultiIndex S) := ⟨fun d a => a ∈ d.rows⟩

instance [DecidableEq α] (d : MultiIndex S) (a : α) : Decidable (a ∈ d) :=
  inferInstanceAs (Decidable (a ∈ d.rows))

/-- The number of elements with a given property. -/
def count (d : MultiIndex S) (p : α → Bool) : Nat := d.rows.countP p

/-- The sum of a value over the elements. -/
def total (d : MultiIndex S) (f : α → Int) : Int := (d.rows.map f).sum

/-- The container without elements. -/
def empty : MultiIndex S where
  seq := fun _ => []
  perm := fun _ => List.Perm.refl _
  ascending := fun _ => List.Pairwise.nil
  nodup := nodup_nil

theorem mem_rows : a ∈ d.rows ↔ a ∈ d := Iff.rfl

theorem mem_seq : a ∈ d.seq i ↔ a ∈ d :=
  (d.perm i).mem_iff

theorem not_mem_empty : a ∉ (empty : MultiIndex S) := not_mem_nil

@[simp] theorem total_empty : (empty : MultiIndex S).total f = 0 := rfl

theorem total_indicator : d.total (fun a => if p a then 1 else 0) = d.count p := by
  unfold total count
  induction d.rows with
  | nil => rfl
  | cons a l ih =>
    rw [map_cons, sum_cons, countP_cons]
    split <;> push_cast <;> omega

theorem countP_seq : (d.seq i).countP p = d.count p :=
  (d.perm i).countP_eq p

theorem eq_of_key_eq (ha : a ∈ d) (hb : b ∈ d) (h : S.key a = S.key b) : a = b :=
  inj_on_of_nodup_map d.nodup ha hb h

/-- A part of a sequence has no key twice. -/
theorem nodup_of_sublist_seq {l : List α} (h : l.Sublist (d.seq i)) : (l.map S.key).Nodup :=
  (((d.perm i).map S.key).nodup_iff.mpr d.nodup).sublist (h.map S.key)

/-- What an index is searched for up to an upper bound is all there is below the bound. -/
theorem takeWhile_seq (d : MultiIndex S)
    (hp : ∀ a b, (S.cmp i a b).isLE → p b → p a) : (d.seq i).takeWhile p = (d.seq i).filter p := by
  have hsorted := d.ascending i
  generalize d.seq i = l at hsorted
  induction l with
  | nil => rfl
  | cons a l ih =>
    obtain ⟨hle, hl⟩ := pairwise_cons.mp hsorted
    cases ha : p a with
    | true => rw [takeWhile_cons_of_pos ha, filter_cons_of_pos ha, ih hl]
    | false =>
      have hnone : ∀ b ∈ l, ¬ p b := fun b hb hpb => by simp [hp a b (hle b hb) hpb] at ha
      rw [takeWhile_cons_of_neg (by simp [ha]), filter_cons_of_neg (by simp [ha]),
        filter_eq_nil_iff.mpr hnone]

variable [DecidableEq κ]

/-- The element with key `k`. -/
def find (d : MultiIndex S) (k : κ) : Option α := d.rows.find? fun a => S.key a = k

theorem find_eq_some_iff : d.find k = some a ↔ a ∈ d ∧ S.key a = k := by
  constructor
  · intro h
    exact ⟨mem_of_find?_eq_some h, by simpa using find?_some h⟩
  rintro ⟨ha, rfl⟩
  cases hf : d.find (S.key a) with
  | none => simpa using find?_eq_none.mp hf a ha
  | some b =>
    have hb : S.key b = S.key a := by simpa using find?_some hf
    rw [eq_of_key_eq (mem_of_find?_eq_some hf) ha hb]

theorem find_eq_none_iff : d.find k = none ↔ ∀ a ∈ d, S.key a ≠ k := by
  unfold find
  rw [find?_eq_none]
  simp only [decide_eq_true_eq, mem_rows]

theorem key_of_find (h : d.find k = some a) : S.key a = k :=
  (find_eq_some_iff.mp h).2

theorem mem_of_find (h : d.find k = some a) : a ∈ d :=
  (find_eq_some_iff.mp h).1

/-- Containers with the same lookups have the same elements. -/
theorem mem_congr (h : d.find = e.find) (a : α) : a ∈ d ↔ a ∈ e := by
  have hd := find_eq_some_iff (d := d) (k := S.key a) (a := a)
  have he := find_eq_some_iff (d := e) (k := S.key a) (a := a)
  rw [h] at hd
  simpa using hd.symm.trans he

/-- At most one element of each sequence has key `k`. -/
theorem seq_key_unique :
    (d.seq i).Pairwise fun a b => decide (S.key a = k) = true → decide (S.key b = k) = true → False := by
  have hnd : ((d.seq i).map S.key).Nodup := nodup_of_sublist_seq (List.Sublist.refl _)
  refine (pairwise_map.mp hnd).imp ?_
  intro a b hne ha hb
  simp only [decide_eq_true_eq] at ha hb
  exact hne (ha.trans hb.symm)

/-! ### Insertion -/

/-- Inserts `x` into every index, unless its key is taken. -/
def insert (d : MultiIndex S) (x : α) : MultiIndex S :=
  if h : d.find (S.key x) = none then
    { seq := fun i => linkUpper (S.cmp i) x (d.seq i)
      perm := fun i => ((linkUpper_perm).trans ((d.perm i).cons x)).trans
        (linkUpper_perm).symm
      ascending := fun i => by
        have := S.trans i
        exact linkUpper_ascending (d.ascending i)
      nodup := by
        refine (((linkUpper_perm).map S.key).nodup_iff).mpr (nodup_cons.mpr ⟨?_, d.nodup⟩)
        intro hmem
        obtain ⟨a, ha, hk⟩ := mem_map.mp hmem
        exact find_eq_none_iff.mp h a ha hk }
  else d

theorem insert_taken (h : d.find (S.key x) = some a) : d.insert x = d := by
  simp [insert, h]

theorem insert_rows_perm (h : d.find (S.key x) = none) : (d.insert x).rows.Perm (x :: d.rows) := by
  simp only [insert, h]
  exact linkUpper_perm

theorem mem_insert (h : d.find (S.key x) = none) : a ∈ d.insert x ↔ a = x ∨ a ∈ d :=
  (insert_rows_perm h).mem_iff.trans mem_cons

theorem mem_of_mem_insert (h : a ∈ d.insert x) : a = x ∨ a ∈ d := by
  cases hfind : d.find (S.key x) with
  | none => exact (mem_insert hfind).mp h
  | some b =>
    rw [insert_taken hfind] at h
    exact .inr h

theorem mem_insert_of_mem (h : a ∈ d) : a ∈ d.insert x := by
  cases hfind : d.find (S.key x) with
  | none => exact (mem_insert hfind).mpr (.inr h)
  | some b =>
    rw [insert_taken hfind]
    exact h

/-- After an insertion the key is in use, by the new element or by the one that kept it out. -/
theorem exists_key_insert : ∃ a ∈ d.insert x, S.key a = S.key x := by
  cases hfind : d.find (S.key x) with
  | none => exact ⟨x, (mem_insert hfind).mpr (.inl rfl), rfl⟩
  | some b =>
    rw [insert_taken hfind]
    exact ⟨b, mem_of_find hfind, key_of_find hfind⟩

theorem total_insert (h : d.find (S.key x) = none) : (d.insert x).total f = d.total f + f x := by
  rw [total, ((insert_rows_perm h).map f).sum_eq, map_cons, sum_cons, total, Int.add_comm]

/-! ### Removal -/

/-- Removes the element with key `k`. -/
def erase (d : MultiIndex S) (k : κ) : MultiIndex S where
  seq := fun i => (d.seq i).eraseP fun a => S.key a = k
  perm := fun i => (d.perm i).eraseP _ seq_key_unique
  ascending := fun i => (d.ascending i).sublist eraseP_sublist
  nodup := d.nodup.sublist (eraseP_sublist.map S.key)

theorem rows_perm_cons_erase (h : d.find k = some a) : d.rows.Perm (a :: (d.erase k).rows) := by
  obtain ⟨ha, hk⟩ := find_eq_some_iff.mp h
  obtain ⟨c, pre, post, -, hc, hsplit, herase⟩ :=
    exists_of_eraseP (p := fun a => decide (S.key a = k)) ha (by simpa using hk)
  have hca : c = a :=
    eq_of_key_eq (d := d) (mem_rows.mp (by rw [hsplit]; simp)) ha (by simp_all)
  show d.rows.Perm (a :: d.rows.eraseP fun b => decide (S.key b = k))
  rw [herase, hsplit, hca]
  exact perm_middle

theorem mem_erase : a ∈ d.erase k ↔ a ∈ d ∧ S.key a ≠ k := by
  constructor
  · intro h
    refine ⟨mem_of_mem_eraseP h, ?_⟩
    rintro rfl
    have hfind : d.find (S.key a) = some a := find_eq_some_iff.mpr ⟨mem_of_mem_eraseP h, rfl⟩
    have hnd := ((rows_perm_cons_erase hfind).map S.key).nodup_iff.mp d.nodup
    exact (nodup_cons.mp hnd).1 (mem_map.mpr ⟨a, h, rfl⟩)
  · rintro ⟨ha, hk⟩
    exact (mem_eraseP_of_neg (by simpa using hk)).mpr ha

theorem total_erase (h : d.find k = some a) (f : α → Int) :
    (d.erase k).total f = d.total f - f a := by
  have hsum := ((rows_perm_cons_erase h).map f).sum_eq
  rw [map_cons, sum_cons] at hsum
  unfold total
  omega

theorem erase_of_find_none (h : d.find k = none) : d.erase k = d := by
  cases d with
  | mk seq perm ascending nodup =>
    have hseq : (fun i => (seq i).eraseP fun a => decide (S.key a = k)) = seq := by
      funext i
      refine eraseP_of_forall_not fun a ha => ?_
      simpa using find_eq_none_iff.mp h a ((perm i).mem_iff.mp ha)
    simp only [erase, hseq]

omit [DecidableEq κ] in
/-- Keeps the elements with property `q`. -/
def filter (d : MultiIndex S) (q : α → Bool) : MultiIndex S where
  seq := fun i => (d.seq i).filter q
  perm := fun i => (d.perm i).filter q
  ascending := fun i => (d.ascending i).filter q
  nodup := d.nodup.sublist (filter_sublist.map S.key)

omit [DecidableEq κ] in
theorem mem_filter : a ∈ d.filter q ↔ a ∈ d ∧ q a :=
  List.mem_filter

omit [DecidableEq κ] in
omit [DecidableEq κ] in
/-- Elements that count for nothing can be dropped. -/
theorem total_filter (h : ∀ a ∈ d, ¬q a → f a = 0) : (d.filter q).total f = d.total f := by
  have hlist : ∀ l : List α, (∀ a ∈ l, ¬q a → f a = 0) →
      ((l.filter q).map f).sum = (l.map f).sum := by
    intro l
    induction l with
    | nil => intro _; rfl
    | cons a l ih =>
      intro hl
      have hrest := ih fun b hb => hl b (mem_cons_of_mem a hb)
      rw [filter_cons, map_cons, sum_cons]
      split
      · rw [map_cons, sum_cons, hrest]
      · rename_i hq
        rw [hrest, hl a mem_cons_self hq, Int.zero_add]
  exact hlist d.rows h

/-! ### Replacement -/

/-- Replaces the element that has the key of `x` by `x`; without such an element nothing changes. -/
def replace (d : MultiIndex S) (x : α) : MultiIndex S :=
  if h : (d.find (S.key x)).isSome then
    have hperm : ∀ i, (relink (S.cmp i) (fun a => S.key a = S.key x) x (d.seq i)).Perm
        (x :: (d.erase (S.key x)).seq i) := by
      intro i
      obtain ⟨a, ha⟩ := isSome_iff_exists.mp h
      exact relink_perm (mem_seq.mpr (mem_of_find ha)) (by simpa using key_of_find ha)
    { seq := fun i => relink (S.cmp i) (fun a => S.key a = S.key x) x (d.seq i)
      perm := fun i => ((hperm i).trans (((d.erase _).perm i).cons x)).trans (hperm S.main).symm
      ascending := fun i => by
        have := S.trans i
        exact relink_ascending (d.ascending i)
      nodup := by
        refine ((hperm S.main).map S.key).nodup_iff.mpr
          (nodup_cons.mpr ⟨?_, (d.erase (S.key x)).nodup⟩)
        intro hmem
        obtain ⟨b, hb, hbk⟩ := mem_map.mp hmem
        exact ((mem_erase (d := d)).mp hb).2 hbk }
  else d

theorem replace_rows_perm (h : d.find (S.key x) = some a) :
    (d.replace x).rows.Perm (x :: (d.erase (S.key x)).rows) := by
  simp only [replace, h, isSome_some]
  exact relink_perm (mem_of_find h) (by simpa using key_of_find h)

theorem mem_replace (h : d.find (S.key x) = some a) :
    b ∈ d.replace x ↔ b = x ∨ (b ∈ d ∧ S.key b ≠ S.key x) := by
  refine (replace_rows_perm h).mem_iff.trans (mem_cons.trans (or_congr_right ?_))
  exact mem_erase

theorem mem_of_mem_replace (h : a ∈ d.replace x) : a = x ∨ a ∈ d := by
  cases hfind : d.find (S.key x) with
  | none =>
    simp only [replace, hfind, isSome_none, Bool.false_eq_true] at h
    exact .inr h
  | some b => exact ((mem_replace hfind).mp h).imp_right And.left

/-- A replacement leaves the elements with other keys. -/
theorem mem_replace_of_ne (h : a ∈ d) (hne : S.key a ≠ S.key x) : a ∈ d.replace x := by
  cases hfind : d.find (S.key x) with
  | none => simpa [replace, hfind] using h
  | some b => exact (mem_replace hfind).mpr (.inr ⟨h, hne⟩)

/-- A replacement leaves every key in use. -/
theorem exists_key_replace (h : a ∈ d) : ∃ b ∈ d.replace x, S.key b = S.key a := by
  cases hfind : d.find (S.key x) with
  | none =>
    refine ⟨a, ?_, rfl⟩
    simpa [replace, hfind] using h
  | some c =>
    by_cases hk : S.key a = S.key x
    · exact ⟨x, (mem_replace hfind).mpr (.inl rfl), hk.symm⟩
    · exact ⟨a, (mem_replace hfind).mpr (.inr ⟨h, hk⟩), rfl⟩

theorem total_replace (h : d.find (S.key x) = some a)
    (f : α → Int) : (d.replace x).total f = d.total f - f a + f x := by
  have herase := total_erase h f
  rw [total, ((replace_rows_perm h).map f).sum_eq, map_cons, sum_cons]
  rw [total] at herase
  omega

/-! ### Lookups after an update -/

/-- What an update finds that puts `x` in the place of the element with its key. -/
theorem find_of_mem (h : ∀ b, b ∈ e ↔ b = x ∨ (b ∈ d ∧ S.key b ≠ S.key x)) :
    e.find k = if k = S.key x then some x else d.find k := by
  ext b
  rw [find_eq_some_iff, h]
  split
  · rename_i hk
    subst hk
    constructor
    · rintro ⟨rfl | ⟨-, hne⟩, hk⟩
      · rfl
      · exact absurd hk hne
    · rintro ⟨⟩
      exact ⟨.inl rfl, rfl⟩
  · rename_i hk
    rw [find_eq_some_iff]
    constructor
    · rintro ⟨rfl | ⟨hb, -⟩, rfl⟩
      · exact absurd rfl hk
      · exact ⟨hb, rfl⟩
    · rintro ⟨hb, rfl⟩
      exact ⟨.inr ⟨hb, hk⟩, rfl⟩

theorem find_insert (h : d.find (S.key x) = none) :
    (d.insert x).find k = if k = S.key x then some x else d.find k := by
  refine find_of_mem fun b => (mem_insert h).trans (or_congr_right ?_)
  exact (and_iff_left_of_imp (find_eq_none_iff.mp h b)).symm

theorem find_replace (h : d.find (S.key x) = some a) :
    (d.replace x).find k = if k = S.key x then some x else d.find k :=
  find_of_mem fun _ => mem_replace h

theorem find_erase {k' : κ} : (d.erase k).find k' = if k' = k then none else d.find k' := by
  ext a
  rw [find_eq_some_iff, mem_erase]
  split
  · rename_i hk
    simp [hk]
  rename_i hk
  rw [find_eq_some_iff]
  constructor
  · rintro ⟨⟨ha, -⟩, hk'⟩
    exact ⟨ha, hk'⟩
  · rintro ⟨ha, rfl⟩
    exact ⟨⟨ha, hk⟩, rfl⟩

end MultiIndex

end Infra
