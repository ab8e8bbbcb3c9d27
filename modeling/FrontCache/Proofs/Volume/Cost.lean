import FrontCache.Proofs.Volume.SelfHeal
/-!
# What a lookup costs the store

`resolve` and `list` call each other, and end because every call is on a path with fewer
components or, from `list` to `resolve`, on the same path: the measure (components, 0 for
`resolve` and 1 for `list`) falls lexicographically, as their definitions state.

`LookupCost v0 v roots listings` says that `v` is `v0` after lookups that made at most `roots`
calls for the root and `listings` listing calls, and no other call. Resolving a path of `n`
components costs at most one root call and `2 * n` listing calls: each component below the root
costs its lookup and, when the lookup misses a path its folder's listing still names, one fresh
listing of the folder, whose entry the folder's resolution has just cached. A path that is
cached, or a sidecar that the volume hides, costs nothing, and a path once resolved is cached
with the entry found, so resolving it again answers the same entry at no cost.
-/
namespace FrontCache

open Std.Do

set_option mvcgen.warning false

namespace Calls

/-- The calls after `i` more root calls and `j` more listing calls. -/
def plus (c : Calls) (i j : Nat) : Calls := { c with root := c.root + i, listing := c.listing + j }

@[simp] theorem plus_plus (c : Calls) (i j i' j' : Nat) :
    (c.plus i j).plus i' j' = c.plus (i + i') (j + j') := by
  simp [plus, Nat.add_assoc]

end Calls

namespace Store

theorem rootEntry_counts (s0 : Store) :
    ⦃fun s => ⌜s = s0⌝⦄ rootEntry
    ⦃post⟨fun _ s => ⌜s = { s0 with calls := s0.calls.plus 1 0 }⌝,
      fun _ s => ⌜s = { s0 with calls := s0.calls.plus 1 0 }⌝⟩⦄ := by
  unfold rootEntry count
  mvcgen
  all_goals subst_vars; rfl

end Store

namespace Volume

/-- `v` is `v0` after lookups that made at most `roots` root calls and at most `listings`
listing calls, and no other call: the store's counts grew by that much, the entry cache may
differ, and nothing else changed. -/
def LookupCost (v0 v : Volume) (roots listings : Nat) : Prop :=
  ∃ i j c, i ≤ roots ∧ j ≤ listings ∧
    v = { v0 with store := { v0.store with calls := v0.store.calls.plus i j }, entries := c }

namespace LookupCost

variable {v0 v v' : Volume} {r l r' l' : Nat}

/-- Doing nothing is within every bound. -/
theorem none (v : Volume) (r l : Nat) : LookupCost v v r l :=
  ⟨0, 0, v.entries, Nat.zero_le r, Nat.zero_le l, rfl⟩

/-- Changing the entry cache costs nothing. -/
theorem entries (v : Volume) (c : EntryCache Entry) : LookupCost v { v with entries := c } 0 0 :=
  ⟨0, 0, c, Nat.le_refl 0, Nat.le_refl 0, rfl⟩

/-- One listing call, the entry cache then set to `c`. -/
theorem listing (v : Volume) (c : EntryCache Entry) :
    LookupCost v { v with store := v.store.countListing, entries := c } 0 1 :=
  ⟨0, 1, c, Nat.zero_le _, Nat.le_refl 1, rfl⟩

/-- Exactly `i` root calls and `j` listing calls, the entry cache then set to `c`. -/
theorem calls (v : Volume) (i j : Nat) (c : EntryCache Entry) :
    LookupCost v
      { v with store := { v.store with calls := v.store.calls.plus i j }, entries := c } i j :=
  ⟨i, j, c, Nat.le_refl i, Nat.le_refl j, rfl⟩

theorem trans (h : LookupCost v0 v r l) (h' : LookupCost v v' r' l') :
    LookupCost v0 v' (r + r') (l + l') := by
  obtain ⟨i, j, c, hi, hj, rfl⟩ := h
  obtain ⟨i', j', c', hi', hj', rfl⟩ := h'
  exact ⟨i + i', j + j', c', by omega, by omega, by simp⟩

theorem mono (h : LookupCost v0 v r l) (hr : r ≤ r') (hl : l ≤ l') : LookupCost v0 v r' l' := by
  obtain ⟨i, j, c, hi, hj, rfl⟩ := h
  exact ⟨i, j, c, by omega, by omega, rfl⟩

theorem options (h : LookupCost v0 v r l) : v.options = v0.options := by
  obtain ⟨i, j, c, -, -, rfl⟩ := h
  rfl

theorem set_entries (h : LookupCost v0 v r l) (c : EntryCache Entry) :
    LookupCost v0 { v with entries := c } r l := by
  obtain ⟨i, j, c', hi, hj, rfl⟩ := h
  exact ⟨i, j, c, hi, hj, rfl⟩

theorem of_set_entries {c : EntryCache Entry} (h : LookupCost { v0 with entries := c } v r l) :
    LookupCost v0 v r l := by
  obtain ⟨i, j, c', hi, hj, rfl⟩ := h
  exact ⟨i, j, c', hi, hj, rfl⟩

/-- Below the root, a path's bound is its folder's and two listing calls more. -/
theorem child {p d : Path} {n : String} (hs : p.split? = some (d, n)) (h : LookupCost v0 v r l)
    (hr : r ≤ 1) (hl : l ≤ 2 * d.count + 2) : LookupCost v0 v 1 (2 * p.count) := by
  have hp := Path.count_parent? (Path.parent?_of_split? hs)
  exact h.mono hr (by omega)

end LookupCost

section StoreCalls

variable {α : Type} {x : StoreM α} {i j : Nat}

/-- A store computation that makes `i` root calls and `j` listing calls and changes nothing
else, whether it succeeds or fails. -/
def CountsOnly (x : StoreM α) (i j : Nat) : Prop :=
  ∀ s0, ⦃fun s => ⌜s = s0⌝⦄ x ⦃post⟨fun _ s => ⌜s = { s0 with calls := s0.calls.plus i j }⌝,
    fun _ s => ⌜s = { s0 with calls := s0.calls.plus i j }⌝⟩⦄

theorem onStore_cost (hx : CountsOnly x i j) (v0 : Volume) :
    ⦃fun v => ⌜v = v0⌝⦄ onStore x
    ⦃post⟨fun _ v => ⌜LookupCost v0 v i j⌝, fun _ v => ⌜LookupCost v0 v i j⌝⟩⦄ := by
  refine (triple_iff_run _ _ _ _).2 fun v hv => ?_
  subst hv
  have h := (triple_iff_run _ _ _ _).1 (onStore_spec x v) v rfl
  revert h
  rcases ((onStore x).run).run v with ⟨_ | _, w⟩
  · rintro ⟨s, hrun, rfl⟩
    rw [error_of_triple (hx v.store) hrun]
    exact LookupCost.calls v i j v.entries
  · rintro ⟨s, hrun, rfl⟩
    rw [ok_of_triple (hx v.store) hrun]
    exact LookupCost.calls v i j v.entries

/-- Forgetting paths when the store answers that something is absent costs no call. -/
theorem evictOnNotFound_cost (paths : List Path) (hx : CountsOnly x i j) (v0 : Volume) :
    ⦃fun v => ⌜v = v0⌝⦄ evictOnNotFound paths (onStore x)
    ⦃post⟨fun _ v => ⌜LookupCost v0 v i j⌝, fun _ v => ⌜LookupCost v0 v i j⌝⟩⦄ := by
  refine (triple_iff_run _ _ _ _).2 fun v hv => ?_
  subst hv
  have h := (triple_iff_run _ _ _ _).1 (evictOnNotFound_spec paths x v) v rfl
  revert h
  rcases ((evictOnNotFound paths (onStore x)).run).run v with ⟨_ | _, w⟩
  · rintro ⟨s, l, hrun, rfl⟩
    rw [error_of_triple (hx v.store) hrun]
    exact LookupCost.calls v i j _
  · rintro ⟨s, hrun, rfl⟩
    rw [ok_of_triple (hx v.store) hrun]
    exact LookupCost.calls v i j v.entries

end StoreCalls

/-- Asking the store for the root entry is one root call. -/
theorem rootEntry_cost (v0 : Volume) :
    ⦃fun v => ⌜v = v0⌝⦄ onStore Store.rootEntry
    ⦃post⟨fun _ v => ⌜LookupCost v0 v 1 0⌝, fun _ v => ⌜LookupCost v0 v 1 0⌝⟩⦄ :=
  onStore_cost Store.rootEntry_counts v0

/-- A lookup by name is one listing call; when it answers, it changes nothing else. -/
theorem lookupChild_cost (paths : List Path) (parent : Entry) (d : Path) (name : String)
    (v0 : Volume) :
    ⦃fun v => ⌜v = v0⌝⦄ evictOnNotFound paths (onStore (Store.lookupChild parent d name))
    ⦃post⟨fun _ v => ⌜v = { v0 with store := v0.store.countListing }⌝,
      fun _ v => ⌜LookupCost v0 v 0 1⌝⟩⦄ := by
  refine (triple_iff_run _ _ _ _).2 fun v hv => ?_
  subst hv
  have h := (triple_iff_run _ _ _ _).1
    (@evictOnNotFound_cost _ _ 0 1 paths (Store.lookupChild_counts parent d name) v) v rfl
  have h' := (triple_iff_run _ _ _ _).1
    (evictOnNotFound_spec paths (Store.lookupChild parent d name) v) v rfl
  revert h h'
  rcases ((evictOnNotFound paths (onStore (Store.lookupChild parent d name))).run).run v
    with ⟨_ | _, w⟩
  · exact fun h _ => h
  · rintro - ⟨s, hrun, rfl⟩
    rw [ok_of_triple (Store.lookupChild_counts parent d name v.store) hrun]

theorem listChildren_cost (paths : List Path) (dir : Entry) (d : Path) (v0 : Volume) :
    ⦃fun v => ⌜v = v0⌝⦄ evictOnNotFound paths (onStore (Store.listChildren dir d))
    ⦃post⟨fun _ v => ⌜LookupCost v0 v 0 1⌝, fun _ v => ⌜LookupCost v0 v 0 1⌝⟩⦄ :=
  @evictOnNotFound_cost _ _ 0 1 paths (Store.listChildren_counts dir d) v0

/-- A fresh listing of a folder whose entry is cached and not hidden resolves the folder from
the cache and costs one listing call, whether it succeeds or fails. -/
theorem list_cached_cost (d : Path) (w0 : Volume) :
    ⦃fun w => ⌜w = w0 ∧ ((∃ r, w0.entries.entries.get? d = some r) ∧
      (w0.options.ignoreSidecars && d.isSidecar) = false)⌝⦄
    list d false
    ⦃post⟨fun _ w => ⌜LookupCost w0 w 0 1⌝, fun _ w => ⌜LookupCost w0 w 0 1⌝⟩⦄ := by
  refine triple_guard fun h => ?_
  obtain ⟨⟨r, hc⟩, hs⟩ := h
  have hr := resolve_cached_spec w0 hc hs
  rw [list_eq]
  mvcgen [hr, -resolve_spec, fetchListing, listChildren_cost, modifyEntries]
  all_goals subst_vars
  case vc2 =>
    rename_i hw
    rw [hw.2]
    exact (LookupCost.entries _ _).mono (Nat.le_refl 0) (Nat.zero_le 1)
  case vc6 =>
    rename_i hl _ _ hw
    rw [hw.2] at hl
    exact (LookupCost.of_set_entries hl).set_entries _
  case vc7 =>
    rename_i hw
    rw [hw.2]
    exact LookupCost.of_set_entries

/-! ### The cost of each step of a lookup -/

theorem screened_cost {p : Path} {k : VolM Entry} (v0 : Volume)
    (hk : ⦃fun v => ⌜LookupCost v0 v 0 0⌝⦄ k
      ⦃post⟨fun _ v => ⌜LookupCost v0 v 1 (2 * p.count)⌝,
        fun _ v => ⌜LookupCost v0 v 1 (2 * p.count)⌝⟩⦄) :
    ⦃fun v => ⌜v = v0⌝⦄ screened p k
    ⦃post⟨fun _ v => ⌜LookupCost v0 v 1 (2 * p.count)⌝,
      fun _ v => ⌜LookupCost v0 v 1 (2 * p.count)⌝⟩⦄ := by
  rw [screened]
  mvcgen [cached_spec, hk]
  all_goals subst_vars
  case vc1 => exact LookupCost.none _ _ _
  case vc2 =>
    obtain ⟨-, rfl⟩ := ‹some _ = Table.get? _ p ∧ _›
    exact (LookupCost.entries _ _).mono (Nat.zero_le _) (Nat.zero_le _)
  case vc3 =>
    obtain ⟨-, rfl⟩ := ‹_ = Table.get? _ p ∧ _›
    exact LookupCost.entries _ _

theorem lookRoot_cost (v0 : Volume) :
    ⦃fun v => ⌜LookupCost v0 v 0 0⌝⦄ lookRoot
    ⦃post⟨fun _ v => ⌜LookupCost v0 v 1 (2 * Path.root.count)⌝,
      fun _ v => ⌜LookupCost v0 v 1 (2 * Path.root.count)⌝⟩⦄ := by
  rw [lookRoot]
  mvcgen [rootEntry_cost, modifyEntries, -onStore_spec]
  all_goals have h0 := ‹LookupCost v0 _ 0 0›
  case vc1 =>
    exact ((h0.trans ‹LookupCost _ _ 1 0›).set_entries _).mono (by omega) (Nat.zero_le _)
  case vc2 => exact fun h => (h0.trans h).mono (by omega) (Nat.zero_le _)

theorem healMiss_cost {p d : Path} {name : String} (hs : p.split? = some (d, name)) (v0 : Volume) :
    ⦃fun v => ⌜LookupCost v0 v 1 (2 * d.count + 1) ∧ (∃ r, v.entries.entries.get? d = some r) ∧
        (v.options.ignoreSidecars && d.isSidecar) = false⌝⦄ healMiss d p
    ⦃post⟨fun _ v => ⌜LookupCost v0 v 1 (2 * p.count)⌝,
      fun _ v => ⌜LookupCost v0 v 1 (2 * p.count)⌝⟩⦄ := by
  rw [healMiss]
  mvcgen [list_cached_cost, cached_spec, modifyEntries, -list_spec]
  all_goals obtain ⟨h0, ⟨r, hr⟩, hhid⟩ := ‹LookupCost v0 _ _ _ ∧ _›
  case vc1 =>
    -- the folder stays cached when the path below it is forgotten
    refine ⟨trivial, ⟨r, ?_⟩, hhid⟩
    exact (EntryCache.get?_remove _ _ _).trans ((if_neg fun h => Store.ne_of_split? hs h.symm).trans hr)
  case vc2 | vc3 =>
    obtain ⟨-, rfl⟩ := ‹_ = Table.get? _ p ∧ _›
    exact (((h0.set_entries _).trans ‹LookupCost _ _ 0 1›).set_entries _).child hs (by omega)
      (by omega)
  case vc4 => exact fun hl => ((h0.set_entries _).trans hl).child hs (by omega) (by omega)
  case vc5 => exact (h0.set_entries _).child hs (by omega) (by omega)

theorem lookBelow_cost {p d : Path} {name : String} (hs : p.split? = some (d, name))
    (hr : ∀ v1, ⦃fun v => ⌜v = v1⌝⦄ resolve d
      ⦃post⟨fun e v => ⌜LookupCost v1 v 1 (2 * d.count) ∧
          (v.entries.entries.get? d = some e ∧ (v1.options.ignoreSidecars && d.isSidecar) = false)⌝,
        fun _ v => ⌜LookupCost v1 v 1 (2 * d.count) ∧ True⌝⟩⦄)
    (v0 : Volume) :
    ⦃fun v => ⌜LookupCost v0 v 0 0⌝⦄ lookBelow p d name
    ⦃post⟨fun _ v => ⌜LookupCost v0 v 1 (2 * p.count)⌝,
      fun _ v => ⌜LookupCost v0 v 1 (2 * p.count)⌝⟩⦄ := by
  have hheal := healMiss_cost hs v0
  rw [lookBelow]
  mvcgen [hr, hheal, lookupChild_cost, modifyEntries, -resolve_spec, -onStore_spec]
  all_goals subst_vars
  all_goals have h0 := ‹LookupCost v0 _ 0 0›
  case vc1 => exact (h0.trans ‹LookupCost _ _ 1 _ ∧ _›.1).child hs (by omega) (by omega)
  case vc2 =>
    exact ((h0.trans ‹LookupCost _ _ 1 _ ∧ _›.1).trans (LookupCost.listing _ _)).child hs (by omega)
      (by omega)
  case vc3 =>
    -- a miss leaves the folder cached, which is what healing starts from
    obtain ⟨hd, hc, hhid⟩ := ‹LookupCost _ _ 1 _ ∧ _›
    exact ⟨((h0.trans hd).trans (LookupCost.listing _ _)).mono (by omega) (by omega), ⟨_, hc⟩,
      by simpa [hd.options] using hhid⟩
  case vc4 =>
    exact fun hl => ((h0.trans ‹LookupCost _ _ 1 _ ∧ _›.1).trans hl).child hs (by omega) (by omega)
  case vc5 => exact fun hd => (h0.trans hd).child hs (by omega) (by omega)

/-- One step of the induction: resolving a path of `n` components, given what resolving a
shorter path costs and that it leaves the path cached. -/
theorem resolve_cost_step (n : Nat)
    (ih : ∀ d, d.count < n → ∀ v0, ⦃fun v => ⌜v = v0⌝⦄ resolve d
      ⦃post⟨fun e v => ⌜LookupCost v0 v 1 (2 * d.count) ∧
          (v.entries.entries.get? d = some e ∧ (v0.options.ignoreSidecars && d.isSidecar) = false)⌝,
        fun _ v => ⌜LookupCost v0 v 1 (2 * d.count) ∧ True⌝⟩⦄)
    (p : Path) (hp : p.count = n) (v0 : Volume) :
    ⦃fun v => ⌜v = v0⌝⦄ resolve p
    ⦃post⟨fun _ v => ⌜LookupCost v0 v 1 (2 * p.count)⌝,
      fun _ v => ⌜LookupCost v0 v 1 (2 * p.count)⌝⟩⦄ := by
  cases hs : p.split? with
  | none =>
    obtain rfl := eq_root_of_split? hs
    rw [resolve_root hs]
    exact screened_cost v0 (lookRoot_cost v0)
  | some dn =>
    obtain ⟨d, name⟩ := dn
    have hd : d.count < n := hp ▸ Path.count_lt_of_split? hs
    rw [resolve_below hs]
    exact screened_cost v0 (lookBelow_cost hs (ih d hd) v0)

theorem resolve_cost_of_count (n : Nat) :
    ∀ p v0, p.count = n → ⦃fun v => ⌜v = v0⌝⦄ resolve p
      ⦃post⟨fun _ v => ⌜LookupCost v0 v 1 (2 * p.count)⌝,
        fun _ v => ⌜LookupCost v0 v 1 (2 * p.count)⌝⟩⦄ := by
  induction n using Nat.strong_induction_on with
  | _ n ih =>
    intro p v0 hp
    exact resolve_cost_step n
      (fun d hd v0 => triple_both (ih d.count hd d v0 rfl) (resolve_caches d v0)) p hp v0

/-- Resolving a path of `n` components makes at most one root call and `2 * n` listing calls,
and no other call. -/
theorem resolve_cost (p : Path) (v0 : Volume) :
    ⦃fun v => ⌜v = v0⌝⦄ resolve p
    ⦃post⟨fun _ v => ⌜LookupCost v0 v 1 (2 * p.count)⌝,
      fun _ v => ⌜LookupCost v0 v 1 (2 * p.count)⌝⟩⦄ :=
  resolve_cost_of_count p.count p v0 rfl

/-- A cached path that is not hidden resolves to its entry, counting a cache hit and nothing
else. -/
theorem resolve_of_cached {p : Path} {e : Entry} {v : Volume}
    (hc : v.entries.entries.get? p = some e) (hs : (v.options.ignoreSidecars && p.isSidecar) = false) :
    ((resolve p).run).run v = (.ok e, { v with entries := (v.entries.get p).2 }) := by
  have h := (triple_iff_run _ _ _ _).1 (resolve_cached_spec v hc hs) v rfl
  revert h
  rcases ((resolve p).run).run v with ⟨_ | a, w⟩
  · exact False.elim
  · rintro ⟨rfl, rfl⟩
    rfl

/-- A hidden sidecar fails at once, leaving the volume as it was. -/
theorem resolve_of_hidden {p : Path} {v : Volume}
    (hs : (v.options.ignoreSidecars && p.isSidecar) = true) :
    ((resolve p).run).run v = (.error (.notFound p), v) := by
  have h := (triple_iff_run _ _ _ _).1 (resolve_sidecar_spec p v hs) v rfl
  revert h
  rcases ((resolve p).run).run v with ⟨_ | a, w⟩
  · rintro ⟨rfl, rfl⟩
    rfl
  · exact False.elim

/-- Resolving `q` makes at most one root call, at most two listing calls for each component of
`q` and no other call; none at all for a cached path or a hidden sidecar. When it finds an
entry, `q` is left cached with it, so resolving `q` again answers the same entry and calls
nothing. -/
theorem resolve_cost_bounded (q : Path) (v : Volume) :
    let r := ((resolve q).run).run v
    LookupCost v r.2 1 (2 * q.count) ∧
    ((v.options.ignoreSidecars && q.isSidecar) = true ∨ (v.entries.entries.get? q).isSome = true →
      r.2.store = v.store) ∧
    ∀ e, r.1 = .ok e → r.2.entries.entries.get? q = some e ∧
      ((resolve q).run).run r.2 = (.ok e, { r.2 with entries := (r.2.entries.get q).2 }) := by
  intro r
  have hcost : LookupCost v r.2 1 (2 * q.count) := end_of_triple (resolve_cost q v) rfl
  refine ⟨hcost, fun hfree => ?_, fun e he => ?_⟩
  · by_cases hs : (v.options.ignoreSidecars && q.isSidecar) = true
    · simp only [r, resolve_of_hidden hs]
    · obtain ⟨e, he⟩ := Option.isSome_iff_exists.1 (hfree.resolve_left hs)
      simp only [r, resolve_of_cached he (Bool.eq_false_iff.2 hs)]
  · obtain ⟨hget, hs⟩ := ok_of_triple (resolve_caches q v) (Prod.ext he rfl : r = (.ok e, r.2))
    rw [← hcost.options] at hs
    exact ⟨hget, resolve_of_cached hget hs⟩

/-- `/a/b` made from outside resolves through the store, and a second resolution answers the
same entry from the cache. -/
theorem resolve_outside_folder_twice :
    let v := ((Mount.create {}).replay
      [.external (Mount.Hook.mkdir ((Path.root.join "a").join "b")).apply]).volume
    let q := (Path.root.join "a").join "b"
    (((resolve q).run).run v).1 = .ok { id := 2, name := "b", isFolder := true, size := 0 } ∧
      ((resolve q).run).run (((resolve q).run).run v).2 =
        (.ok { id := 2, name := "b", isFolder := true, size := 0 },
          { (((resolve q).run).run v).2 with
            entries := ((((resolve q).run).run v).2.entries.get q).2 }) := by
  intro v q
  have hok : (((resolve q).run).run v).1 = .ok { id := 2, name := "b", isFolder := true, size := 0 } := by
    simp only [v, q]
    cbv
  exact ⟨hok, ((resolve_cost_bounded q v).2.2 _ hok).2⟩

/-- Registering an entry on a fresh mount caches that entry alone over the empty store, so a
lookup of its path answers it from the cache. -/
theorem resolve_registered_on_fresh (p : Path) (e : Entry) :
    let m := (Mount.create {}).replay [.request (.registerEntry p e)]
    m.volume.entries = ({} : EntryCache Entry).add p e ∧ m.volume.store = Store.empty ∧
      ((resolve p).run).run m.volume =
        (.ok e, { m.volume with entries := (m.volume.entries.get p).2 }) := by
  intro m
  have hm : m.volume.entries = ({} : EntryCache Entry).add p e := rfl
  refine ⟨hm, rfl, resolve_of_cached ?_ rfl⟩
  rw [hm, EntryCache.get?_add, if_pos rfl]

/-- A path found in the cache is answered from it without its folder being resolved: after a
completed entry is registered at `/a/b`, resolving `/a/b` succeeds and `/a` is still not
cached. -/
theorem resolve_hit_leaves_folder_uncached :
    let m := (Mount.create {}).replay [.request (.registerEntry ((Path.root.join "a").join "b")
      { id := 7, name := "b", isFolder := false, size := 0 })]
    (m.run (resolve ((Path.root.join "a").join "b"))).1 =
        .ok { id := 7, name := "b", isFolder := false, size := 0 } ∧
      (m.run (resolve ((Path.root.join "a").join "b"))).2.volume.entries.entries.get?
        (Path.root.join "a") = none := by
  intro m
  obtain ⟨hm, -, hr⟩ := resolve_registered_on_fresh ((Path.root.join "a").join "b")
    { id := 7, name := "b", isFolder := false, size := 0 }
  have hne : Path.root.join "a" ≠ (Path.root.join "a").join "b" :=
    fun h => Store.ne_of_split? (Path.split?_join _ (show isComponentName "b" = true by cbv)) h.symm
  refine ⟨?_, ?_⟩
  · show (((resolve _).run).run m.volume).1 = _
    rw [hr]
  · rw [Mount.run_volume, hr]
    simp only [EntryCache.entries_get, hm, EntryCache.get?_add, if_neg hne]
    exact Table.get?_empty _

/-- A registered entry is trusted as it is: registering a file entry for `/x` on a fresh volume
makes a lookup of `/x` answer it, though the store holds no node there. -/
theorem registered_entry_outlives_store :
    let m := (Mount.create {}).replay [.request (.registerEntry (Path.root.join "x")
      { id := 7, name := "x", isFolder := false, size := 3 })]
    m.volume.store.node? (Path.root.join "x") = none ∧
      (m.run (resolve (Path.root.join "x"))).1 =
        .ok { id := 7, name := "x", isFolder := false, size := 3 } := by
  intro m
  obtain ⟨-, hs, hr⟩ := resolve_registered_on_fresh (Path.root.join "x")
    { id := 7, name := "x", isFolder := false, size := 3 }
  have hx : Path.root.join "x" ≠ Path.root :=
    Store.ne_of_split? (Path.split?_join _ (show isComponentName "x" = true by cbv))
  refine ⟨?_, ?_⟩
  · rw [hs, Store.node?_empty, if_neg hx]
  · show (((resolve _).run).run m.volume).1 = _
    rw [hr]

/-- Without any registered entry, a commit breaks the cache's agreement with the store too: an
upload opened at the free path `/a` commits after `/a` and `/a/b` were made as folders, so `/a`
becomes a file above `/a/b`; deleting `/a` takes `/a/b` out of the store, but the cache keeps
its entry and a lookup answers it. -/
theorem committed_file_over_folder_leaves_stale_child :
    let m := (Mount.create {}).replay [.openWrite (Path.root.join "a") false false,
      .request (.createDir (Path.root.join "a")),
      .request (.createDir ((Path.root.join "a").join "b")), .commit 0,
      .request (.delete (Path.root.join "a"))]
    m.volume.store.node? ((Path.root.join "a").join "b") = none ∧
      (m.run (resolve ((Path.root.join "a").join "b"))).1 =
        .ok { id := 2, name := "b", isFolder := true, size := 0 } := by
  intro m
  simp only [m]
  cbv

end Volume

end FrontCache
