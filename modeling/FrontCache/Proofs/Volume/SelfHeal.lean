import FrontCache.Proofs.Volume.Listing
import FrontCache.Proofs.Mount.Shape
/-!
# Healing a lookup that misses

When the store's lookup of a path below a folder finds nothing, but the folder's cached listing
still names the path, `resolve` forgets the path and lists the folder afresh, once; the fresh
listing may find the path after all. The listing consulted is the one the folder has once it is
resolved, not the one it had when the lookup began: resolving a folder that is not cached may
heal the folder itself, and healing forgets the folder's own listing.

Main statements: `lookup_heals_from_resolved_listing` gives, for a path that is not cached below
a folder that resolves to a live folder, the outcome of the lookup, the listing calls it makes,
and what a failure leaves in the entry cache. `healing_misses_listing_erased_by_parent` is a run
in which the folder's listing names the path when the lookup begins, a fresh listing of the
folder holds it, and the lookup still fails.
-/
namespace FrontCache

open Std.Do

set_option mvcgen.warning false

namespace Store

/-- The store after one more listing call. -/
def countListing (s : Store) : Store :=
  { s with calls := { s.calls with listing := s.calls.listing + 1 } }

@[simp] theorem childEntry_countListing (s : Store) (d : Path) :
    s.countListing.childEntry d = s.childEntry d := rfl

@[simp] theorem liveFolder_countListing (s : Store) (d : Path) (e : Entry) :
    s.countListing.liveFolder d e = s.liveFolder d e := rfl

@[simp] theorem lookupMisses_countListing (s : Store) :
    s.countListing.lookupMisses = s.lookupMisses := rfl

@[simp] theorem listing_countListing (s : Store) :
    s.countListing.calls.listing = s.calls.listing + 1 := rfl

/-- The child of a live folder with names `cs` that a listing reports under `name`, the first
of that name. -/
def childNamed? (s : Store) (d : Path) (cs : List String) (name : String) : Option Entry :=
  (cs.filterMap (s.childEntry d)).find? (·.name == name)

/-- What the store's lookup of `name` in a live folder with names `cs` answers: the child a
listing reports under that name, unless lookups are made to miss the path. -/
def lookupAnswer (s : Store) (d : Path) (cs : List String) (name : String) : Option Entry :=
  if s.lookupMisses.contains (d.join name) then none else s.childNamed? d cs name

theorem listChildren_counts (dir : Entry) (d : Path) (s0 : Store) :
    ⦃fun s => ⌜s = s0⌝⦄ listChildren dir d
    ⦃post⟨fun _ s => ⌜s = s0.countListing⌝, fun _ s => ⌜s = s0.countListing⌝⟩⦄ := by
  unfold listChildren count check
  mvcgen
  all_goals subst_vars; rfl

theorem lookupChild_counts (parent : Entry) (d : Path) (name : String) (s0 : Store) :
    ⦃fun s => ⌜s = s0⌝⦄ lookupChild parent d name
    ⦃post⟨fun _ s => ⌜s = s0.countListing⌝, fun _ s => ⌜s = s0.countListing⌝⟩⦄ := by
  have h := listChildren_counts parent d s0
  unfold lookupChild
  mvcgen [h, -listChildren_spec]

/-- Listing a live folder reports its children and counts one listing call. -/
theorem listChildren_live {s : Store} {d : Path} {e : Entry} {cs : List String}
    (h : s.liveFolder d e = .ok cs) :
    ((listChildren e d).run).run s = (.ok (cs.filterMap (s.childEntry d)), s.countListing) := by
  have hb := (triple_iff_run _ _ _ _).1
    (triple_both (listChildren_spec e d s) (listChildren_counts e d s)) s rfl
  revert hb
  rcases ((listChildren e d).run).run s with ⟨_ | l, s'⟩
  · rintro ⟨⟨-, herr⟩, -⟩
    rw [h] at herr
    cases herr
  · rintro ⟨⟨-, cs', hcs', rfl⟩, rfl⟩
    rw [h] at hcs'
    cases hcs'
    rfl

/-- Looking a name up in a live folder answers `lookupAnswer` and counts one listing call. -/
theorem lookupChild_live {s : Store} {d : Path} {e : Entry} {cs : List String} (name : String)
    (h : s.liveFolder d e = .ok cs) :
    ((lookupChild e d name).run).run s = (.ok (s.lookupAnswer d cs name), s.countListing) := by
  have hb := (triple_iff_run _ _ _ _).1
    (triple_both (lookupChild_spec e d name s) (lookupChild_counts e d name s)) s rfl
  revert hb
  rcases ((lookupChild e d name).run).run s with ⟨_ | l, s'⟩
  · rintro ⟨⟨-, herr⟩, -⟩
    rw [h] at herr
    cases herr
  · rintro ⟨⟨-, cs', hcs', rfl⟩, rfl⟩
    rw [h] at hcs'
    cases hcs'
    rfl

end Store

namespace EntryCache

/-- Forgetting a path takes it out of its folder's listing. -/
theorem listingContains_remove_self {α : Type} (c : EntryCache α) {p d : Path}
    (h : p.parent? = some d) : (c.remove p).listingContains d p = false := by
  have hne : d ≠ p := Ne.symm (Path.ne_of_parent? h)
  unfold listingContains
  rw [listing?_remove, if_neg hne, if_pos h]
  cases c.listing? d <;> simp

@[simp] theorem listingContains_get {α : Type} (c : EntryCache α) (p d q : Path) :
    (c.get p).2.listingContains d q = c.listingContains d q := by
  simp [listingContains, listing?_get]

end EntryCache

namespace Volume

/-- A path that resolves is cached with the entry found, and is no sidecar the options hide. -/
theorem resolve_caches (p : Path) (v0 : Volume) :
    ⦃fun v => ⌜v = v0⌝⦄ resolve p
    ⦃post⟨fun e v => ⌜v.entries.entries.get? p = some e ∧
        (v0.options.ignoreSidecars && p.isSidecar) = false⌝, fun _ _ => ⌜True⌝⟩⦄ := by
  cases hs : p.split? with
  | none =>
    obtain rfl := eq_root_of_split? hs
    rw [resolve_root hs]
    mvcgen [screened, lookRoot, cached_spec, onStore_spec, modifyEntries]
    all_goals simp_all +zetaDelta
  | some dn =>
    rw [resolve_below hs]
    mvcgen [screened, lookBelow, healMiss, cached_spec, onStore_spec, evictOnNotFound_spec,
      modifyEntries]
    all_goals simp_all +zetaDelta

/-- A fresh listing of a live folder whose entry is cached and shown: one listing call, and the
kept children recorded. -/
theorem list_live_spec {d : Path} {r : Entry} {cs : List String} (w0 : Volume)
    (hc : w0.entries.entries.get? d = some r)
    (hs : (w0.options.ignoreSidecars && d.isSidecar) = false)
    (hf : r.isFolder = true) (hlive : w0.store.liveFolder d r = .ok cs) :
    ⦃fun w => ⌜w = w0⌝⦄ list d false
    ⦃post⟨fun l w => ⌜l = (keptChildren w0.options.ignoreSidecars d
          (cs.filterMap (w0.store.childEntry d))).map Prod.fst ∧
        w = { w0 with
          store := w0.store.countListing
          entries := recordListing d (keptChildren w0.options.ignoreSidecars d
            (cs.filterMap (w0.store.childEntry d))) (w0.entries.get d).2 }⌝,
      fun _ _ => ⌜False⌝⟩⦄ := by
  have hrun := Store.listChildren_live hlive
  refine (triple_iff_run _ _ _ _).2 fun w hw => ?_
  subst hw
  have h := (triple_iff_run _ _ _ _).1 (list_fresh_of_cached_spec w hc hs) w rfl
  revert h
  rcases ((list d false).run).run w with ⟨_ | l, w'⟩
  · rintro (hnf | ⟨err, s, herr⟩)
    · rw [hf] at hnf
      cases hnf
    · rw [hrun] at herr
      cases herr
  · rintro ⟨kids, s, hkids, rfl, rfl⟩
    rw [hrun] at hkids
    cases hkids
    exact ⟨rfl, rfl⟩

/-- A fresh listing records a child name it keeps as it records the first child of that name:
the path is cached with that child's entry and named in the listing, or, with no child of that
name, neither. -/
theorem recordListing_child {ig : Bool} {d : Path} {n : String} (kids : List Entry)
    {c : EntryCache Entry} (hk : keepsName ig d n = true) (hc : c.entries.get? (d.join n) = none) :
    (recordListing d (keptChildren ig d kids) c).entries.get? (d.join n) =
        kids.find? (·.name == n) ∧
      (recordListing d (keptChildren ig d kids) c).listingContains d (d.join n) =
        (kids.find? (·.name == n)).isSome := by
  have hfind := keptChildren_find? ig d kids hk
  have hnodup := (keptChildren_spec ig d kids).2
  have hlist : (recordListing d (keptChildren ig d kids) c).listingContains d (d.join n) =
      ((keptChildren ig d kids).map Prod.fst).contains (d.join n) := by
    simp [EntryCache.listingContains, recordListing_listing?_self]
  cases hkid : kids.find? (·.name == n) with
  | some child =>
    rw [hkid, Option.map_some] at hfind
    refine ⟨recordListing_get?_of_find? hnodup hfind, ?_⟩
    rw [hlist, Option.isSome_some, List.contains_iff_mem, List.mem_map]
    exact ⟨_, List.mem_of_find?_eq_some hfind, rfl⟩
  | none =>
    rw [hkid, Option.map_none] at hfind
    have hnot : d.join n ∉ (keptChildren ig d kids).map Prod.fst := by
      intro hm
      obtain ⟨pe, hpe, heq⟩ := List.mem_map.1 hm
      exact absurd (by simp [heq]) (List.find?_eq_none.1 hfind pe hpe)
    refine ⟨recordListing_get?_of_not_kept hnot hc, ?_⟩
    rw [hlist, Option.isSome_none]
    simpa using hnot

/-- The same, for the listing that heals a lookup: the path was forgotten first, and its folder
looked up in the cache. -/
theorem recordListing_healed {ig : Bool} {d q : Path} {n : String} (kids : List Entry)
    (c : EntryCache Entry) (hk : keepsName ig d n = true) (hq : q = d.join n) :
    (recordListing d (keptChildren ig d kids) ((c.remove q).get d).2).entries.get? q =
        kids.find? (·.name == n) ∧
      (recordListing d (keptChildren ig d kids) ((c.remove q).get d).2).listingContains d q =
        (kids.find? (·.name == n)).isSome := by
  subst hq
  exact recordListing_child kids hk (by simp)

section Healing

variable {v : Volume} {q d : Path} {n : String} {r : Entry} {v1 : Volume} {cs : List String}

/-- A miss heals from one fresh listing of the live folder `r` at `d`, cached in `w`: the lookup
finds the child the listing reports under the name when the folder's listing named the path,
and otherwise fails with the path forgotten and unlisted. -/
theorem healMiss_spec {w : Volume} (hsplit : q.split? = some (d, n))
    (hc : w.entries.entries.get? d = some r)
    (hs : (w.options.ignoreSidecars && d.isSidecar) = false) (hf : r.isFolder = true)
    (hlive : w.store.liveFolder d r = .ok cs)
    (hkeep : keepsName w.options.ignoreSidecars d n = true) :
    ⦃fun w' => ⌜w = w'⌝⦄ healMiss d q
    ⦃post⟨fun e w' => ⌜w.entries.listingContains d q = true ∧ w.store.childNamed? d cs n = some e ∧
        w'.store.calls.listing = w.store.calls.listing + 1⌝,
      fun err w' => ⌜err = .notFound q ∧
        (w.entries.listingContains d q = true → w.store.childNamed? d cs n = none) ∧
        w'.entries.entries.get? q = none ∧ w'.entries.listingContains d q = false ∧
        w'.store.calls.listing = w.store.calls.listing +
          (if w.entries.listingContains d q = true then 1 else 0)⌝⟩⦄ := by
  have hq' : q = d.join n := (Path.join_of_split? hsplit).symm
  have hpar : q.parent? = some d := Path.parent?_of_split? hsplit
  have hne : d ≠ q := Ne.symm (Path.ne_of_parent? hpar)
  have hl := list_live_spec { w with entries := w.entries.remove q } (by simp [hne, hc]) hs hf hlive
  unfold healMiss modifyEntries
  mvcgen [hl, cached_spec, -list_spec]
  all_goals obtain rfl := ‹w = _›
  case vc1 => rfl
  case vc2 =>
    have hlisted : w.entries.listingContains d q = true := ‹_›
    obtain ⟨-, rfl⟩ := ‹_ = List.map _ _ ∧ _›
    obtain ⟨hget, rfl⟩ := ‹some _ = _ ∧ _›
    have hchild := recordListing_healed (cs.filterMap (w.store.childEntry d)) w.entries hkeep hq'
    exact ⟨hlisted, hchild.1.symm.trans hget.symm, by simp⟩
  case vc3 =>
    have hlisted : w.entries.listingContains d q = true := ‹_›
    obtain ⟨-, rfl⟩ := ‹_ = List.map _ _ ∧ _›
    obtain ⟨rfl, rfl⟩ := ‹_ = Table.get? _ q ∧ _›
    have hchild := recordListing_healed (cs.filterMap (w.store.childEntry d)) w.entries hkeep hq'
    have hkid : w.store.childNamed? d cs n = none := by
      cases hk : w.store.childNamed? d cs n with
      | none => rfl
      | some c => exact (‹∀ e, _ = some e → False› c (hchild.1.trans hk)).elim
    rw [← Store.childNamed?, hkid] at hchild
    refine ⟨trivial, fun _ => hkid, ?_, ?_, ?_⟩
    · simpa using hchild.1
    · simpa using hchild.2
    · simp [hlisted]
  case vc4 =>
    have hunlisted : w.entries.listingContains d q = false := Bool.eq_false_iff.2 ‹_›
    refine ⟨trivial, fun h => absurd h (by simp [hunlisted]), ?_,
      EntryCache.listingContains_remove_self _ hpar, ?_⟩
    · simp +zetaDelta
    · simp +zetaDelta [hunlisted]

/-- Looking up a path that is not cached, below a folder that resolves to the live folder `r`
in state `v1`: the answer is the store's lookup, or else, when the folder's listing in `v1`
names the path, what a fresh listing finds. A failure leaves the path neither cached nor listed.
The store's listing calls are the lookup's and, when it heals, the fresh listing's. -/
theorem resolve_uncached_spec (hsplit : q.split? = some (d, n))
    (hq : v.entries.entries.get? q = none)
    (hs : (v.options.ignoreSidecars && q.isSidecar) = false)
    (hd : ((resolve d).run).run { v with entries := (v.entries.get q).2 } = (.ok r, v1))
    (hf : r.isFolder = true) (hlive : v1.store.liveFolder d r = .ok cs) :
    ⦃fun w => ⌜w = v⌝⦄ resolve q
    ⦃post⟨fun e w => ⌜(v1.store.lookupAnswer d cs n = some e ∨
          v1.store.lookupAnswer d cs n = none ∧ v1.entries.listingContains d q = true ∧
            v1.store.childNamed? d cs n = some e) ∧
        w.store.calls.listing = v1.store.calls.listing +
          (if v1.store.lookupAnswer d cs n = none ∧ v1.entries.listingContains d q = true
            then 2 else 1)⌝,
      fun err w => ⌜err = .notFound q ∧ v1.store.lookupAnswer d cs n = none ∧
        (v1.entries.listingContains d q = true → v1.store.childNamed? d cs n = none) ∧
        w.entries.entries.get? q = none ∧ w.entries.listingContains d q = false ∧
        w.store.calls.listing = v1.store.calls.listing +
          (if v1.entries.listingContains d q = true then 2 else 1)⌝⟩⦄ := by
  have hc1 := (triple_iff_run _ _ _ _).1
    (resolve_caches d { v with entries := (v.entries.get q).2 }) _ rfl
  rw [hd] at hc1
  have hq1 := (triple_iff_run _ _ _ _).1
    (resolve_spec d { v with entries := (v.entries.get q).2 }) _ rfl
  rw [hd] at hq1
  have hopt : v1.options = v.options := hq1.1.options
  have hr : ⦃fun w => ⌜w = { v with entries := (v.entries.get q).2 }⌝⦄ resolve d
      ⦃post⟨fun e w => ⌜r = e ∧ v1 = w⌝, fun _ _ => ⌜False⌝⟩⦄ :=
    (triple_iff_run _ _ _ _).2 fun w hw => by
      subst hw
      rw [hd]
      exact ⟨rfl, rfl⟩
  have hlk : ∀ r' w0, ⦃fun w => ⌜w = w0 ∧ (r' = r ∧ w0 = v1)⌝⦄
      evictOnNotFound [d] (onStore (Store.lookupChild r' d n))
      ⦃post⟨fun a w => ⌜a = v1.store.lookupAnswer d cs n ∧
          w = { v1 with store := v1.store.countListing }⌝, fun _ _ => ⌜False⌝⟩⦄ := by
    intro r' w0
    refine triple_guard fun h => (triple_iff_run _ _ _ _).2 fun w hw => ?_
    obtain ⟨rfl, rfl⟩ := h
    subst hw
    have h := (triple_iff_run _ _ _ _).1 (evictOnNotFound_spec [d] (Store.lookupChild r' d n) w) w rfl
    revert h
    rcases ((evictOnNotFound [d] (onStore (Store.lookupChild r' d n))).run).run w with ⟨_ | a, w'⟩
    · rintro ⟨s, l, h, -⟩
      rw [Store.lookupChild_live n hlive] at h
      cases h
    · rintro ⟨s, h, rfl⟩
      rw [Store.lookupChild_live n hlive] at h
      cases h
      exact ⟨rfl, rfl⟩
  have hkeep : keepsName v.options.ignoreSidecars d n = true := by
    simp only [keepsName, Path.isComponentName_of_split? hsplit, Bool.true_and,
      Path.join_of_split? hsplit, hs]
    rfl
  have hheal := healMiss_spec (w := { v1 with store := v1.store.countListing }) hsplit hc1.1
    (by simpa [hopt] using hc1.2) hf hlive (by simpa [hopt] using hkeep)
  rw [resolve_below hsplit]
  mvcgen [screened, lookBelow, hr, hlk, hheal, cached_spec, modifyEntries, -resolve_spec]
  all_goals subst_vars
  case vc1 => exact absurd (hs.symm.trans ‹_›) Bool.false_ne_true
  case vc2 =>
    obtain ⟨h, -⟩ := ‹some _ = Table.get? _ q ∧ _›
    rw [hq] at h
    cases h
  case vc3 =>
    obtain ⟨-, h⟩ := ‹_ = Table.get? _ q ∧ _›
    exact h
  case vc4 =>
    obtain ⟨rfl, -⟩ := ‹r = _ ∧ v1 = _›
    have h : (!r.isFolder) = true := ‹_›
    rw [hf] at h
    cases h
  case vc5 =>
    obtain ⟨rfl, rfl⟩ := ‹r = _ ∧ v1 = _›
    exact ⟨trivial, rfl, rfl⟩
  case vc6 =>
    obtain ⟨hans, rfl⟩ := ‹some _ = Store.lookupAnswer _ _ _ _ ∧ _›
    refine ⟨Or.inl hans.symm, ?_⟩
    rw [← hans]
    simp +zetaDelta
  case vc7 =>
    obtain ⟨-, rfl⟩ := ‹none = Store.lookupAnswer _ _ _ _ ∧ _›
    rfl
  case vc8 =>
    obtain ⟨hans, -⟩ := ‹none = Store.lookupAnswer _ _ _ _ ∧ _›
    intro hlisted hchild hcalls
    refine ⟨Or.inr ⟨hans.symm, hlisted, hchild⟩, ?_⟩
    rw [hcalls, ← hans]
    simp [hlisted]
  case vc9 =>
    obtain ⟨hans, -⟩ := ‹none = Store.lookupAnswer _ _ _ _ ∧ _›
    rintro rfl hkid hget hlist hcalls
    refine ⟨rfl, hans.symm, hkid, hget, hlist, ?_⟩
    rw [hcalls]
    cases v1.entries.listingContains d q <;> simp

/-- Looking up an uncached path below a folder that resolves succeeds exactly when the store finds
it, or when its folder listed it and one fresh listing finds it; a failure is absence and leaves
the path uncached and unlisted; it makes one listing call, and a second when it lists afresh. -/
theorem lookup_heals_from_resolved_listing (hsplit : q.split? = some (d, n))
    (hq : v.entries.entries.get? q = none)
    (hs : (v.options.ignoreSidecars && q.isSidecar) = false)
    (hd : ((resolve d).run).run { v with entries := (v.entries.get q).2 } = (.ok r, v1))
    (hf : r.isFolder = true) (hlive : v1.store.liveFolder d r = .ok cs) :
    let found := v1.store.lookupAnswer d cs n
    let listed := v1.entries.listingContains d q
    ∀ res w, ((resolve q).run).run v = (res, w) →
      (∀ e, res = .ok e ↔
        found = some e ∨ found = none ∧ listed = true ∧ v1.store.childNamed? d cs n = some e) ∧
      (∀ err, res = .error err → err = .notFound q ∧
        w.entries.entries.get? q = none ∧ w.entries.listingContains d q = false) ∧
      w.store.calls.listing = v1.store.calls.listing +
        (if found = none ∧ listed = true then 2 else 1) := by
  intro found listed res w hrun
  have h := (triple_iff_run _ _ _ _).1 (resolve_uncached_spec hsplit hq hs hd hf hlive) v rfl
  rw [hrun] at h
  cases res with
  | ok e =>
    obtain ⟨hout, hcalls⟩ := h
    refine ⟨fun e' => ⟨fun he => ?_, fun hout' => ?_⟩, fun _ he => (nomatch he), hcalls⟩
    · cases he
      exact hout
    · congr 1
      rcases hout with h1 | ⟨h1, -, h3⟩ <;> rcases hout' with h1' | ⟨h1', -, h3'⟩
      · exact Option.some.inj (h1.symm.trans h1')
      · exact absurd (h1.symm.trans h1') (Option.some_ne_none e)
      · exact absurd (h1'.symm.trans h1) (Option.some_ne_none e')
      · exact Option.some.inj (h3.symm.trans h3')
  | error err =>
    obtain ⟨herr, hnone, hrel, hget, hlist, hcalls⟩ := h
    refine ⟨fun e => ⟨fun he => (nomatch he), fun hout => ?_⟩, fun err' he => ?_, ?_⟩
    · rcases hout with h1 | ⟨-, h2, h3⟩
      · exact absurd (h1.symm.trans hnone) (Option.some_ne_none e)
      · exact absurd (h3.symm.trans (hrel h2)) (Option.some_ne_none e)
    · cases he
      exact ⟨herr, hget, hlist⟩
    · simp only [found, hnone, true_and]
      exact hcalls

end Healing

/-- Inside a refresh of `/a/b`, after the store's lookups began to miss it while the cached
listing of `/a` still names it: the lookup lists `/a` afresh and finds it there. -/
theorem lookup_relists_inside_refresh :
    let q := (Path.root.join "a").join "b"
    let v0 := ((Mount.create {}).replay [.request (.createDir (Path.root.join "a")),
      .request (.createDir q), .request (.list (Path.root.join "a") false),
      .external (Mount.Hook.lookupMiss q true).apply]).volume
    let v := { v0 with entries := (v0.entries.evict q).2 }
    v.store.lookupAnswer (Path.root.join "a") ["b"] "b" = none ∧
      (((resolve q).run).run v).1 = .ok { id := 2, name := "b", isFolder := true, size := 0 } := by
  intro q v0 v
  have hd : ((resolve (Path.root.join "a")).run).run { v with entries := (v.entries.get q).2 } =
      (.ok { id := 1, name := "a", isFolder := true, size := 0 },
        (((resolve (Path.root.join "a")).run).run { v with entries := (v.entries.get q).2 }).2) :=
    Prod.ext (by simp only [v, v0, q]; cbv) rfl
  obtain ⟨hfound, -, -⟩ := lookup_heals_from_resolved_listing (by cbv)
    (by simp only [v, v0, q]; cbv) (by simp only [v, v0, q]; cbv) hd rfl
    (by simp only [v, v0, q]; cbv : _ = (.ok ["b"] : Except Error (List String))) _ _ rfl
  have hmiss : v.store.lookupAnswer (Path.root.join "a") ["b"] "b" = none := by
    simp only [v, v0, q]
    cbv
  refine ⟨hmiss, (hfound _).2 (Or.inr ⟨?_, ?_, ?_⟩)⟩
  all_goals
    simp only [v, v0, q]
    cbv

/-- The folder's listing names the path when the lookup begins, and the store holds the path;
but the folder is not cached, and healing the lookup of the folder forgets the folder's own
listing, so the lookup of the path finds it nowhere. The stale entries come from a commit over
a folder made after the upload was opened. -/
theorem healing_misses_listing_erased_by_parent :
    let m := (Mount.create {}).replay [.openWrite (Path.root.join "p") false false,
      .request (.createDir (Path.root.join "p")),
      .request (.createDir ((Path.root.join "p").join "d")),
      .request (.createDir (((Path.root.join "p").join "d").join "n")),
      .commit 0,
      .request (.refresh ((Path.root.join "p").join "d")),
      .request (.refresh (((Path.root.join "p").join "d").join "n")),
      .request (.delete (Path.root.join "p")),
      .request (.createDir (Path.root.join "x")),
      .request (.createDir ((Path.root.join "x").join "d")),
      .request (.createDir (((Path.root.join "x").join "d").join "n")),
      .request (.rename (Path.root.join "x") (Path.root.join "p")),
      .external (Mount.Hook.lookupMiss ((Path.root.join "p").join "d") true).apply,
      .external (Mount.Hook.lookupMiss (((Path.root.join "p").join "d").join "n") true).apply]
    m.volume.entries.entries.get? (((Path.root.join "p").join "d").join "n") = none ∧
      m.volume.entries.listingContains ((Path.root.join "p").join "d")
        (((Path.root.join "p").join "d").join "n") = true ∧
      m.volume.store.childNames? ((Path.root.join "p").join "d") = some ["n"] ∧
      (m.run (resolve ((Path.root.join "p").join "d"))).1 =
        .ok { id := 5, name := "d", isFolder := true, size := 0 } ∧
      (m.run (resolve (((Path.root.join "p").join "d").join "n"))).1 =
        .error (.notFound (((Path.root.join "p").join "d").join "n")) := by
  intro m
  refine ⟨?_, ?_, ?_, ?_, ?_⟩
  · cbv
  · cbv
  · cbv
  · cbv
  · cbv

end Volume

end FrontCache
