import FrontCache.Proofs.Mount.Actions
import FrontCache.Proofs.Volume.Sidecars
/-!
# What a fresh listing leaves behind

A fresh listing of a folder asks the store for the folder's children and keeps, in the
store's order, the children whose names are single components (and not sidecar names when
those are ignored), the first child of each name. It caches each kept child's entry, forgets
the children of the old listing that were not kept, and caches the kept paths as the
folder's listing.

Main statement (`fresh_listing_postcondition`): in every state a mounted volume reaches, for
a folder whose entry is cached, a fresh listing names the folder joined with the kept names,
duplicates dropped (`keptChildren_paths`); it leaves exactly those as the folder's listing,
each cached with the entry of the first child of its name (`keptChildren_find?`), each a
child of the folder; and a path of the old listing that was not kept has neither an entry nor
a listing of its own.
-/
namespace FrontCache

/-! ### Lists -/

/-- Dropping duplicates commutes with a map that is injective on the list. -/
theorem List.eraseDups_map_of_injOn {α β : Type} [BEq α] [LawfulBEq α] [BEq β] [LawfulBEq β]
    (f : α → β) (l : List α) (h : ∀ a ∈ l, ∀ b ∈ l, f a = f b → a = b) :
    (l.map f).eraseDups = l.eraseDups.map f := by
  match l with
  | [] => simp
  | a :: l =>
    have hfilter : (l.map f).filter (fun y => !y == f a) = (l.filter fun x => !x == a).map f := by
      rw [List.filter_map]
      congr 1
      refine List.filter_congr fun x hx => ?_
      have hiff : f x = f a ↔ x = a :=
        ⟨h x (List.mem_cons_of_mem _ hx) a (List.mem_cons_self ..), fun e => e ▸ rfl⟩
      simp [Function.comp, hiff]
    have hsub : ∀ x ∈ l.filter (fun x => !x == a), ∀ y ∈ l.filter (fun x => !x == a),
        f x = f y → x = y := fun x hx y hy =>
      h x (List.mem_cons_of_mem _ (List.mem_filter.1 hx).1) y
        (List.mem_cons_of_mem _ (List.mem_filter.1 hy).1)
    rw [List.map_cons, List.eraseDups_cons, List.eraseDups_cons, hfilter,
      List.eraseDups_map_of_injOn f _ hsub, List.map_cons]
termination_by l.length
decreasing_by
  have := List.length_filter_le (fun x => !x == a) l
  simp only [List.length_cons]
  omega

namespace Path

theorem join_inj (d : Path) {a b : String} (ha : isComponentName a = true)
    (hb : isComponentName b = true) : d.join a = d.join b ↔ a = b := by
  constructor
  · intro h
    have hp := congrArg Path.parts h
    rw [join_parts d ha, join_parts d hb] at hp
    simpa using hp
  · rintro rfl
    rfl

theorem ne_of_parent? {q d : Path} (h : q.parent? = some d) : q ≠ d := by
  rintro rfl
  have := count_parent? h
  omega

end Path

namespace Volume

/-! ### The names a fresh listing keeps -/

/-- A fresh listing keeps a child's name when it is a single component and, with sidecar names
ignored, not a sidecar name. -/
def keepsName (ig : Bool) (dir : Path) (n : String) : Bool :=
  isComponentName n && !(ig && (dir.join n).isSidecar)

theorem isComponentName_of_keepsName {ig : Bool} {dir : Path} {n : String}
    (h : keepsName ig dir n = true) : isComponentName n = true := by
  simp only [keepsName, Bool.and_eq_true] at h
  exact h.1

/-- The step of a fresh listing at one child: skip it, or append it at its path. -/
theorem keptChildren_eq_foldl (ig : Bool) (dir : Path) (kids : List Entry) :
    keptChildren ig dir kids = kids.foldl (fun acc c =>
      if keepsName ig dir c.name && !acc.any (·.1 == dir.join c.name) then
        acc ++ [(dir.join c.name, c)]
      else acc) [] := by
  unfold keptChildren
  dsimp only
  congr 1
  funext acc c
  by_cases hc : isComponentName c.name = true
  · by_cases hs : (ig && (dir.join c.name).isSidecar) = true
    · simp [keepsName, hc, hs]
    · have hs' : (ig && (dir.join c.name).isSidecar) = false := Bool.eq_false_iff.2 hs
      cases hA : acc.any (·.1 == dir.join c.name) <;> simp [keepsName, hc, hs']
  · simp [keepsName, hc]

section Fold

variable (ig : Bool) (dir : Path)

/-- The pass of a fresh listing over the children, from what it has kept so far. -/
def keepPass (kids : List Entry) (acc : List (Path × Entry)) : List (Path × Entry) :=
  kids.foldl (fun acc c =>
    if keepsName ig dir c.name && !acc.any (·.1 == dir.join c.name) then
      acc ++ [(dir.join c.name, c)]
    else acc) acc

/-- The paths a pass adds are the paths of the kept children that it had not yet, first
occurrences only. -/
theorem keepPass_paths (kids : List Entry) (acc : List (Path × Entry)) :
    (keepPass ig dir kids acc).map Prod.fst = acc.map Prod.fst ++
      (((kids.filter (keepsName ig dir ·.name)).map (dir.join ·.name)).filter
        fun q => !acc.any (·.1 == q)).eraseDups := by
  induction kids generalizing acc with
  | nil => simp [keepPass]
  | cons c rest ih =>
    simp only [keepPass, List.foldl_cons] at ih ⊢
    by_cases hk : keepsName ig dir c.name = true
    · by_cases ha : acc.any (·.1 == dir.join c.name) = true
      · simp only [ha, Bool.not_true, Bool.and_false, if_false, ih, List.filter_cons, hk,
          if_true, List.map_cons, Bool.false_eq_true]
      · have ha' : acc.any (·.1 == dir.join c.name) = false := Bool.eq_false_iff.2 ha
        simp only [hk, ha', Bool.not_false, Bool.and_self, if_true, ih, List.filter_cons,
          List.map_cons, List.map_append, List.map_cons, List.map_nil, List.append_assoc,
          List.singleton_append, List.eraseDups_cons]
        congr 3
        rw [List.filter_filter]
        refine List.filter_congr fun q _ => ?_
        simp only [List.any_append, List.any_cons, List.any_nil, Bool.or_false, Bool.not_or]
        by_cases hq : q = dir.join c.name
        · subst hq
          simp
        · rw [beq_false_of_ne hq, beq_false_of_ne (Ne.symm hq)]
          simp
    · have hk' : keepsName ig dir c.name = false := Bool.eq_false_iff.2 hk
      simp only [hk', Bool.false_and, if_false, ih, List.filter_cons, Bool.false_eq_true]

/-- The first pair a pass has at a path: the one it started with, or the first kept child at
that path. -/
theorem keepPass_find? (kids : List Entry) (acc : List (Path × Entry)) (q : Path) :
    (keepPass ig dir kids acc).find? (·.1 == q) = ((acc.find? (·.1 == q)).or
      ((kids.find? fun c => keepsName ig dir c.name && dir.join c.name == q).map (q, ·))) := by
  induction kids generalizing acc with
  | nil => simp [keepPass]
  | cons c rest ih =>
    simp only [keepPass, List.foldl_cons] at ih ⊢
    by_cases hk : keepsName ig dir c.name = true
    · by_cases ha : acc.any (·.1 == dir.join c.name) = true
      · simp only [hk, ha, Bool.not_true, Bool.and_false, ih, List.find?_cons, Bool.true_and]
        by_cases hq : dir.join c.name = q
        · subst hq
          obtain ⟨pe, hpe, hpq⟩ := List.any_eq_true.1 ha
          have hsome : (acc.find? (·.1 == dir.join c.name)).isSome :=
            List.find?_isSome.2 ⟨pe, hpe, hpq⟩
          obtain ⟨x, hx⟩ := Option.isSome_iff_exists.1 hsome
          simp [hx]
        · have hq' : (dir.join c.name == q) = false := beq_false_of_ne hq
          simp [hq']
      · have ha' : acc.any (·.1 == dir.join c.name) = false := Bool.eq_false_iff.2 ha
        simp only [hk, ha', Bool.not_false, Bool.and_self, if_true, ih, List.find?_cons,
          Bool.true_and, List.find?_append]
        by_cases hq : dir.join c.name = q
        · subst hq
          have hnone : acc.find? (·.1 == dir.join c.name) = none := by
            simpa [List.find?_eq_none] using ha'
          simp [hnone]
        · have hq' : (dir.join c.name == q) = false := beq_false_of_ne hq
          simp [hq']
    · have hk' : keepsName ig dir c.name = false := Bool.eq_false_iff.2 hk
      simp [hk', ih]

end Fold

/-- A fresh listing keeps the children whose names it keeps, in the store's order, the first
child of each name: its paths are the folder joined with those names, duplicates dropped. -/
theorem keptChildren_paths (ig : Bool) (dir : Path) (kids : List Entry) :
    (keptChildren ig dir kids).map Prod.fst =
      (((kids.map Entry.name).filter (keepsName ig dir)).eraseDups).map dir.join := by
  have hpass := keepPass_paths ig dir kids []
  simp only [List.map_nil, List.any_nil, Bool.not_false, List.filter_true, List.nil_append]
    at hpass
  have hinj : ∀ a ∈ (kids.map Entry.name).filter (keepsName ig dir),
      ∀ b ∈ (kids.map Entry.name).filter (keepsName ig dir), dir.join a = dir.join b → a = b :=
    fun a ha b hb hab => (Path.join_inj dir (isComponentName_of_keepsName (List.mem_filter.1 ha).2)
      (isComponentName_of_keepsName (List.mem_filter.1 hb).2)).1 hab
  rw [keptChildren_eq_foldl, ← keepPass, hpass, ← List.eraseDups_map_of_injOn dir.join _ hinj,
    List.filter_map, List.map_map]
  rfl

/-- The child a fresh listing keeps at the path of a kept name is the first child of that
name. -/
theorem keptChildren_find? (ig : Bool) (dir : Path) (kids : List Entry) {n : String}
    (hn : keepsName ig dir n = true) :
    (keptChildren ig dir kids).find? (·.1 == dir.join n) =
      (kids.find? (·.name == n)).map (dir.join n, ·) := by
  have hpass := keepPass_find? ig dir kids [] (dir.join n)
  rw [keptChildren_eq_foldl, ← keepPass, hpass, List.find?_nil, Option.none_or]
  congr 1
  refine List.find?_congr fun c _ => ?_
  by_cases hc : c.name = n
  · simp [hc, hn]
  · rw [beq_false_of_ne hc]
    cases hk : keepsName ig dir c.name
    · rfl
    · rw [Bool.true_and, beq_eq_false_iff_ne]
      exact fun hj => hc ((Path.join_inj dir (isComponentName_of_keepsName hk)
        (isComponentName_of_keepsName hn)).1 hj)

end Volume

namespace EntryCache

variable {α : Type}

/-! ### What caching a fresh listing leaves -/

/-- Entries put one after another, at distinct paths: each path holds its own entry. -/
theorem get?_foldl_put (l : List (Path × α)) (c : EntryCache α) (q : Path)
    (hn : (l.map Prod.fst).Nodup) :
    (l.foldl (fun c pe => c.put pe.1 pe.2) c).entries.get? q =
      ((l.find? (·.1 == q)).map Prod.snd).or (c.entries.get? q) := by
  induction l generalizing c with
  | nil => simp
  | cons pe rest ih =>
    simp only [List.map_cons, List.nodup_cons] at hn
    rw [List.foldl_cons, ih _ hn.2, List.find?_cons]
    by_cases hq : pe.1 = q
    · have hnone : rest.find? (·.1 == q) = none := by
        rw [List.find?_eq_none]
        intro x hx hxq
        exact hn.1 (hq ▸ (beq_iff_eq.1 hxq) ▸ List.mem_map_of_mem hx)
      simp [hnone, hq]
    · have hq' : (pe.1 == q) = false := beq_false_of_ne hq
      simp [hq', Ne.symm hq]

theorem get?_foldl_put_of_not_mem (l : List (Path × α)) (c : EntryCache α) {q : Path}
    (hq : q ∉ l.map Prod.fst) :
    (l.foldl (fun c pe => c.put pe.1 pe.2) c).entries.get? q = c.entries.get? q := by
  induction l generalizing c with
  | nil => rfl
  | cons pe rest ih =>
    rw [List.foldl_cons, ih _ fun h => hq (List.mem_cons_of_mem _ h), get?_put, if_neg]
    intro h
    exact hq (by simp [h])

theorem listing?_foldl_put (l : List (Path × α)) (c : EntryCache α) (d : Path) :
    (l.foldl (fun c pe => c.put pe.1 pe.2) c).listing? d = c.listing? d := by
  induction l generalizing c with
  | nil => rfl
  | cons pe rest ih => rw [List.foldl_cons, ih, listing?_put]

theorem get?_foldl_remove (l : List Path) (c : EntryCache α) (q : Path) :
    (l.foldl EntryCache.remove c).entries.get? q = if q ∈ l then none else c.entries.get? q := by
  induction l generalizing c with
  | nil => simp
  | cons r rest ih =>
    rw [List.foldl_cons, ih, get?_remove]
    by_cases hr : q = r <;> by_cases hm : q ∈ rest <;> simp [hr, hm]

/-- A path without a listing gets none back from forgetting others. -/
theorem listing?_remove_of_none {c : EntryCache α} {q : Path} (h : c.listing? q = none)
    (r : Path) : (c.remove r).listing? q = none := by
  rw [listing?_remove]
  split_ifs <;> simp [h]

theorem listing?_foldl_remove_of_mem (l : List Path) (c : EntryCache α) {q : Path}
    (hq : q ∈ l ∨ c.listing? q = none) : (l.foldl EntryCache.remove c).listing? q = none := by
  induction l generalizing c with
  | nil =>
    rcases hq with h | h
    · cases h
    · exact h
  | cons r rest ih =>
    rw [List.foldl_cons]
    apply ih
    rcases hq with h | h
    · rcases List.mem_cons.1 h with rfl | h
      · exact Or.inr (by rw [listing?_remove]; simp)
      · exact Or.inl h
    · exact Or.inr (listing?_remove_of_none h r)

end EntryCache

namespace Volume

open Std.Do

set_option mvcgen.warning false

variable {dir q : Path} {kept : List (Path × Entry)} {c : EntryCache Entry}

theorem recordListing_listing?_self (dir : Path) (kept : List (Path × Entry))
    (c : EntryCache Entry) : (recordListing dir kept c).listing? dir = some (kept.map Prod.fst) := by
  simp [recordListing]

/-- A kept path is cached with its kept entry. -/
theorem recordListing_get?_of_find? (hn : (kept.map Prod.fst).Nodup) {pe : Path × Entry}
    (h : kept.find? (·.1 == q) = some pe) :
    (recordListing dir kept c).entries.get? q = some pe.2 := by
  have hq : pe.1 = q := beq_iff_eq.1 (List.find?_eq_some_iff_append.1 h).1
  have hmem : q ∈ kept.map Prod.fst := hq ▸ List.mem_map_of_mem (List.mem_of_find?_eq_some h)
  simp only [recordListing, EntryCache.entries_putListing, EntryCache.get?_foldl_remove,
    EntryCache.get?_foldl_put _ _ _ hn, h]
  rw [if_neg]
  · rfl
  · intro hg
    simp only [List.mem_filter, Bool.not_eq_true'] at hg
    simp [hmem] at hg

/-- A path that is not kept and had no entry gets none. -/
theorem recordListing_get?_of_not_kept (hk : q ∉ kept.map Prod.fst)
    (hc : c.entries.get? q = none) : (recordListing dir kept c).entries.get? q = none := by
  simp only [recordListing, EntryCache.entries_putListing, EntryCache.get?_foldl_remove,
    EntryCache.get?_foldl_put_of_not_mem _ _ hk, hc]
  split_ifs <;> rfl

/-- A path of the old listing that is not kept loses its entry and its listing. -/
theorem recordListing_forgets_gone (hq : q ∈ (c.listing? dir).getD []) (hk : q ∉ kept.map Prod.fst)
    (hd : q ≠ dir) :
    (recordListing dir kept c).entries.get? q = none ∧
      (recordListing dir kept c).listing? q = none := by
  have hgone : q ∈ (((kept.foldl (fun c pe => c.put pe.1 pe.2) c).listing? dir).getD []).filter
      fun q => !(kept.map Prod.fst).contains q := by
    rw [EntryCache.listing?_foldl_put, List.mem_filter]
    exact ⟨hq, by simpa using hk⟩
  constructor
  · simp only [recordListing, EntryCache.entries_putListing, EntryCache.get?_foldl_remove,
      if_pos hgone]
  · simp only [recordListing, EntryCache.listing?_putListing, if_neg hd]
    exact EntryCache.listing?_foldl_remove_of_mem _ _ (Or.inl hgone)

/-- Past the guard, the screen answers a cached path from the cache, counting a hit. -/
theorem screened_cached {p : Path} {e : Entry} (k : VolM Entry) (v0 : Volume)
    (hc : v0.entries.entries.get? p = some e)
    (hs : (v0.options.ignoreSidecars && p.isSidecar) = false) :
    ⦃fun v => ⌜v = v0⌝⦄ screened p k
    ⦃post⟨fun r v => ⌜r = e ∧ v = { v0 with entries := (v0.entries.get p).2 }⌝,
      fun _ _ => ⌜False⌝⟩⦄ := by
  have hk : ⦃fun _ => ⌜False⌝⦄ k
      ⦃post⟨fun r v => ⌜r = e ∧ v = { v0 with entries := (v0.entries.get p).2 }⌝,
        fun _ _ => ⌜False⌝⟩⦄ :=
    Triple.iff.2 fun _ h => h.elim
  rw [screened]
  mvcgen [hk, cached_spec]
  all_goals simp_all

/-- Resolving a cached path that is not hidden answers from the cache, counting a hit. -/
theorem resolve_cached_spec {p : Path} {e : Entry} (v0 : Volume)
    (hc : v0.entries.entries.get? p = some e)
    (hs : (v0.options.ignoreSidecars && p.isSidecar) = false) :
    ⦃fun v => ⌜v = v0⌝⦄ resolve p
    ⦃post⟨fun r v => ⌜r = e ∧ v = { v0 with entries := (v0.entries.get p).2 }⌝,
      fun _ _ => ⌜False⌝⟩⦄ := by
  obtain ⟨k, hk⟩ := resolve_screened p
  rw [hk]
  exact screened_cached k v0 hc hs

/-- A fresh listing of a folder whose entry is cached: the store's children, kept and cached
as a fresh listing keeps them, or a failure of the store's listing. -/
theorem list_fresh_of_cached_spec {d : Path} {e : Entry} (v0 : Volume)
    (hc : v0.entries.entries.get? d = some e)
    (hs : (v0.options.ignoreSidecars && d.isSidecar) = false) :
    ⦃fun v => ⌜v = v0⌝⦄ list d false
    ⦃post⟨fun l v => ⌜∃ kids s, ((Store.listChildren e d).run).run v0.store = (.ok kids, s) ∧
        l = (keptChildren v0.options.ignoreSidecars d kids).map Prod.fst ∧
        v = { v0 with
          store := s
          entries := recordListing d (keptChildren v0.options.ignoreSidecars d kids)
            (v0.entries.get d).2 }⌝,
      fun _ _ => ⌜e.isFolder = false ∨
        ∃ err s, ((Store.listChildren e d).run).run v0.store = (.error err, s)⌝⟩⦄ := by
  have hr := resolve_cached_spec v0 hc hs
  rw [list_eq]
  mvcgen [hr, -resolve_spec, fetchListing, evictOnNotFound_spec, modifyEntries]
  all_goals obtain ⟨rfl, rfl⟩ := ‹_ = e ∧ _›
  case vc2 =>
    left
    simpa using ‹(! _) = true›
  case vc6 =>
    obtain ⟨s, hrun, rfl⟩ := ‹∃ s, StateT.run _ _ = _ ∧ _›
    exact ⟨_, s, hrun, rfl, rfl⟩
  case vc7 =>
    rintro ⟨s, l, hrun, -⟩
    exact Or.inr ⟨_, s, hrun⟩

/-- Listing a hidden folder fails as resolving it does, changing nothing. -/
theorem list_hidden_spec (d : Path) (b : Bool) (v0 : Volume)
    (hs : (v0.options.ignoreSidecars && d.isSidecar) = true) :
    ⦃fun v => ⌜v = v0⌝⦄ list d b
    ⦃post⟨fun _ _ => ⌜False⌝, fun err v => ⌜err = .notFound d ∧ v = v0⌝⟩⦄ := by
  have hr := resolve_sidecar_spec d v0 hs
  rw [list_eq]
  mvcgen [hr, -resolve_spec, fetchListing]

/-- A fresh listing of a cached folder, in any reachable state: it names the kept children the
store reports, in order and first of each name; the folder's listing becomes exactly that, each
child cached with its entry, and the children it no longer names are forgotten. -/
theorem fresh_listing_postcondition (o : Options) (acts : List Mount.Action) {d : Path}
    {e : Entry} (hc : ((Mount.create o).replay acts).volume.entries.entries.get? d = some e) :
    let v := ((Mount.create o).replay acts).volume
    (e.isFolder = true → (∃ cs, v.store.liveFolder d e = .ok cs) →
        (v.options.ignoreSidecars && d.isSidecar) = false →
        ∃ l w, ((list d false).run).run v = (.ok l, w)) ∧
    ∀ l w, ((list d false).run).run v = (.ok l, w) →
      ∃ kids, (((Store.listChildren e d).run).run v.store).1 = .ok kids ∧
        let names := ((kids.map Entry.name).filter (keepsName v.options.ignoreSidecars d)).eraseDups
        l = names.map d.join ∧
        w.entries.listing? d = some l ∧
        (∀ n ∈ names, w.entries.entries.get? (d.join n) = kids.find? (·.name == n)) ∧
        (∀ q ∈ l, q.parent? = some d) ∧
        ∀ q ∈ (v.entries.listing? d).getD [], q ∉ l →
          w.entries.entries.get? q = none ∧ w.entries.listing? q = none := by
  intro v
  have hwl : v.entries.WellListed :=
    Mount.keeps_replay (fun _ _ h => h) Mount.wellListed_frame _ EntryCache.wellListed_empty acts
  constructor
  · rintro hf ⟨cs, hlive⟩ hs
    have h := (triple_iff_run _ _ _ _).1 (list_fresh_of_cached_spec v hc hs) v rfl
    revert h
    rcases hrun : ((list d false).run).run v with ⟨_ | l, w⟩
    · rintro (hnf | ⟨err, s, herr⟩)
      · rw [hf] at hnf
        cases hnf
      · have := (error_of_triple (Store.listChildren_spec e d v.store) herr).2
        rw [hlive] at this
        cases this
    · exact fun _ => ⟨l, w, rfl⟩
  · intro l w hrun
    by_cases hs : (v.options.ignoreSidecars && d.isSidecar) = true
    · have h := (triple_iff_run _ _ _ _).1 (list_hidden_spec d false v hs) v rfl
      rw [hrun] at h
      exact h.elim
    have h := (triple_iff_run _ _ _ _).1
      (list_fresh_of_cached_spec v hc (Bool.eq_false_iff.2 hs)) v rfl
    rw [hrun] at h
    obtain ⟨kids, s, hkids, rfl, rfl⟩ := h
    obtain ⟨hkept, hnodup⟩ := keptChildren_spec v.options.ignoreSidecars d kids
    refine ⟨kids, by rw [hkids], keptChildren_paths _ d kids, recordListing_listing?_self .., ?_,
      ?_, ?_⟩
    · intro n hn
      have hkn := (List.mem_filter.1 (List.mem_eraseDups.1 hn)).2
      obtain ⟨c, hcm, hcn⟩ := List.mem_map.1 (List.mem_filter.1 (List.mem_eraseDups.1 hn)).1
      obtain ⟨c', hc'⟩ := Option.isSome_iff_exists.1
        (List.find?_isSome.2 ⟨c, hcm, by simp [hcn]⟩ : (kids.find? (·.name == n)).isSome)
      have hfind := keptChildren_find? v.options.ignoreSidecars d kids hkn
      rw [hc', Option.map_some] at hfind
      rw [recordListing_get?_of_find? hnodup hfind, hc']
    · intro q hq
      obtain ⟨pe, hpe, rfl⟩ := List.mem_map.1 hq
      obtain ⟨child, -, hname, rfl⟩ := hkept pe hpe
      exact Path.parent?_join d hname
    · intro q hq hql
      have hq' : q ∈ ((v.entries.get d).2.listing? d).getD [] := by
        rwa [EntryCache.listing?_get]
      obtain ⟨L, hL⟩ : ∃ L, v.entries.listing? d = some L := by
        cases hl : v.entries.listing? d with
        | none => rw [hl] at hq; cases hq
        | some L => exact ⟨L, rfl⟩
      rw [hL] at hq
      exact recordListing_forgets_gone hq' hql (Path.ne_of_parent? ((hwl d L hL).2 q hq))

/-- A folder holding a folder, a committed file and a second folder, all made through the
volume, lists afresh. -/
theorem fresh_listing_of_filled_folder :
    let acts := [Mount.Action.request (.createDir (Path.root.join "a")),
      .request (.createDir ((Path.root.join "a").join "b")),
      .openWrite ((Path.root.join "a").join "f") false false, .write 0 [1, 2], .commit 0,
      .request (.createDir ((Path.root.join "a").join "g"))]
    ((Mount.create {}).replay acts).volume.entries.entries.get? (Path.root.join "a") =
        some { id := 1, name := "a", isFolder := true, size := 0 } ∧
      ∃ l w, ((list (Path.root.join "a") false).run).run ((Mount.create {}).replay acts).volume =
          (.ok l, w) := by
  intro acts
  have hc : ((Mount.create {}).replay acts).volume.entries.entries.get? (Path.root.join "a") =
      some { id := 1, name := "a", isFolder := true, size := 0 } := by
    simp only [acts]
    cbv
  refine ⟨hc, (fresh_listing_postcondition {} acts hc).1 rfl ⟨["b", "f", "g"], ?_⟩ ?_⟩
  all_goals
    simp only [acts]
    cbv

end Volume

end FrontCache
