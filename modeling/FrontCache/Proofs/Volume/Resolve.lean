import FrontCache.Proofs.Volume.Coherence
/-!
# Resolving and listing keep the entry cache sound

`resolve` and `list` only look: they change call counts and the entry cache, nothing else.
In a coherent volume they keep it coherent, `resolve p` answers exactly what the store tells
about `p`, and it fails only for a path that the volume cannot see (`resolve_spec`). The two
are proved together, by strong induction on the number of components, as they call each other:
resolving a path resolves its parent and may list it, and listing a folder resolves it first.
-/
namespace FrontCache

namespace Volume

open Std.Do

set_option mvcgen.warning false

theorem Quiet.entries {v0 v : Volume} (h : Quiet v0 v) (c : EntryCache Entry) :
    Quiet v0 { v with entries := c } := by
  obtain ⟨k, c0, rfl⟩ := h
  exact ⟨k, c, rfl⟩

theorem Quiet.nodes {v0 v : Volume} (h : Quiet v0 v) : v.store.nodes = v0.store.nodes := by
  obtain ⟨k, c, rfl⟩ := h
  rfl

theorem Quiet.entryAt {v0 v : Volume} (h : Quiet v0 v) (q : Path) :
    v.store.entryAt q = v0.store.entryAt q := by
  simp only [Store.entryAt, Store.node?, h.nodes]

theorem Quiet.visible {v0 v : Volume} (h : Quiet v0 v) (q : Path) : v.Visible q ↔ v0.Visible q := by
  obtain ⟨k, c, rfl⟩ := h
  rfl

theorem Quiet.options {v0 v : Volume} (h : Quiet v0 v) : v.options = v0.options := by
  obtain ⟨k, c, rfl⟩ := h
  rfl

theorem Coherent.entries {v : Volume} (h : v.Coherent) {c : EntryCache Entry}
    (ha : c.Agrees v.store) (hs : ShownParents v.options c) : Coherent { v with entries := c } :=
  ⟨h.tree, h.plain, ha, hs⟩

theorem Quiet.bump {v0 v : Volume} (h : Quiet v0 v) {s : Store}
    (hs : ∃ k, s = { v.store with calls := k }) : Quiet v0 { v with store := s } := by
  obtain ⟨k, c, rfl⟩ := h
  obtain ⟨k', rfl⟩ := hs
  exact ⟨k', c, rfl⟩

theorem Coherent.bump {v : Volume} (h : v.Coherent) {s : Store}
    (hs : ∃ k, s = { v.store with calls := k }) : Coherent { v with store := s } :=
  h.quiet ((Quiet.refl v).bump hs) h.agrees h.shown

theorem Coherent.get {v : Volume} (h : v.Coherent) (p : Path) :
    Coherent { v with entries := (v.entries.get p).2 } :=
  h.entries (h.agrees.get p) (h.shown.get p)

theorem Coherent.remove {v : Volume} (h : v.Coherent) (p : Path) :
    Coherent { v with entries := v.entries.remove p } :=
  h.entries (h.agrees.remove p) (h.shown.remove p)

/-- A path that does not split is the root. -/
theorem eq_root_of_split? {p : Path} (h : p.split? = none) : p = Path.root := by
  by_contra hne
  obtain ⟨d, name, hs⟩ := Store.exists_split?_of_ne_root hne
  rw [hs] at h
  cases h

/-- In a coherent volume, looking a name up under a folder whose entry is fresh answers what
the store tells about the path of that name, and changes the call counts only. -/
theorem lookupChild_run {v : Volume} (hc : v.Coherent) {d p : Path} {name : String}
    {parent : Entry} (hd : v.store.entryAt d = some parent) (hf : parent.isFolder = true)
    (hs : p.split? = some (d, name)) :
    ∃ k, ((Store.lookupChild parent d name).run).run v.store =
      (.ok (v.store.entryAt p), { v.store with calls := k }) := by
  obtain ⟨cs, hcs⟩ := Store.folder_of_entryAt hd hf
  have hlive : v.store.liveFolder d parent = .ok cs := Store.liveFolder_eq_ok.2 hcs
  obtain ⟨a, s', hrun, ⟨k, rfl⟩, cs', hcs', rfl⟩ :=
    exists_ok_of_triple (Store.lookupChild_spec parent d name v.store) fun _ _ h => by
      rw [hlive] at h
      cases h.2
  rw [hlive] at hcs'
  cases hcs'
  refine ⟨k, ?_⟩
  rw [hrun]
  simp [hc.plain.misses, Store.find?_childEntry hc.tree hc.plain hcs hs]

/-- Listing a folder whose entry is fresh gives the store's children of it. -/
theorem listChildren_run {s : Store} {d : Path} {e : Entry} (hd : s.entryAt d = some e)
    (hf : e.isFolder = true) :
    ∃ cs k, s.node? d = some ⟨e.id, .folder cs⟩ ∧ ((Store.listChildren e d).run).run s =
      (.ok (cs.filterMap (s.childEntry d)), { s with calls := k }) := by
  obtain ⟨cs, hcs⟩ := Store.folder_of_entryAt hd hf
  have hlive : s.liveFolder d e = .ok cs := Store.liveFolder_eq_ok.2 hcs
  obtain ⟨l, s', hrun, ⟨k, rfl⟩, cs', hcs', rfl⟩ :=
    exists_ok_of_triple (Store.listChildren_spec e d s) fun _ _ h => by
      rw [hlive] at h
      cases h.2
  rw [hlive] at hcs'
  cases hcs'
  exact ⟨cs, k, hcs, hrun⟩

/-- A lookup below a fresh folder entry that finds nothing means the path is not there. -/
theorem not_visible_of_lookup_none {v : Volume} (hc : v.Coherent) {d p : Path} {name : String}
    {parent : Entry} (hd : v.store.entryAt d = some parent) (hf : parent.isFolder = true)
    (hs : p.split? = some (d, name)) {s : Store}
    (hrun : ((Store.lookupChild parent d name).run).run v.store = (.ok none, s)) :
    ¬ v.Visible p := by
  obtain ⟨k, h⟩ := lookupChild_run hc hd hf hs
  rw [h] at hrun
  have hnone : v.store.entryAt p = none := by
    injection hrun with h1
    injection h1
  intro hvis
  obtain ⟨m, hm⟩ := Option.isSome_iff_exists.1 hvis.2
  simp [Store.entryAt, hm] at hnone

/-- The store's entry for the folder above a visible path is a folder. -/
theorem isFolder_of_visible_child {v : Volume} (ht : v.store.Tree) {p d : Path} {name : String}
    (hs : p.split? = some (d, name)) (hvis : v.Visible p) {r : Entry}
    (hr : v.store.entryAt d = some r) : r.isFolder = true := by
  obtain ⟨-, id, cs, hd, -⟩ := hvis.parent ht hs
  simp only [Store.entryAt, hd, Option.map_some, Option.some.injEq] at hr
  rw [← hr]
  simp [Node.entry]

/-- The paths of a listing of `d`: children of `d` that the store holds, none twice. -/
def Lists (s : Store) (d : Path) (l : List Path) : Prop :=
  l.Nodup ∧ ∀ q ∈ l, q.parent? = some d ∧ (s.entryAt q).isSome

/-! ### The steps of a lookup

`resolve` screens the path first: a sidecar the options hide fails, a cached entry answers.
Past the screen it asks the store for the root, or resolves the parent folder and looks the last
name up in it; a miss the folder's listing still names is healed by listing the folder again.
`list` resolves the folder, answers from a cached listing when asked to, and otherwise fetches
the children from the store. Each step has its own specification below, and the two
induction steps only compose them. -/

/-- The screen in front of every lookup. -/
def screened (p : Path) (k : VolM Entry) : VolM Entry := do
  if (← get).options.ignoreSidecars && p.isSidecar then throw (.notFound p)
  if let some e ← cached p then return e
  k

/-- The store's entry for the root, cached. -/
def lookRoot : VolM Entry := do
  let r ← onStore Store.rootEntry
  modifyEntries (·.put Path.root r)
  pure r

/-- What a lookup below the folder `d` does when the store finds nothing at `p`: it forgets `p`
and, when the folder's listing named it, lists the folder once more and looks in the cache. -/
def healMiss (d p : Path) : VolM Entry := do
  let wasListed := (← get).entries.listingContains d p
  modifyEntries (·.remove p)
  if wasListed then
    let _ ← list d false
    if let some e ← cached p then return e
  throw (.notFound p)

/-- The lookup of the name `name` below the folder `d`. -/
def lookBelow (p d : Path) (name : String) : VolM Entry := do
  let parent ← resolve d
  if !parent.isFolder then throw (.notFound p)
  match ← evictOnNotFound [d] (onStore (Store.lookupChild parent d name)) with
  | some e =>
    modifyEntries (·.add p e)
    pure e
  | none => healMiss d p

/-- The children of a folder fetched from the store, recorded as its listing. -/
def fetchListing (dir : Path) (e : Entry) : VolM (List Path) := do
  let children ← evictOnNotFound [dir] (onStore (Store.listChildren e dir))
  let kept := keptChildren (← get).options.ignoreSidecars dir children
  modifyEntries (recordListing dir kept)
  pure (kept.map Prod.fst)

theorem resolve_root {p : Path} (h : p.split? = none) : resolve p = screened p lookRoot := by
  rw [resolve]
  split
  · rfl
  · rename_i h'
    rw [h] at h'
    cases h'

theorem resolve_below {p d : Path} {name : String} (h : p.split? = some (d, name)) :
    resolve p = screened p (lookBelow p d name) := by
  rw [resolve]
  split
  · rename_i h'
    rw [h] at h'
    cases h'
  · rename_i h'
    rw [h] at h'
    cases h'
    rfl

/-- Whichever way it goes on, a lookup passes the screen first. -/
theorem resolve_screened (p : Path) : ∃ k, resolve p = screened p k := by
  cases hs : p.split? with
  | none => exact ⟨_, resolve_root hs⟩
  | some dn => exact ⟨_, resolve_below hs⟩

theorem list_eq (dir : Path) (useCache : Bool) :
    list dir useCache = (do
      let e ← resolve dir
      if !e.isFolder then throw (.notADirectory dir)
      if useCache then
        if let some l := (← get).entries.listing? dir then return l
      fetchListing dir e) := by
  rw [list]
  rfl

/-- Past the screen a lookup keeps coherence as its last step `k` does, from a volume that
only differs in its cache: a hidden path is one the volume cannot see, and a cached entry is
the store's. -/
theorem screened_coherent {p : Path} {k : VolM Entry} (v0 : Volume)
    (hk : ¬ (v0.options.ignoreSidecars && p.isSidecar) = true →
      ⦃fun v => ⌜Quiet v0 v ∧ (v0.Coherent → v.Coherent)⌝⦄ k
      ⦃post⟨fun e v => ⌜Quiet v0 v ∧ (v0.Coherent → v.Coherent ∧ v0.store.entryAt p = some e ∧
          Shown v0.options p)⌝,
        fun _ v => ⌜Quiet v0 v ∧ (v0.Coherent → v.Coherent ∧ ¬ v0.Visible p)⌝⟩⦄) :
    ⦃fun v => ⌜v = v0⌝⦄ screened p k
    ⦃post⟨fun e v => ⌜Quiet v0 v ∧ (v0.Coherent → v.Coherent ∧ v0.store.entryAt p = some e ∧
          Shown v0.options p)⌝,
      fun _ v => ⌜Quiet v0 v ∧ (v0.Coherent → v.Coherent ∧ ¬ v0.Visible p)⌝⟩⦄ := by
  have hk' := triple_guard_pre hk
  rw [screened]
  mvcgen [cached_spec, hk']
  all_goals subst_vars
  case vc1 => exact ⟨Quiet.refl _, fun hc => ⟨hc, fun hvis => not_shown_of_sidecar ‹_› hvis.1⟩⟩
  case vc2 =>
    obtain ⟨he, rfl⟩ := ‹some _ = Table.get? _ p ∧ _›
    exact ⟨(Quiet.refl _).entries _, fun hc => ⟨hc.get p, hc.agrees.entry p _ he.symm,
      shown_of_parent (fun d hd => hc.shown p _ d he.symm hd) ‹_›⟩⟩
  case vc3 =>
    obtain ⟨-, rfl⟩ := ‹_ = Table.get? _ p ∧ _›
    exact ⟨⟨(Quiet.refl _).entries _, fun hc => hc.get p⟩, ‹_›⟩

theorem lookRoot_coherent (v0 : Volume) :
    ⦃fun v => ⌜Quiet v0 v ∧ (v0.Coherent → v.Coherent)⌝⦄ lookRoot
    ⦃post⟨fun e v => ⌜Quiet v0 v ∧ (v0.Coherent → v.Coherent ∧
          v0.store.entryAt Path.root = some e ∧ Shown v0.options Path.root)⌝,
      fun _ v => ⌜Quiet v0 v ∧ (v0.Coherent → v.Coherent ∧ ¬ v0.Visible Path.root)⌝⟩⦄ := by
  rw [lookRoot]
  mvcgen [onStore_spec, modifyEntries]
  all_goals obtain ⟨hq, hc⟩ := ‹Quiet v0 _ ∧ _›
  case vc1 =>
    obtain ⟨s2, hrun, rfl⟩ := ‹∃ s, StateT.run _ _ = _ ∧ _›
    obtain ⟨hk, m, hm, rfl⟩ := ok_of_triple (Store.rootEntry_spec _) hrun
    have hq2 := hq.bump hk
    have he : v0.store.entryAt Path.root = some (m.entry Path.root) := by
      rw [← hq.entryAt]
      simp [Store.entryAt, hm]
    refine ⟨hq2.entries _, fun hc0 => ⟨?_, he, shown_root _⟩⟩
    have hc2 := (hc hc0).bump hk
    refine hc2.entries (hc2.agrees.put ((hq2.entryAt _).trans he)) (hc2.shown.put (fun d hd => ?_) _)
    rw [Path.parent?_root] at hd
    cases hd
  case vc2 =>
    rintro ⟨s2, hrun, rfl⟩
    obtain ⟨hk, hnone⟩ := error_of_triple (Store.rootEntry_spec _) hrun
    refine ⟨hq.bump hk, fun hc0 => ⟨(hc hc0).bump hk, fun hvis => ?_⟩⟩
    have h0 : v0.store.node? Path.root = none := by
      simpa only [Store.node?, hq.nodes] using hnone
    exact absurd hvis.2 (by simp [h0])

/-- Healing a miss at a path the volume cannot see: whatever the listing brings, an entry then
found in the cache is the store's. -/
theorem healMiss_coherent {p d : Path}
    (hl : ∀ b v1, ⦃fun v => ⌜v = v1⌝⦄ list d b
      ⦃post⟨fun l v => ⌜Quiet v1 v ∧ (v1.Coherent → v.Coherent ∧ Lists v1.store d l)⌝,
        fun _ v => ⌜Quiet v1 v ∧ (v1.Coherent → v.Coherent)⌝⟩⦄)
    (v0 : Volume) (hhid : ¬ (v0.options.ignoreSidecars && p.isSidecar) = true) :
    ⦃fun v => ⌜Quiet v0 v ∧ (v0.Coherent → v.Coherent ∧ ¬ v0.Visible p)⌝⦄ healMiss d p
    ⦃post⟨fun e v => ⌜Quiet v0 v ∧ (v0.Coherent → v.Coherent ∧ v0.store.entryAt p = some e ∧
          Shown v0.options p)⌝,
      fun _ v => ⌜Quiet v0 v ∧ (v0.Coherent → v.Coherent ∧ ¬ v0.Visible p)⌝⟩⦄ := by
  rw [healMiss]
  mvcgen [hl, cached_spec, modifyEntries]
  all_goals obtain ⟨hq, hc⟩ := ‹Quiet v0 _ ∧ _›
  case vc1 =>
    obtain ⟨hq4, hc4⟩ := ‹Quiet _ _ ∧ (_ → _ ∧ Lists _ d _)›
    obtain ⟨he, rfl⟩ := ‹some _ = Table.get? _ p ∧ _›
    have hq4' := (hq.entries _).trans hq4
    refine ⟨hq4'.entries _, fun hc0 => ?_⟩
    have hc5 := (hc4 ((hc hc0).1.remove p)).1
    exact ⟨hc5.get p, (hq4'.entryAt p).symm.trans (hc5.agrees.entry p _ he.symm),
      shown_of_parent (fun d hd => hq4'.options ▸ hc5.shown p _ d he.symm hd) hhid⟩
  case vc2 =>
    obtain ⟨hq4, hc4⟩ := ‹Quiet _ _ ∧ (_ → _ ∧ Lists _ d _)›
    obtain ⟨-, rfl⟩ := ‹_ = Table.get? _ p ∧ _›
    exact ⟨((hq.entries _).trans hq4).entries _,
      fun hc0 => ⟨((hc4 ((hc hc0).1.remove p)).1).get p, (hc hc0).2⟩⟩
  case vc3 =>
    intro hq4 hc4
    exact ⟨(hq.entries _).trans hq4, fun hc0 => ⟨hc4 ((hc hc0).1.remove p), (hc hc0).2⟩⟩
  case vc4 => exact ⟨hq.entries _, fun hc0 => ⟨(hc hc0).1.remove p, (hc hc0).2⟩⟩

/-- A lookup below a folder, given what resolving and listing the folder do. In a coherent
volume the folder's entry is fresh, so the store's answer is the lookup's. -/
theorem lookBelow_coherent {p d : Path} {name : String} (hs : p.split? = some (d, name))
    (hr : ∀ v1, ⦃fun v => ⌜v = v1⌝⦄ resolve d
      ⦃post⟨fun e v => ⌜Quiet v1 v ∧ (v1.Coherent → v.Coherent ∧ v1.store.entryAt d = some e ∧
          Shown v1.options d)⌝,
        fun _ v => ⌜Quiet v1 v ∧ (v1.Coherent → v.Coherent ∧ ¬ v1.Visible d)⌝⟩⦄)
    (hl : ∀ b v1, ⦃fun v => ⌜v = v1⌝⦄ list d b
      ⦃post⟨fun l v => ⌜Quiet v1 v ∧ (v1.Coherent → v.Coherent ∧ Lists v1.store d l)⌝,
        fun _ v => ⌜Quiet v1 v ∧ (v1.Coherent → v.Coherent)⌝⟩⦄)
    (v0 : Volume) (hhid : ¬ (v0.options.ignoreSidecars && p.isSidecar) = true) :
    ⦃fun v => ⌜Quiet v0 v ∧ (v0.Coherent → v.Coherent)⌝⦄ lookBelow p d name
    ⦃post⟨fun e v => ⌜Quiet v0 v ∧ (v0.Coherent → v.Coherent ∧ v0.store.entryAt p = some e ∧
          Shown v0.options p)⌝,
      fun _ v => ⌜Quiet v0 v ∧ (v0.Coherent → v.Coherent ∧ ¬ v0.Visible p)⌝⟩⦄ := by
  have hheal := healMiss_coherent hl v0 hhid
  rw [lookBelow]
  mvcgen [hr, hheal, onStore_spec, evictOnNotFound_spec, modifyEntries]
  all_goals subst_vars
  all_goals obtain ⟨hq, hc⟩ := ‹Quiet v0 _ ∧ _›
  case vc1 =>
    obtain ⟨hq2, hc2⟩ := ‹Quiet _ _ ∧ (_ → _ ∧ _ = some _ ∧ _)›
    refine ⟨hq.trans hq2, fun hc0 => ⟨(hc2 (hc hc0)).1, fun hvis => ?_⟩⟩
    have hr := (hq.entryAt d).symm.trans (hc2 (hc hc0)).2.1
    exact absurd (isFolder_of_visible_child hc0.tree hs hvis hr) (by simpa using ‹(!_) = true›)
  case vc2 =>
    obtain ⟨hq2, hc2⟩ := ‹Quiet _ _ ∧ (_ → _ ∧ _ = some _ ∧ _)›
    obtain ⟨s3, hrun, rfl⟩ := ‹∃ s, StateT.run _ _ = _ ∧ _›
    obtain ⟨hk, -⟩ := ok_of_triple (Store.lookupChild_spec _ _ _ _) hrun
    have hq3 := hq.trans hq2
    refine ⟨(hq3.bump hk).entries _, fun hc0 => ?_⟩
    obtain ⟨hc3, hr, hshd⟩ := hc2 (hc hc0)
    obtain ⟨k, hrun'⟩ := lookupChild_run hc3 ((hq2.entryAt d).trans hr)
      (by simpa using ‹¬ (!_) = true›) hs
    rw [hrun'] at hrun
    injection hrun with h1
    injection h1 with h2
    have he := (hq3.entryAt p).symm.trans h2
    have hc4 := hc3.bump hk
    refine ⟨hc4.entries (hc4.agrees.add (((hq3.bump hk).entryAt p).trans he))
      (hc4.shown.add (fun d' hd' => ?_) _), he, shown_of_split hs (hq.options ▸ hshd) hhid⟩
    rw [Path.parent?_of_split? hs] at hd'
    cases hd'
    exact hq2.options ▸ hshd
  case vc3 =>
    -- the store found nothing: the path is not there, which is what `healMiss` starts from
    obtain ⟨hq2, hc2⟩ := ‹Quiet _ _ ∧ (_ → _ ∧ _ = some _ ∧ _)›
    obtain ⟨s3, hrun, rfl⟩ := ‹∃ s, StateT.run _ _ = _ ∧ _›
    obtain ⟨hk, -⟩ := ok_of_triple (Store.lookupChild_spec _ _ _ _) hrun
    have hq3 := hq.trans hq2
    refine ⟨hq3.bump hk, fun hc0 => ?_⟩
    obtain ⟨hc3, hr, -⟩ := hc2 (hc hc0)
    refine ⟨hc3.bump hk, fun hvis => ?_⟩
    exact not_visible_of_lookup_none hc3 ((hq2.entryAt d).trans hr)
      (by simpa using ‹¬ (!_) = true›) hs hrun ((hq3.visible p).2 hvis)
  case vc4 =>
    -- a lookup under a fresh folder entry does not fail
    obtain ⟨hq2, hc2⟩ := ‹Quiet _ _ ∧ (_ → _ ∧ _ = some _ ∧ _)›
    rintro ⟨s3, l, hrun, rfl⟩
    obtain ⟨hk, -⟩ := error_of_triple (Store.lookupChild_spec _ _ _ _) hrun
    refine ⟨((hq.trans hq2).bump hk).entries _, fun hc0 => ?_⟩
    obtain ⟨hc3, hr, -⟩ := hc2 (hc hc0)
    obtain ⟨k, hrun'⟩ := lookupChild_run hc3 ((hq2.entryAt d).trans hr)
      (by simpa using ‹¬ (!_) = true›) hs
    rw [hrun'] at hrun
    injection hrun with h1
    injection h1
  case vc5 =>
    intro hq2 hc2
    refine ⟨hq.trans hq2, fun hc0 => ?_⟩
    obtain ⟨hc3, hnd⟩ := hc2 (hc hc0)
    exact ⟨hc3, fun hvis => hnd ((hq.visible d).2 (hvis.parent hc0.tree hs).1)⟩

/-- One step of the induction: resolving a path of `n` components, given what resolving and
listing do on shorter paths. -/
theorem resolve_step (n : Nat)
    (ihr : ∀ d, d.count < n → ∀ v0, ⦃fun v => ⌜v = v0⌝⦄ resolve d
      ⦃post⟨fun e v => ⌜Quiet v0 v ∧ (v0.Coherent → v.Coherent ∧ v0.store.entryAt d = some e ∧
          Shown v0.options d)⌝,
        fun _ v => ⌜Quiet v0 v ∧ (v0.Coherent → v.Coherent ∧ ¬ v0.Visible d)⌝⟩⦄)
    (ihl : ∀ d, d.count < n → ∀ b v0, ⦃fun v => ⌜v = v0⌝⦄ list d b
      ⦃post⟨fun l v => ⌜Quiet v0 v ∧ (v0.Coherent → v.Coherent ∧ Lists v0.store d l)⌝,
        fun _ v => ⌜Quiet v0 v ∧ (v0.Coherent → v.Coherent)⌝⟩⦄)
    (p : Path) (hp : p.count = n) (v0 : Volume) :
    ⦃fun v => ⌜v = v0⌝⦄ resolve p
      ⦃post⟨fun e v => ⌜Quiet v0 v ∧ (v0.Coherent → v.Coherent ∧ v0.store.entryAt p = some e ∧
          Shown v0.options p)⌝,
        fun _ v => ⌜Quiet v0 v ∧ (v0.Coherent → v.Coherent ∧ ¬ v0.Visible p)⌝⟩⦄ := by
  cases hs : p.split? with
  | none =>
    obtain rfl := eq_root_of_split? hs
    rw [resolve_root hs]
    exact screened_coherent v0 fun _ => lookRoot_coherent v0
  | some dn =>
    obtain ⟨d, name⟩ := dn
    have hd : d.count < n := hp ▸ Path.count_lt_of_split? hs
    rw [resolve_below hs]
    exact screened_coherent v0 (lookBelow_coherent hs (ihr d hd) (ihl d hd) v0)

/-- A fresh listing below a folder whose entry was resolved keeps the volume coherent, and
what it caches and answers are children of the folder that the store holds. -/
theorem list_fresh {v v2 : Volume} {dir : Path} {r : Entry} {children : List Entry} {s : Store}
    (hf : r.isFolder = true)
    (hih : Quiet v v2 ∧ (v.Coherent → v2.Coherent ∧ v.store.entryAt dir = some r ∧
      Shown v.options dir))
    (hrun : ((Store.listChildren r dir).run).run v2.store = (.ok children, s)) :
    Quiet v { v2 with
      store := s
      entries := recordListing dir (keptChildren v2.options.ignoreSidecars dir children) v2.entries } ∧
    (v.Coherent → Coherent { v2 with
      store := s
      entries := recordListing dir (keptChildren v2.options.ignoreSidecars dir children) v2.entries } ∧
      Lists v.store dir ((keptChildren v2.options.ignoreSidecars dir children).map Prod.fst)) := by
  obtain ⟨hk, -⟩ := ok_of_triple (Store.listChildren_spec _ _ _) hrun
  refine ⟨(hih.1.bump hk).entries _, fun hc => ?_⟩
  obtain ⟨hc2, hr, hsd⟩ := hih.2 hc
  obtain ⟨cs, k, hd, hrun'⟩ := listChildren_run ((hih.1.entryAt dir).trans hr) hf
  rw [hrun'] at hrun
  injection hrun with h1 h2
  injection h1 with h1
  subst h1 h2
  have hq := (Quiet.refl v2).bump ⟨k, rfl⟩
  have hfresh := Store.keptChildren_fresh hc2.tree hc2.plain hd v2.options.ignoreSidecars
  have hnodup := (keptChildren_spec v2.options.ignoreSidecars dir (cs.filterMap (v2.store.childEntry dir))).2
  have hc3 := hc2.bump ⟨k, rfl⟩
  refine ⟨hc3.entries (hc3.agrees.recordListing (fun pe hpe => ?_) hnodup)
    (hc3.shown.recordListing (hih.1.options ▸ hsd) fun pe hpe => (hfresh pe hpe).1), hnodup,
    fun q hq' => ?_⟩
  · obtain ⟨hpar, he⟩ := hfresh pe hpe
    exact ⟨hpar, (hq.entryAt pe.1).trans he⟩
  · obtain ⟨pe, hpe, rfl⟩ := List.mem_map.1 hq'
    obtain ⟨hpar, he⟩ := hfresh pe hpe
    refine ⟨hpar, ?_⟩
    rw [← hih.1.entryAt, he]
    rfl

/-- A failed listing below a resolved folder keeps the volume coherent. -/
theorem list_failed {v v2 v4 : Volume} {dir : Path} {r : Entry} {e : Error}
    (hih : Quiet v v2 ∧ (v.Coherent → v2.Coherent ∧ v.store.entryAt dir = some r ∧
      Shown v.options dir)) :
    (∃ (s : Store) (l : List Path), ((Store.listChildren r dir).run).run v2.store = (.error e, s) ∧
      v4 = { v2 with store := s, entries := l.foldl EntryCache.remove v2.entries }) →
    Quiet v v4 ∧ (v.Coherent → v4.Coherent) := by
  rintro ⟨s, l, hrun, rfl⟩
  obtain ⟨hk, -⟩ := error_of_triple (Store.listChildren_spec _ _ _) hrun
  refine ⟨(hih.1.bump hk).entries _, fun hco => ?_⟩
  have hc3 := (hih.2 hco).1.bump hk
  exact hc3.entries (hc3.agrees.foldl_remove l) (hc3.shown.foldl_remove l)

theorem fetchListing_coherent (dir : Path) (v0 : Volume) (r : Entry) :
    ⦃fun v => ⌜r.isFolder = true ∧ Quiet v0 v ∧ (v0.Coherent → v.Coherent ∧
        v0.store.entryAt dir = some r ∧ Shown v0.options dir)⌝⦄ fetchListing dir r
    ⦃post⟨fun l v => ⌜Quiet v0 v ∧ (v0.Coherent → v.Coherent ∧ Lists v0.store dir l)⌝,
      fun _ v => ⌜Quiet v0 v ∧ (v0.Coherent → v.Coherent)⌝⟩⦄ := by
  rw [fetchListing]
  mvcgen [onStore_spec, evictOnNotFound_spec, modifyEntries]
  all_goals obtain ⟨hf, hih⟩ := ‹_ = true ∧ Quiet v0 _ ∧ _›
  case vc1 =>
    obtain ⟨s, hrun, rfl⟩ := ‹∃ s, StateT.run _ _ = _ ∧ _›
    have hfresh := list_fresh hf hih hrun
    exact hfresh
  case vc2 => exact list_failed hih

/-- Listing a folder, given what resolving it does. -/
theorem list_step (dir : Path) (b : Bool)
    (hr : ∀ v0, ⦃fun v => ⌜v = v0⌝⦄ resolve dir
      ⦃post⟨fun e v => ⌜Quiet v0 v ∧ (v0.Coherent → v.Coherent ∧ v0.store.entryAt dir = some e ∧
          Shown v0.options dir)⌝,
        fun _ v => ⌜Quiet v0 v ∧ (v0.Coherent → v.Coherent ∧ ¬ v0.Visible dir)⌝⟩⦄)
    (v0 : Volume) :
    ⦃fun v => ⌜v = v0⌝⦄ list dir b
      ⦃post⟨fun l v => ⌜Quiet v0 v ∧ (v0.Coherent → v.Coherent ∧ Lists v0.store dir l)⌝,
        fun _ v => ⌜Quiet v0 v ∧ (v0.Coherent → v.Coherent)⌝⟩⦄ := by
  have hfetch := fetchListing_coherent dir v0
  rw [list_eq]
  mvcgen [hr, hfetch]
  all_goals subst_vars
  case vc1 =>
    obtain ⟨hq, hc⟩ := ‹Quiet _ _ ∧ _›
    exact ⟨hq, fun hc0 => (hc hc0).1⟩
  case vc2 =>
    -- a cached listing: a coherent cache lists what the store holds
    obtain ⟨hq, hc⟩ := ‹Quiet _ _ ∧ _›
    refine ⟨hq, fun hc0 => ?_⟩
    obtain ⟨hc2, -⟩ := hc hc0
    refine ⟨hc2, hc2.agrees.listing dir _ ‹_› |>.imp_right fun h q hq' => ?_⟩
    obtain ⟨hpar, he⟩ := h q hq'
    exact ⟨hpar, hq.entryAt q ▸ he⟩
  case vc3 | vc4 => exact ⟨by simpa using ‹¬ (!_) = true›, ‹_›⟩
  case vc5 =>
    intro hq hc
    exact ⟨hq, fun hc0 => (hc hc0).1⟩

/-- Resolving and listing on paths of `n` components. -/
theorem resolve_list_spec (n : Nat) :
    (∀ p v0, p.count = n → ⦃fun v => ⌜v = v0⌝⦄ resolve p
      ⦃post⟨fun e v => ⌜Quiet v0 v ∧ (v0.Coherent → v.Coherent ∧ v0.store.entryAt p = some e ∧
          Shown v0.options p)⌝,
        fun _ v => ⌜Quiet v0 v ∧ (v0.Coherent → v.Coherent ∧ ¬ v0.Visible p)⌝⟩⦄) ∧
    (∀ d b v0, d.count = n → ⦃fun v => ⌜v = v0⌝⦄ list d b
      ⦃post⟨fun l v => ⌜Quiet v0 v ∧ (v0.Coherent → v.Coherent ∧ Lists v0.store d l)⌝,
        fun _ v => ⌜Quiet v0 v ∧ (v0.Coherent → v.Coherent)⌝⟩⦄) := by
  induction n using Nat.strong_induction_on with
  | _ n ih =>
    have hr : ∀ (p : Path) (v0 : Volume), p.count = n → _ := fun p v0 hp =>
      resolve_step n (fun d hd v0 => (ih d.count hd).1 d v0 rfl)
        (fun d hd b v0 => (ih d.count hd).2 d b v0 rfl) p hp v0
    exact ⟨hr, fun d b v0 hd => list_step d b (fun v0 => hr d v0 hd) v0⟩

/-- Resolving leaves the nodes of the store alone and keeps a coherent volume coherent; over
a coherent volume the entry found is the store's, and a path that is not found is not there
or hidden. -/
@[spec] theorem resolve_spec (p : Path) (v0 : Volume) :
    ⦃fun v => ⌜v = v0⌝⦄ resolve p
      ⦃post⟨fun e v => ⌜Quiet v0 v ∧ (v0.Coherent → v.Coherent ∧ v0.store.entryAt p = some e ∧
          Shown v0.options p)⌝,
        fun _ v => ⌜Quiet v0 v ∧ (v0.Coherent → v.Coherent ∧ ¬ v0.Visible p)⌝⟩⦄ :=
  (resolve_list_spec p.count).1 p v0 rfl

/-- Listing leaves the nodes of the store alone and keeps a coherent volume coherent; over a
coherent volume it names children of the folder that the store holds, none twice. -/
@[spec] theorem list_spec (d : Path) (b : Bool) (v0 : Volume) :
    ⦃fun v => ⌜v = v0⌝⦄ list d b
      ⦃post⟨fun l v => ⌜Quiet v0 v ∧ (v0.Coherent → v.Coherent ∧ Lists v0.store d l)⌝,
        fun _ v => ⌜Quiet v0 v ∧ (v0.Coherent → v.Coherent)⌝⟩⦄ :=
  (resolve_list_spec d.count).2 d b v0 rfl

/-- Looking a path up where absence is an answer: over a coherent volume, an entry found is
the store's and an absent path is not visible. -/
@[spec] theorem resolveExisting_spec (p : Path) (v0 : Volume) :
    ⦃fun v => ⌜v = v0⌝⦄ resolveExisting p
      ⦃post⟨fun r v => ⌜Quiet v0 v ∧ (v0.Coherent → v.Coherent ∧
          (∀ e, r = some e → v0.store.entryAt p = some e ∧ Shown v0.options p) ∧
          (r = none → ¬ v0.Visible p))⌝,
        fun _ v => ⌜Quiet v0 v ∧ (v0.Coherent → v.Coherent)⌝⟩⦄ := by
  unfold resolveExisting
  mvcgen [resolve_spec]
  case vc1 =>
    rename_i r v hv
    subst_vars
    exact ⟨hv.1, fun hc => ⟨(hv.2 hc).1, fun e he => by cases he; exact (hv.2 hc).2, by simp⟩⟩
  case vc2 =>
    subst_vars
    intro v hq hc
    split
    · simp only [WP.pure]
      exact ⟨hq, fun h => ⟨(hc h).1, by simp, fun _ => (hc h).2⟩⟩
    · simp only [WP.throw_MonadExcept, WP.throw_ExceptT]
      exact ⟨hq, fun h => (hc h).1⟩

/-- The folder that will hold a path: over a coherent volume, the store's folder entry of the
path's parent; it is found whenever that parent is a shown folder. -/
@[spec] theorem resolveParentFolder_spec (p : Path) (v0 : Volume) :
    ⦃fun v => ⌜v = v0⌝⦄ resolveParentFolder p
      ⦃post⟨fun r v => ⌜Quiet v0 v ∧ p.parent? = some r.1 ∧ r.2.isFolder = true ∧
          (v0.Coherent → v.Coherent ∧ v0.store.entryAt r.1 = some r.2 ∧ Shown v0.options r.1)⌝,
        fun _ v => ⌜Quiet v0 v ∧ (v0.Coherent → v.Coherent ∧ ∀ d, p.parent? = some d →
          Shown v0.options d → ∀ i cs, v0.store.node? d ≠ some ⟨i, .folder cs⟩)⌝⟩⦄ := by
  unfold resolveParentFolder
  mvcgen [resolve_spec]
  all_goals subst_vars
  case vc1 =>
    have hp := ‹p.parent? = none›
    exact ⟨Quiet.refl _, fun hc => ⟨hc, fun d hd => by rw [hp] at hd; cases hd⟩⟩
  case vc2 =>
    -- the parent resolved to a file: on a coherent volume that is the store's node there
    have hd := ‹p.parent? = some _›
    have hnf := ‹(! _) = true›
    obtain ⟨hq, hv⟩ := ‹Quiet _ _ ∧ _›
    refine ⟨hq, fun hc => ⟨(hv hc).1, fun d' hd' _ i cs hn => ?_⟩⟩
    rw [hd] at hd'
    cases hd'
    have he := (hv hc).2.1
    rw [Store.entryAt, hn] at he
    cases he
    simp [Node.entry] at hnf
  case vc3 =>
    have hnf := ‹¬ (! _) = true›
    obtain ⟨hq, hv⟩ := ‹Quiet _ _ ∧ _›
    exact ⟨hq, ‹p.parent? = some _›, by simpa using hnf, hv⟩
  case vc4 =>
    have hd := ‹p.parent? = some _›
    intro hq hc
    refine ⟨hq, fun h => ⟨(hc h).1, fun d' hd' hs i cs hn => ?_⟩⟩
    rw [hd] at hd'
    cases hd'
    exact (hc h).2 ⟨hs, by simp [hn]⟩

end Volume

end FrontCache
