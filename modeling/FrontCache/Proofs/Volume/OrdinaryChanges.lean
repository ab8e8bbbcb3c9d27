import FrontCache.Proofs.Volume.Ordinary
/-!
# Removing and moving in an ordinary volume

The changes a move is made of, each from an ordinary volume `w`: removing a path with nothing
below it leaves an ordinary volume whose store is `w`'s with the path taken out (`delete_leaf`),
and a move or rename to a path ends as the store's move there read in `w`'s store
(`relocate_bare`, `rename_bare`): with the nodes `movedNodes` gives, or failing with the nodes
as they were, either because the path has no folder to go in or because the store's move
refuses.
-/
namespace FrontCache

open Std.Do

set_option mvcgen.warning false

namespace Store

/-- Taking a path out keeps a store plain, whatever the counts. -/
theorem Plain.detach {s : Store} (h : s.Plain) (p : Path) (k : Calls) :
    { (s.detach p).2 with calls := k }.Plain := by
  rw [detach_snd]
  exact ⟨h.reported, h.misses, h.whole, h.sync⟩

theorem Plain.counted {s : Store} (h : s.Plain) (k : Calls) : { s with calls := k }.Plain :=
  ⟨h.reported, h.misses, h.whole, h.sync⟩

theorem Plain.insert {s s' : Store} (h : s.Plain) {p : Path} {b : Body} {e : Entry}
    (hi : s.insert p b = .ok (e, s')) : s'.Plain := by
  rw [insert_fields hi]
  exact ⟨h.reported, h.misses, h.whole, h.sync⟩

theorem Plain.relocate {s s' : Store} (h : s.Plain) {src dst : Path} {e : Entry}
    (hr : s.relocate src dst = .ok (e, s')) : s'.Plain := by
  obtain ⟨-, -, -, -, -, -, hs⟩ := relocate_eq_ok hr
  rw [hs]
  exact ⟨h.reported, h.misses, h.whole, h.sync⟩

theorem Plain.overwrite {s : Store} (h : s.Plain) (p : Path) (n : Node) (b : Body) :
    (s.overwrite p n b).2.Plain :=
  ⟨h.reported, h.misses, h.whole, h.sync⟩

end Store

namespace Volume

/-! ### What an ordinary volume is made of -/

theorem shownParents_of_bare {o : Options} (h : o.ignoreSidecars = false) (c : EntryCache Entry) :
    ShownParents o c :=
  fun _ _ d _ _ => shown_of_bare h d

/-- A volume with the options of an ordinary one, a tree store that only it changes and an entry
cache that agrees with the store, is ordinary. -/
theorem Ordinary.rebuild {v : Volume} (ho : v.Ordinary) {s : Store} {c : EntryCache Entry}
    (ht : s.Tree) (hp : s.Plain) (ha : c.Agrees s) : Ordinary { v with store := s, entries := c } :=
  ⟨⟨ht, hp, ha, shownParents_of_bare ho.shows c⟩, ho.shows, ho.writable⟩

theorem Ordinary.withEntries {v : Volume} (ho : v.Ordinary) {c : EntryCache Entry}
    (ha : c.Agrees v.store) : Ordinary { v with entries := c } :=
  ho.rebuild ho.coherent.tree ho.coherent.plain ha

theorem Ordinary.withContent {v : Volume} (ho : v.Ordinary) (c : ContentCache) :
    Ordinary { v with content := c } :=
  ⟨⟨ho.coherent.tree, ho.coherent.plain, ho.coherent.agrees, ho.coherent.shown⟩, ho.shows,
    ho.writable⟩

theorem Ordinary.withUploads {v : Volume} (ho : v.Ordinary) (u : Uploads) :
    Ordinary { v with uploads := u } :=
  ⟨⟨ho.coherent.tree, ho.coherent.plain, ho.coherent.agrees, ho.coherent.shown⟩, ho.shows,
    ho.writable⟩

/-- Counting calls and forgetting paths keep a volume ordinary. -/
theorem Ordinary.counted {v : Volume} (ho : v.Ordinary) (k : Calls) (l : List Path) :
    Ordinary { v with store := { v.store with calls := k }, entries := l.foldl .remove v.entries } :=
  ho.rebuild (ho.coherent.tree.of_nodes rfl) (ho.coherent.plain.counted k)
    ((ho.coherent.agrees.foldl_remove l).of_nodes rfl)

/-- A subtree the store moved, after calls were counted, with the cached part below the source
forgotten and the rest carried over to the target. -/
theorem Ordinary.relocatedFolder {v : Volume} (ho : v.Ordinary) {k : Calls} {src dst : Path}
    {e : Entry} {s : Store} (h : { v.store with calls := k }.relocate src dst = .ok (e, s)) :
    Ordinary { v with store := s, entries := ((v.entries.removeBelow src).2).move src dst e } :=
  have ht : ({ v.store with calls := k } : Store).Tree := ho.coherent.tree.of_nodes rfl
  have ha : v.entries.Agrees { v.store with calls := k } := ho.coherent.agrees.of_nodes rfl
  ho.rebuild (ht.relocate h) ((ho.coherent.plain.counted k).relocate h) (ha.relocate_folder ht h)

/-- A path with nothing below it that the store moved, after calls were counted, forgotten at
the source and cached at the target. -/
theorem Ordinary.relocatedFile {v : Volume} (ho : v.Ordinary) {k : Calls} {src dst : Path}
    {e : Entry} {s : Store} (hsrc : ¬ v.store.Populated src)
    (h : { v.store with calls := k }.relocate src dst = .ok (e, s)) :
    Ordinary { v with store := s, entries := (v.entries.remove src).add dst e } :=
  have ht : ({ v.store with calls := k } : Store).Tree := ho.coherent.tree.of_nodes rfl
  have ha : v.entries.Agrees { v.store with calls := k } := ho.coherent.agrees.of_nodes rfl
  ho.rebuild (ht.relocate h) ((ho.coherent.plain.counted k).relocate h) (ha.relocate_file ht hsrc h)

/-- A source the lookups from `w` found to be a file has nothing below it. -/
theorem not_populated_of_file_entry {w v : Volume} (hq : Quiet w v) {src : Path} {se : Entry}
    (hse : w.store.entryAt src = some se) (hf : se.isFolder = false) : ¬ v.store.Populated src := by
  obtain ⟨data, hd, -⟩ := Store.file_of_entryAt ((hq.entryAt src).trans hse) hf
  exact Store.not_populated_of_file hd rfl

/-- Removing a path with nothing below it from a volume after lookups takes it out. -/
theorem remove_quiet {w v : Volume} (hq : Quiet w v) {p : Path} {e : Entry}
    (he : w.store.entryAt p = some e) (hp : ¬ w.store.Populated p) :
    ∃ k, ((Store.remove e p).run).run v.store = (.ok (), ({ v.store with calls := k }.detach p).2) := by
  obtain ⟨k0, c0, rfl⟩ := hq
  exact Store.remove_run he hp

/-- A volume after lookups from an ordinary `w`, once a path with nothing below it is removed
from its store and forgotten by its entry cache, is ordinary, with the path taken out of the
store of `w`. -/
theorem Ordinary.removed {w v : Volume} (ho : w.Ordinary) (hq : Quiet w v) (hc : v.Coherent)
    {p : Path} {e : Entry} (he : w.store.entryAt p = some e) (hp : ¬ w.store.Populated p)
    {s : Store} (hrun : ((Store.remove e p).run).run v.store = (.ok (), s)) (c : ContentCache) :
    Ordinary { v with store := s, entries := v.entries.remove p, content := c } ∧
      ∃ k, s = { (w.store.detach p).2 with calls := k } := by
  obtain ⟨k, hrun'⟩ := remove_quiet hq he hp
  rw [hrun'] at hrun
  cases hrun
  obtain ⟨k0, c0, rfl⟩ := hq
  simp only [Store.detach_calls]
  have ha : c0.Agrees w.store := hc.agrees.of_nodes rfl
  refine ⟨⟨⟨(ho.coherent.tree.detach p).of_nodes rfl, ho.coherent.plain.detach p k,
    (ha.detach ho.coherent.tree hp).of_nodes rfl, hc.shown.remove p⟩, ho.shows, ho.writable⟩,
    k, rfl⟩

/-- Asking a volume after lookups whether a folder has children answers from the names the
folder has in the store the lookups started from. -/
theorem hasChildren_quiet {w v : Volume} (hq : Quiet w v) {p : Path} {e : Entry}
    (he : w.store.entryAt p = some e) (hf : e.isFolder = true) :
    ∃ cs k, w.store.node? p = some ⟨e.id, .folder cs⟩ ∧
      ((Store.hasChildren e p).run).run v.store = (.ok !cs.isEmpty, { v.store with calls := k }) := by
  obtain ⟨cs, k, hcs, hrun⟩ := Store.hasChildren_run ((hq.entryAt p).trans he) hf
  refine ⟨cs, k, ?_, hrun⟩
  rw [Store.node?, ← hq.nodes]
  exact hcs

/-- Asking a volume after lookups whether a fresh folder has children answers from its names in
the store the lookups started from, and only counts a call. -/
theorem hasChildren_step {w v : Volume} (hq : Quiet w v) {p : Path} {e : Entry}
    (he : w.store.entryAt p = some e) (hf : e.isFolder = true) {r : Except Error Bool} {s : Store}
    (h : ((Store.hasChildren e p).run).run v.store = (r, s)) :
    ∃ cs, w.store.node? p = some ⟨e.id, .folder cs⟩ ∧ r = .ok !cs.isEmpty ∧
      ∃ k, s = { v.store with calls := k } := by
  obtain ⟨cs, k, hcs, hrun⟩ := hasChildren_quiet hq he hf
  rw [hrun] at h
  cases h
  exact ⟨cs, hcs, rfl, k, rfl⟩

theorem checkWritable_ordinary (p : Path) (w : Volume) :
    ⦃fun v => ⌜v = w ∧ w.Ordinary⌝⦄ checkWritable p
    ⦃post⟨fun _ v => ⌜v = w⌝, fun _ _ => ⌜False⌝⟩⦄ := by
  refine triple_guard fun ho => ?_
  unfold checkWritable
  mvcgen
  rename_i v hv hro
  subst hv
  simp [ho.writable] at hro

/-- A removal that succeeds after lookups from `w` took out a path with nothing below it. -/
theorem remove_ok_quiet {w v : Volume} (hq : Quiet w v) {p : Path} {e : Entry} {s : Store}
    (h : ((Store.remove e p).run).run v.store = (.ok (), s)) : ¬ w.store.Populated p := by
  obtain ⟨⟨-, -, hp⟩, -⟩ := ok_of_triple (Store.remove_spec e p v.store) h
  rwa [Store.populated_of_nodes hq.nodes] at hp

/-- A removal after lookups from `w` fails only for a path with something below it. -/
theorem populated_of_remove_error {w v : Volume} (hq : Quiet w v) {p : Path} {e : Entry}
    (he : w.store.entryAt p = some e) {err : Error} {s : Store}
    (h : ((Store.remove e p).run).run v.store = (.error err, s)) : w.store.Populated p := by
  by_contra hp
  obtain ⟨k, hrun⟩ := remove_quiet hq he hp
  rw [hrun] at h
  cases h

/-- The part of `delete` after the lookup: a folder with children stays, anything else is
removed from the store and forgotten by both caches. -/
def removeFound (p : Path) (e : Entry) : VolM Unit := do
  if e.isFolder then
    if ← evictOnNotFound [p] (onStore (Store.hasChildren e p)) then
      throw (.directoryNotEmpty p)
  evictOnNotFound [p] (onStore (Store.remove e p))
  modifyEntries (·.remove p)
  modifyContent (·.discard p)

theorem delete_eq (p : Path) :
    delete p = (do
      checkWritable p
      if p.isRoot then throw (.unsupported p Error.rootStays)
      let e ← resolve p
      removeFound p e) := rfl

/-- Removing a path that lookups from an ordinary `w` found: it fails only when something is
below the path, and otherwise takes the path's node out of the store of `w` and leaves an
ordinary volume. -/
theorem removeFound_spec {w : Volume} (ho : w.Ordinary) (p : Path) (e : Entry) :
    ⦃fun v => ⌜Quiet w v ∧ v.Ordinary ∧ w.store.entryAt p = some e⌝⦄ removeFound p e
    ⦃post⟨fun _ v => ⌜¬ w.store.Populated p ∧ v.Ordinary ∧
        ∃ k, v.store = { (w.store.detach p).2 with calls := k }⌝,
      fun _ _ => ⌜w.store.Populated p⌝⟩⦄ := by
  rw [removeFound]
  mvcgen [evictOnNotFound_spec, modifyEntries, modifyContent, -onStore_spec]
  all_goals subst_vars
  all_goals obtain ⟨hq, hov, he⟩ := ‹Quiet w _ ∧ _›
  case vc1 =>
    obtain ⟨s2, hrun2, -⟩ := ‹∃ s, StateT.run _ _ = _ ∧ _›
    obtain ⟨cs, hcs, hb, -⟩ := hasChildren_step hq he ‹_› hrun2
    obtain ⟨name, rest, rfl⟩ := List.exists_cons_of_ne_nil (by simpa using hb)
    exact ⟨e.id, name, rest, hcs⟩
  case vc2 =>
    obtain ⟨s2, hrun2, rfl⟩ := ‹∃ s, StateT.run (ExceptT.run (Store.hasChildren _ _)) _ = _ ∧ _›
    obtain ⟨s3, hrun3, rfl⟩ := ‹∃ s, StateT.run (ExceptT.run (Store.remove _ _)) _ = _ ∧ _›
    obtain ⟨-, -, -, k, rfl⟩ := hasChildren_step hq he ‹_› hrun2
    have hq2 := hq.bump ⟨k, rfl⟩
    have hp := remove_ok_quiet hq2 hrun3
    exact ⟨hp, ho.removed hq2 (hov.coherent.bump ⟨k, rfl⟩) he hp hrun3 _⟩
  case vc3 =>
    obtain ⟨s2, hrun2, rfl⟩ := ‹∃ s, StateT.run _ _ = _ ∧ _›
    obtain ⟨-, -, -, k, rfl⟩ := hasChildren_step hq he ‹_› hrun2
    rintro ⟨s3, l, hrun3, -⟩
    exact populated_of_remove_error (hq.bump ⟨k, rfl⟩) he hrun3
  case vc4 =>
    -- asking a fresh folder for children does not fail
    rintro ⟨s2, l, hrun2, -⟩
    obtain ⟨cs, -, h, -⟩ := hasChildren_step hq he ‹_› hrun2
    cases h
  case vc5 =>
    obtain ⟨s3, hrun3, rfl⟩ := ‹∃ s, StateT.run _ _ = _ ∧ _›
    have hp := remove_ok_quiet hq hrun3
    exact ⟨hp, ho.removed hq hov.coherent he hp hrun3 _⟩
  case vc6 =>
    rintro ⟨s3, l, hrun3, -⟩
    exact populated_of_remove_error hq he hrun3

theorem delete_leaf (p : Path) (w : Volume) :
    ⦃fun v => ⌜v = w ∧ w.Ordinary ∧ p ≠ Path.root ∧ (w.store.node? p).isSome ∧
      ¬ w.store.Populated p⌝⦄
    delete p
    ⦃post⟨fun _ v => ⌜v.Ordinary ∧ ∃ k, v.store = { (w.store.detach p).2 with calls := k }⌝,
      fun _ _ => ⌜False⌝⟩⦄ := by
  refine triple_guard fun ⟨ho, hne, hsome, hpop⟩ => ?_
  have hrm := removeFound_spec ho p
  rw [delete_eq]
  mvcgen [checkWritable_spec, resolve_bare, hrm, -resolve_spec]
  all_goals subst_vars
  case vc1 => exact hne (Path.isRoot_iff.1 ‹_›)
  case vc2 =>
    obtain ⟨rfl, -⟩ := ‹_ = _ ∧ _›
    exact ⟨trivial, ho⟩
  case vc3 =>
    obtain ⟨rfl, -⟩ := ‹_ = _ ∧ _›
    exact ‹Quiet _ _ ∧ _›
  case vc4 => exact fun _ hov hs => ⟨hov, hs⟩
  case vc5 => exact hpop
  case vc6 =>
    obtain ⟨rfl, -⟩ := ‹_ = _ ∧ _›
    intro _ _ hnone _
    simp [hnone] at hsome
  case vc7 =>
    rintro rfl hro -
    simp [ho.writable] at hro

/-- Moving into a folder is moving to the path of the source's name under it. -/
theorem relocate_into {src target f : Path} (se : Entry)
    (hf : src.fileName?.map target.join = some f) :
    relocate src se target true = relocate src se f false := by
  obtain ⟨n, hn, rfl⟩ := Option.map_eq_some_iff.1 hf
  unfold relocate
  simp only [hn, if_true, Bool.false_eq_true, if_false]

theorem Quiet.movedNodes_ok {w v : Volume} (hq : Quiet w v) {k : Calls} {src t : Path}
    {e : Entry} {s : Store} (h : { v.store with calls := k }.relocate src t = .ok (e, s)) :
    w.store.movedNodes src t = .ok s.nodes := by
  obtain ⟨k0, c0, rfl⟩ := hq
  have hm := Store.movedNodes_of_ok h
  simp only [Store.movedNodes_calls] at hm
  exact hm

theorem Quiet.movedNodes_error {w v : Volume} (hq : Quiet w v) {src t : Path} {err : Error}
    (h : v.store.relocate src t = .error err) : w.store.movedNodes src t = .error err.category := by
  obtain ⟨k0, c0, rfl⟩ := hq
  have hm := Store.movedNodes_of_error h
  simp only [Store.movedNodes_calls] at hm
  exact hm

theorem Quiet.movedNodes {w v : Volume} (hq : Quiet w v) (src t : Path) :
    v.store.movedNodes src t = w.store.movedNodes src t := by
  obtain ⟨k, c, rfl⟩ := hq
  exact Store.movedNodes_calls _ _ _ _

theorem Quiet.node? {w v : Volume} (hq : Quiet w v) (q : Path) :
    v.store.node? q = w.store.node? q := by
  simp only [Store.node?, hq.nodes]

/-- A fresh entry found by lookups is live in the volume they leave. -/
theorem live_quiet {w v : Volume} (hq : Quiet w v) {p : Path} {e : Entry}
    (he : w.store.entryAt p = some e) : ∃ n, v.store.live p e = .ok n :=
  (Store.live_of_entryAt ((hq.entryAt p).trans he)).imp fun _ h => h.2

theorem liveFolder_quiet {w v : Volume} (hq : Quiet w v) {p : Path} {e : Entry}
    (he : w.store.entryAt p = some e) (hf : e.isFolder = true) :
    ∃ cs, v.store.liveFolder p e = .ok cs :=
  (Store.folder_of_entryAt ((hq.entryAt p).trans he) hf).imp fun _ h => Store.liveFolder_eq_ok.2 h

theorem relocate_bare (src t : Path) (se : Entry) (w : Volume) :
    ⦃fun v => ⌜v = w ∧ w.Ordinary ∧ w.store.entryAt src = some se⌝⦄
    relocate src se t false
    ⦃post⟨fun _ v => ⌜w.store.Held t ∧ w.store.movedNodes src t = .ok v.store.nodes ∧ v.Ordinary⌝,
      fun err v => ⌜v.store.nodes = w.store.nodes ∧ (w.store.Unheld t err ∨
        w.store.Held t ∧ w.store.movedNodes src t = .error err.category) ∧ v.Ordinary⌝⟩⦄ := by
  refine triple_guard fun ⟨ho, hse⟩ => ?_
  unfold relocate modifyEntries modifyContent
  mvcgen [resolveParentFolder_bare, evictOnNotFound_spec, -resolveParentFolder_spec, -onStore_spec]
  all_goals subst_vars
  case vc8 => exact ⟨trivial, ho⟩
  case vc9 =>
    obtain ⟨hq, ho1, hpar, hd, hdf⟩ := ‹Quiet _ _ ∧ _›
    obtain ⟨s2, hrun, rfl⟩ := ‹∃ s, StateT.run _ _ = _ ∧ _›
    obtain ⟨-, -, k, hrel⟩ := ok_of_triple (Store.moveFolder_spec _ _ _ _ _) hrun
    exact ⟨Store.held_of_entryAt hpar hd hdf, hq.movedNodes_ok hrel,
      (ho1.relocatedFolder hrel).withContent _⟩
  case vc11 =>
    obtain ⟨hq, ho1, hpar, hd, hdf⟩ := ‹Quiet _ _ ∧ _›
    obtain ⟨s2, hrun, rfl⟩ := ‹∃ s, StateT.run _ _ = _ ∧ _›
    obtain ⟨-, -, k, hrel⟩ := ok_of_triple (Store.moveEntry_spec _ _ _ _ _) hrun
    have hfile := not_populated_of_file_entry hq hse (by simpa using ‹¬ se.isFolder = true›)
    exact ⟨Store.held_of_entryAt hpar hd hdf, hq.movedNodes_ok hrel,
      (ho1.relocatedFile hfile hrel).withContent _⟩
  case vc10 =>
    -- the store refused the move: the folder above the target is held, so the refusal is
    -- the one `movedNodes` names
    obtain ⟨hq, ho1, hpar, hd, hdf⟩ := ‹Quiet _ _ ∧ _›
    rintro ⟨s2, l, hrun, rfl⟩
    obtain ⟨⟨k, rfl⟩, -⟩ := error_of_triple (Store.moveFolder_spec _ _ _ _ _) hrun
    have hr := error_of_triple (Store.moveFolder_refused _ _ _ _ _) hrun
    obtain ⟨cs0, h0⟩ := liveFolder_quiet hq hse ‹se.isFolder = true›
    obtain ⟨cs, h1⟩ := liveFolder_quiet hq hd hdf
    rw [← Store.holder_of_parent? hpar] at h1
    exact ⟨hq.nodes, Or.inr ⟨Store.held_of_entryAt hpar hd hdf,
      hq.movedNodes_error (hr cs0 cs h0 h1)⟩, ho1.counted k l⟩
  case vc12 =>
    obtain ⟨hq, ho1, hpar, hd, hdf⟩ := ‹Quiet _ _ ∧ _›
    rintro ⟨s2, l, hrun, rfl⟩
    obtain ⟨⟨k, rfl⟩, -⟩ := error_of_triple (Store.moveEntry_spec _ _ _ _ _) hrun
    have hr := error_of_triple (Store.moveEntry_refused _ _ _ _ _) hrun
    obtain ⟨n, h0⟩ := live_quiet hq hse
    obtain ⟨cs, h1⟩ := liveFolder_quiet hq hd hdf
    rw [← Store.holder_of_parent? hpar] at h1
    exact ⟨hq.nodes, Or.inr ⟨Store.held_of_entryAt hpar hd hdf,
      hq.movedNodes_error (hr n cs h0 h1)⟩, ho1.counted k l⟩
  case vc13 => exact fun hq ho1 hu => ⟨hq.nodes, Or.inl hu, ho1⟩

theorem rename_bare (src t : Path) (w : Volume) :
    ⦃fun v => ⌜v = w ∧ w.Ordinary ∧ (w.store.node? src).isSome⌝⦄
    rename src t
    ⦃post⟨fun _ v => ⌜w.store.Held t ∧ w.store.movedNodes src t = .ok v.store.nodes ∧ v.Ordinary⌝,
      fun err v => ⌜v.store.nodes = w.store.nodes ∧ (w.store.Unheld t err ∨
        w.store.Held t ∧ w.store.movedNodes src t = .error err.category) ∧ v.Ordinary⌝⟩⦄ := by
  refine triple_guard fun ⟨ho, hsrc⟩ => ?_
  unfold rename modifyEntries modifyContent
  mvcgen [checkWritable_spec, resolve_bare, resolveParentFolder_bare, evictOnNotFound_spec,
    -resolve_spec, -resolveParentFolder_spec, -onStore_spec]
  all_goals subst_vars
  case vc1 =>
    obtain ⟨rfl, -⟩ := ‹_ = _ ∧ _›
    exact ⟨trivial, ho⟩
  case vc2 =>
    obtain ⟨rfl, -⟩ := ‹_ = _ ∧ _›
    exact ⟨trivial, ‹Quiet _ _ ∧ Volume.Ordinary _ ∧ _›.2.1⟩
  case vc3 | vc4 =>
    obtain ⟨rfl, -⟩ := ‹_ = _ ∧ _›
    obtain ⟨hq1, -, hse⟩ := ‹Quiet _ _ ∧ Volume.Ordinary _ ∧ Store.entryAt _ src = some _›
    obtain ⟨hq2, ho3, hpar, hd, hdf⟩ := ‹Quiet _ _ ∧ Volume.Ordinary _ ∧ Path.parent? t = some _ ∧ _›
    obtain ⟨s4, hrun4, rfl⟩ := ‹∃ s, StateT.run _ _ = _ ∧ _›
    obtain ⟨-, -, k, hrel⟩ := ok_of_triple (Store.rename_spec _ _ _ _ _) hrun4
    refine ⟨Store.held_of_entryAt hpar ((hq1.entryAt _).symm.trans hd) hdf,
      (hq1.trans hq2).movedNodes_ok hrel, ?_⟩
    first
    | exact (ho3.relocatedFolder hrel).withContent _
    | exact (ho3.relocatedFile (not_populated_of_file_entry (hq1.trans hq2) hse
        (by simpa using ‹¬ _ = true›)) hrel).withContent _
  case vc5 =>
    obtain ⟨rfl, -⟩ := ‹_ = _ ∧ _›
    obtain ⟨hq1, -, hse⟩ := ‹Quiet _ _ ∧ Volume.Ordinary _ ∧ Store.entryAt _ src = some _›
    obtain ⟨hq2, ho3, hpar, hd, hdf⟩ := ‹Quiet _ _ ∧ Volume.Ordinary _ ∧ Path.parent? t = some _ ∧ _›
    rintro ⟨s4, l, hrun4, rfl⟩
    have hq := hq1.trans hq2
    obtain ⟨⟨k, rfl⟩, -⟩ := error_of_triple (Store.rename_spec _ _ _ _ _) hrun4
    have hr := error_of_triple (Store.rename_refused _ _ _ _ _) hrun4
    obtain ⟨n, h0⟩ := live_quiet hq hse
    obtain ⟨cs, h1⟩ := liveFolder_quiet hq2 hd hdf
    rw [← Store.holder_of_parent? hpar] at h1
    exact ⟨hq.nodes, Or.inr ⟨Store.held_of_entryAt hpar ((hq1.entryAt _).symm.trans hd) hdf,
      hq.movedNodes_error (hr n cs h0 h1)⟩, ho3.counted k l⟩
  case vc6 =>
    obtain ⟨rfl, -⟩ := ‹_ = _ ∧ _›
    obtain ⟨hq1, -, -⟩ := ‹Quiet _ _ ∧ Volume.Ordinary _ ∧ Store.entryAt _ src = some _›
    intro hq2 ho3 hu
    exact ⟨(hq1.trans hq2).nodes, Or.inl (hu.of_nodes hq1.nodes.symm), ho3⟩
  case vc7 =>
    obtain ⟨rfl, -⟩ := ‹_ = _ ∧ _›
    intro _ _ hnone _
    simp [hnone] at hsrc
  case vc8 =>
    rintro rfl hro -
    simp [ho.writable] at hro

/-- Moving into a folder of an ordinary volume: as moving to the source's name under it. -/
theorem relocate_into_bare (src target : Path) (se : Entry) (w : Volume) :
    ⦃fun v => ⌜v = w ∧ w.Ordinary ∧ w.store.entryAt src = some se ∧ src ≠ Path.root⌝⦄
    relocate src se target true
    ⦃post⟨fun _ v => ⌜∃ n, src.fileName? = some n ∧ w.store.Held (target.join n) ∧
        w.store.movedNodes src (target.join n) = .ok v.store.nodes ∧ v.Ordinary⌝,
      fun err v => ⌜∃ n, src.fileName? = some n ∧ v.store.nodes = w.store.nodes ∧
        (w.store.Unheld (target.join n) err ∨
          w.store.Held (target.join n) ∧
            w.store.movedNodes src (target.join n) = .error err.category) ∧ v.Ordinary⌝⟩⦄ := by
  refine (triple_iff_run _ _ _ _).2 fun v hpre => ?_
  obtain ⟨rfl, ho, hse, hne⟩ := hpre
  obtain ⟨d, n, hs⟩ := Store.exists_split?_of_ne_root hne
  have hn : src.fileName? = some n := Path.fileName?_eq_some_iff.2 ⟨d.parts, Path.split?_eq_some_iff.1 hs⟩
  have h := (triple_iff_run _ _ _ _).1 (relocate_bare src (target.join n) se v) v ⟨rfl, ho, hse⟩
  rw [relocate_into se (by rw [hn]; rfl)]
  revert h
  rcases ((relocate src se (target.join n) false).run).run v with ⟨_ | _, _⟩
  · exact fun h => ⟨n, hn, h⟩
  · exact fun h => ⟨n, hn, h⟩

end Volume

end FrontCache
