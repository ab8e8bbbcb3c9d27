import FrontCache.Proofs.Volume.FailedChanges
/-!
# Every operation keeps a volume ordinary

An ordinary volume (`Volume.Ordinary`) has a store that is a tree only it changes, an entry
cache that agrees with that store, every name shown and changes allowed. Each operation of the
volume keeps it so, whether it succeeds or fails; a commit does when its path holds no folder
with children. Registering an entry is the one call that can break it, since it caches what the
caller hands in.

The lookups only count calls and cache what the store tells. Each change of the store is
followed by the cache update made for it: a folder made and cached (`createFolder_ordinary`), a
path with nothing below it taken out and forgotten (`remove_ordinary`), a file copied to a free
path and cached (`copy_lands_ordinary`), a subtree moved with its cached part carried along
(`relocate_bare`), a commit's file written and cached (`commitUpload_ordinary`). The operations
are put together from these (`delete_ordinary_ends`, `copy_ordinary_ends`,
`rename_ordinary_ends`, `move_ordinary_ends`, `commit_ordinary`, ...).
-/
namespace FrontCache

open Std.Do

set_option mvcgen.warning false

namespace Store

/-- A call that only counts: whatever it answers, the store it leaves is the one it was given
with other counts. -/
def Counts {α : Type} (x : StoreM α) : Prop :=
  ∀ s0, ∃ k, ((x.run).run s0).2 = { s0 with calls := k }

theorem counts_of_spec {α : Type} {x : StoreM α} {Q : Store → α → Store → Prop}
    {E : Store → Error → Store → Prop}
    (hx : ∀ s0, ⦃fun s => ⌜s = s0⌝⦄ x ⦃post⟨fun a s => ⌜Q s0 a s⌝, fun e s => ⌜E s0 e s⌝⟩⦄)
    (hq : ∀ s0 a s, Q s0 a s → ∃ k, s = { s0 with calls := k })
    (he : ∀ s0 e s, E s0 e s → ∃ k, s = { s0 with calls := k }) : Counts x := by
  intro s0
  have hrun := (triple_iff_run x _ _ _).1 (hx s0) s0 rfl
  revert hrun
  rcases (x.run).run s0 with ⟨_ | a, s⟩
  · exact he s0 _ s
  · exact hq s0 a s

/-- What a lookup found is the store's entry; when it found nothing the path is free. -/
theorem node?_eq_none_of_entryAt {s : Store} {p : Path} {r : Option Entry} (h : r = s.entryAt p)
    (hr : ¬ r.isSome = true) : s.node? p = none := by
  subst h
  simpa [entryAt] using hr

end Store

namespace Volume

/-- A run from an ordinary volume that ends in an ordinary one on both sides keeps it. -/
theorem keeps_of_bare {α : Type} {x : VolM α} {Q : Volume → α → Volume → Prop}
    {E : Volume → Error → Volume → Prop}
    (h : ∀ w, ⦃fun v => ⌜v = w ∧ w.Ordinary⌝⦄ x ⦃post⟨fun a v => ⌜Q w a v⌝, fun e v => ⌜E w e v⌝⟩⦄)
    (hq : ∀ w a v, w.Ordinary → Q w a v → v.Ordinary)
    (he : ∀ w e v, w.Ordinary → E w e v → v.Ordinary) : Keeps Ordinary x := by
  refine (triple_iff_run _ _ _ _).2 fun w hw => ?_
  have hx := (triple_iff_run _ _ _ _).1 (h w) w ⟨rfl, hw⟩
  revert hx
  rcases (x.run).run w with ⟨_ | a, v⟩
  · exact he w _ v hw
  · exact hq w a v hw

/-! ### The primitives -/

/-- A call of the store that only counts, behind an eviction, keeps a volume ordinary. -/
theorem counted_ordinary {α : Type} {x : StoreM α} (hx : Store.Counts x) (paths : List Path) :
    Keeps Ordinary (evictOnNotFound paths (onStore x)) := by
  refine keeps_of_bare (fun w => triple_guard fun _ => evictOnNotFound_spec paths x w) ?_ ?_
  · rintro w a v ho ⟨s, hrun, rfl⟩
    obtain ⟨k, hk⟩ := hx w.store
    rw [hrun] at hk
    rw [show s = _ from hk]
    exact ho.counted k []
  · rintro w e v ho ⟨s, l, hrun, rfl⟩
    obtain ⟨k, hk⟩ := hx w.store
    rw [hrun] at hk
    rw [show s = _ from hk]
    exact ho.counted k l

theorem modifyContent_ordinary (f : ContentCache → ContentCache) :
    Keeps Ordinary (modifyContent f) := by
  unfold modifyContent
  mvcgen
  exact Ordinary.withContent ‹_› _

theorem evict_ordinary (p : Path) : Keeps Ordinary (modifyEntries fun c => (c.evict p).2) := by
  unfold modifyEntries
  mvcgen
  rename_i v ho _
  exact ho.withEntries (ho.coherent.agrees.evict p)

/-! ### Lookups -/

/-- Resolving in an ordinary volume keeps it ordinary, and what it answers is the store's. -/
theorem resolve_ordinary (p : Path) :
    ⦃fun v => ⌜v.Ordinary⌝⦄ resolve p
    ⦃post⟨fun e v => ⌜v.Ordinary ∧ v.store.entryAt p = some e⌝, fun _ v => ⌜v.Ordinary⌝⟩⦄ := by
  refine (triple_iff_run _ _ _ _).2 fun w hw => ?_
  have hx := (triple_iff_run _ _ _ _).1 (resolve_bare p w) w ⟨rfl, hw⟩
  revert hx
  rcases ((resolve p).run).run w with ⟨_ | e, v⟩
  · exact fun h => h.2.1
  · exact fun h => ⟨h.2.1, (h.1.entryAt p).trans h.2.2⟩

theorem resolve_keeps_ordinary (p : Path) : Keeps Ordinary (resolve p) :=
  keeps_of_bare (fun w => resolve_bare p w) (fun _ _ _ _ h => h.2.1) fun _ _ _ _ h => h.2.1

theorem list_keeps_ordinary (d : Path) (b : Bool) : Keeps Ordinary (list d b) :=
  keeps_of_bare (fun w => triple_guard fun _ => list_spec d b w)
    (fun _ _ _ ho h => ho.quiet h.1 (h.2 ho.coherent).1) fun _ _ _ ho h => ho.quiet h.1 (h.2 ho.coherent)

/-- Looking up where absence is an answer keeps an ordinary volume, and answers the store. -/
theorem resolveExisting_ordinary (p : Path) :
    ⦃fun v => ⌜v.Ordinary⌝⦄ resolveExisting p
    ⦃post⟨fun r v => ⌜v.Ordinary ∧ r = v.store.entryAt p⌝, fun _ v => ⌜v.Ordinary⌝⟩⦄ := by
  refine (triple_iff_run _ _ _ _).2 fun w hw => ?_
  have hx := (triple_iff_run _ _ _ _).1 (resolveExisting_bare p w) w ⟨rfl, hw⟩
  revert hx
  rcases ((resolveExisting p).run).run w with ⟨_ | r, v⟩
  · exact False.elim
  · exact fun h => ⟨h.2.1, h.2.2.trans (h.1.entryAt p).symm⟩

/-- The folder above a path, looked up in an ordinary volume, which stays ordinary. -/
theorem resolveParentFolder_ordinary (p : Path) :
    ⦃fun v => ⌜v.Ordinary⌝⦄ resolveParentFolder p
    ⦃post⟨fun r v => ⌜v.Ordinary ∧ p.parent? = some r.1⌝, fun _ v => ⌜v.Ordinary⌝⟩⦄ := by
  refine (triple_iff_run _ _ _ _).2 fun w hw => ?_
  have hx := (triple_iff_run _ _ _ _).1 (resolveParentFolder_bare p w) w ⟨rfl, hw⟩
  revert hx
  rcases ((resolveParentFolder p).run).run w with ⟨_ | r, v⟩
  · exact fun h => h.2.1
  · exact fun h => ⟨h.2.1, h.2.2.1⟩

theorem checkWritable_keeps_ordinary (p : Path) : Keeps Ordinary (checkWritable p) :=
  checkWritable_keeps p

theorem exists?_ordinary (p : Path) : Keeps Ordinary (exists? p) :=
  exists?_keeps resolve_keeps_ordinary p

theorem refresh_ordinary (p : Path) : Keeps Ordinary (refresh p) := by
  have hr := resolve_keeps_ordinary p
  have he := evict_ordinary p
  unfold refresh
  mvcgen [hr, he, -resolve_spec]

theorem metadata_ordinary (p : Path) : Keeps Ordinary (metadata p) :=
  metadata_keeps resolve_keeps_ordinary p

theorem checkAccess_ordinary (p : Path) (modes : List Access) : Keeps Ordinary (checkAccess p modes) :=
  checkAccess_keeps resolve_keeps_ordinary p modes

theorem listFiltered_ordinary (d : Path) (keep : Path → Bool) : Keeps Ordinary (listFiltered d keep) :=
  listFiltered_keeps list_keeps_ordinary d keep

theorem download_counts (e : Entry) (p : Path) : Store.Counts (Store.download e p) :=
  Store.counts_of_spec (Store.download_spec e p) (fun _ _ _ h => h.1) fun _ _ _ h => h

theorem openRead_ordinary (p : Path) : Keeps Ordinary (openRead p) := by
  have hr := resolve_keeps_ordinary p
  have hd := fun e => counted_ordinary (download_counts e p) [p]
  have hc := modifyContent_ordinary
  unfold openRead
  mvcgen [hr, hd, hc, -resolve_spec, -onStore_spec]

/-- A call of the store that only counts keeps a volume ordinary. -/
theorem onStore_counted {α : Type} {x : StoreM α} (hx : Store.Counts x) :
    Keeps Ordinary (onStore x) := by
  have hend : ∀ w : Volume, w.Ordinary → ∀ r s, (x.run).run w.store = (r, s) →
      Ordinary { w with store := s } := by
    intro w ho r s hrun
    obtain ⟨k, hk⟩ := hx w.store
    rw [hrun] at hk
    rw [show s = _ from hk]
    exact ho.counted k []
  refine keeps_of_bare (fun w => triple_guard fun _ => onStore_spec x w) ?_ ?_
  · rintro w a v ho ⟨s, hrun, rfl⟩
    exact hend w ho _ s hrun
  · rintro w e v ho ⟨s, hrun, rfl⟩
    exact hend w ho _ s hrun

theorem storeRoot_ordinary : Keeps Ordinary (onStore Store.rootEntry) :=
  onStore_counted (Store.counts_of_spec Store.rootEntry_spec (fun _ _ _ h => h.1) fun _ _ _ h => h.1)

/-- A fresh volume whose options show every name and allow changes is ordinary. -/
theorem create_ordinary_of {o : Options} (hs : o.ignoreSidecars = false) (hw : o.readOnly = false) :
    (Volume.create o).Ordinary := by
  refine ⟨⟨Store.Tree.empty, ⟨fun _ => rfl, rfl, rfl, rfl⟩, ⟨?_, ?_⟩, shownParents_of_bare hs _⟩,
    hs, hw⟩
  · intro q e h
    cases h
  · intro d l h
    cases h

/-! ### The changes of the store, each with its cache update -/

/-- A folder the store made, cached. -/
theorem createFolder_ordinary (paths : List Path) (parent : Entry) (p : Path) :
    ⦃fun v => ⌜v.Ordinary⌝⦄ evictOnNotFound paths (onStore (Store.createFolder parent p))
    ⦃post⟨fun e v => ⌜Ordinary { v with entries := v.entries.add p e }⌝,
      fun _ v => ⌜v.Ordinary⌝⟩⦄ := by
  refine (triple_iff_run _ _ _ _).2 fun w ho => ?_
  have hx := (triple_iff_run _ _ _ _).1
    (evictOnNotFound_spec paths (Store.createFolder parent p) w) w rfl
  revert hx
  rcases ((evictOnNotFound paths (onStore (Store.createFolder parent p))).run).run w with
    ⟨_ | e, v⟩
  · rintro ⟨s, l, hrun, rfl⟩
    obtain ⟨k, rfl⟩ := error_of_triple (Store.createFolder_spec parent p w.store) hrun
    exact ho.counted k l
  · rintro ⟨s, hrun, rfl⟩
    obtain ⟨-, k, hins⟩ := ok_of_triple (Store.createFolder_spec parent p w.store) hrun
    have ht : ({ w.store with calls := k } : Store).Tree := ho.coherent.tree.of_nodes rfl
    have ha : w.entries.Agrees { w.store with calls := k } := ho.coherent.agrees.of_nodes rfl
    refine ho.rebuild (ht.insert hins ?_) ((ho.coherent.plain.counted k).insert hins) (ha.insert hins)
    rintro cs hcs x hx
    cases hcs
    cases hx

/-- A path with nothing below it that the store took out, forgotten. -/
theorem remove_ordinary (paths : List Path) (e : Entry) (p : Path) :
    ⦃fun v => ⌜v.Ordinary⌝⦄ evictOnNotFound paths (onStore (Store.remove e p))
    ⦃post⟨fun _ v => ⌜Ordinary { v with entries := v.entries.remove p } ∧ v.store.node? p = none⌝,
      fun _ v => ⌜v.Ordinary⌝⟩⦄ := by
  refine (triple_iff_run _ _ _ _).2 fun w ho => ?_
  have hx := (triple_iff_run _ _ _ _).1 (evictOnNotFound_spec paths (Store.remove e p) w) w rfl
  revert hx
  rcases ((evictOnNotFound paths (onStore (Store.remove e p))).run).run w with ⟨_ | _, v⟩
  · rintro ⟨s, l, hrun, rfl⟩
    obtain ⟨k, rfl⟩ := error_of_triple (Store.remove_spec e p w.store) hrun
    exact ho.counted k l
  · rintro ⟨s, hrun, rfl⟩
    obtain ⟨⟨-, -, hp⟩, k, rfl⟩ := ok_of_triple (Store.remove_spec e p w.store) hrun
    rw [Store.detach_calls]
    refine ⟨ho.rebuild ((ho.coherent.tree.detach p).of_nodes rfl) (ho.coherent.plain.detach p k)
      ((ho.coherent.agrees.detach ho.coherent.tree hp).of_nodes rfl), ?_⟩
    show (w.store.detach p).2.node? p = none
    rw [Store.node?_detach, if_pos (Store.within_refl p)]

/-- A file the store copied to a free path below a folder, cached. -/
theorem copy_lands_ordinary (paths : List Path) (se parent : Entry) (src target : Path)
    (replace : Bool) (d : Path) :
    ⦃fun v => ⌜v.Ordinary ∧ v.store.node? target = none ∧ target.parent? = some d⌝⦄
    evictOnNotFound paths (onStore (Store.copy se parent src target replace))
    ⦃post⟨fun r v => ⌜∃ e, r = some e ∧ Ordinary { v with entries := v.entries.add target e }⌝,
      fun _ v => ⌜v.Ordinary⌝⟩⦄ := by
  refine (triple_iff_run _ _ _ _).2 fun w ⟨ho, hfree, hpar⟩ => ?_
  have hx := (triple_iff_run _ _ _ _).1
    (evictOnNotFound_spec paths (Store.copy se parent src target replace) w) w rfl
  have hc : w.store.nodes.contains target = false := by simpa [Table.contains, Store.node?] using hfree
  revert hx
  rcases ((evictOnNotFound paths (onStore (Store.copy se parent src target replace))).run).run w
    with ⟨_ | r, v⟩
  · rintro ⟨s, l, hrun, rfl⟩
    rcases error_of_triple (Store.copy_spec se parent src target replace w.store) hrun with
      ⟨⟨k, rfl⟩, -⟩ | ⟨hs, -⟩
    · exact ho.counted k l
    · rw [eq_root_of_split? hs] at hpar
      cases hpar
  · rintro ⟨s, hrun, rfl⟩
    obtain ⟨n, data, -, -, -, k, e, s2, hins, hasync⟩ :=
      ok_of_triple (Store.copy_spec se parent src target replace w.store) hrun
    rw [hc, Bool.and_false, if_neg Bool.false_ne_true] at hins
    rw [ho.coherent.plain.sync, if_neg Bool.false_ne_true] at hasync
    obtain ⟨rfl, rfl⟩ := hasync
    have ht : ({ w.store with calls := k } : Store).Tree := ho.coherent.tree.of_nodes rfl
    have ha : w.entries.Agrees { w.store with calls := k } := ho.coherent.agrees.of_nodes rfl
    exact ⟨e, rfl, ho.rebuild (ht.insert hins fun _ h => by cases h)
      ((ho.coherent.plain.counted k).insert hins) (ha.insert hins)⟩

/-! ### The operations -/

theorem resolveExisting_keeps_ordinary (p : Path) : Keeps Ordinary (resolveExisting p) :=
  keeps_of_bare (fun w => resolveExisting_bare p w) (fun _ _ _ _ h => h.2.1) fun _ _ _ _ h => h.elim

theorem resolveParentFolder_keeps_ordinary (p : Path) : Keeps Ordinary (resolveParentFolder p) :=
  keeps_of_bare (fun w => resolveParentFolder_bare p w) (fun _ _ _ _ h => h.2.1)
    fun _ _ _ _ h => h.2.1

/-- The folder above a free path, looked up in an ordinary volume: the path stays free. -/
theorem resolveParentFolder_free (p : Path) :
    ⦃fun v => ⌜v.Ordinary ∧ v.store.node? p = none⌝⦄ resolveParentFolder p
    ⦃post⟨fun r v => ⌜v.Ordinary ∧ v.store.node? p = none ∧ p.parent? = some r.1⌝,
      fun _ v => ⌜v.Ordinary⌝⟩⦄ := by
  refine (triple_iff_run _ _ _ _).2 fun w ⟨ho, hfree⟩ => ?_
  have hx := (triple_iff_run _ _ _ _).1 (resolveParentFolder_bare p w) w ⟨rfl, ho⟩
  revert hx
  rcases ((resolveParentFolder p).run).run w with ⟨_ | r, v⟩
  · exact fun h => h.2.1
  · exact fun h => ⟨h.2.1, (h.1.node? p).trans hfree, h.2.2.1⟩

theorem hasChildren_counts (e : Entry) (p : Path) : Store.Counts (Store.hasChildren e p) :=
  Store.counts_of_spec (Store.hasChildren_spec e p) (fun _ _ _ h => h.1) fun _ _ _ h => h

theorem upload_counts (parent : Entry) (p : Path) (replace append : Bool) :
    Store.Counts (Store.upload parent p replace append) :=
  Store.counts_of_spec (Store.upload_spec parent p replace append) (fun _ _ _ h => h.1)
    fun _ _ _ h => h

/-- A delete keeps a volume ordinary, and once it succeeds the path is gone from the store. -/
theorem delete_ordinary_ends (p : Path) :
    ⦃fun v => ⌜v.Ordinary⌝⦄ delete p
    ⦃post⟨fun _ v => ⌜v.Ordinary ∧ v.store.node? p = none⌝, fun _ v => ⌜v.Ordinary⌝⟩⦄ := by
  have hw := checkWritable_keeps_ordinary p
  have hr := resolve_keeps_ordinary p
  have hh := fun e => counted_ordinary (hasChildren_counts e p) [p]
  have hrm := fun e => remove_ordinary [p] e p
  unfold delete modifyEntries modifyContent
  mvcgen [hw, hr, hh, hrm, -checkWritable_spec, -resolve_spec, -onStore_spec]
  all_goals
    obtain ⟨ho, hfree⟩ := ‹_ ∧ _›
    exact ⟨ho.withContent _, hfree⟩

theorem delete_keeps_ordinary (p : Path) : Keeps Ordinary (delete p) := by
  have hd := delete_ordinary_ends p
  mvcgen [hd]
  exact fun ho _ => ho

theorem createDir_ordinary (p : Path) : Keeps Ordinary (createDir p) := by
  have hw := checkWritable_keeps_ordinary p
  have hx := resolveExisting_keeps_ordinary p
  have hpf := resolveParentFolder_keeps_ordinary p
  have hcf := fun d parent => createFolder_ordinary [d] parent p
  unfold createDir modifyEntries
  mvcgen [hw, hx, hpf, hcf, -checkWritable_spec, -resolveExisting_spec, -resolveParentFolder_spec,
    -onStore_spec]

theorem copy_ordinary_ends (src target : Path) (replace : Bool) :
    Keeps Ordinary (copy src target replace) := by
  have hw := checkWritable_keeps_ordinary target
  have hr := resolve_keeps_ordinary src
  have hx := resolveExisting_ordinary target
  have hd := delete_ordinary_ends target
  have hpf := resolveParentFolder_free target
  have hcp := fun se d parent => copy_lands_ordinary [src, d] se parent src target replace d
  have hc := modifyContent_ordinary
  unfold copy modifyEntries
  mvcgen [hw, hr, hx, hd, hpf, hcp, hc, -checkWritable_spec, -resolve_spec, -resolveExisting_spec,
    -resolveParentFolder_spec, -onStore_spec]
  all_goals
    first
    | exact ‹_ ∧ _›.1
    | exact ⟨‹_ ∧ _›.1, Store.node?_eq_none_of_entryAt ‹_ ∧ _›.2 ‹_›⟩
    | obtain ⟨e, he, ho⟩ := ‹∃ _, _ ∧ _›
      cases he
      try exact ho

/-- Resolving a path the store does not hold fails, and keeps the volume ordinary. -/
theorem resolve_absent (src : Path) :
    ⦃fun v => ⌜v.Ordinary ∧ v.store.node? src = none⌝⦄ resolve src
    ⦃post⟨fun _ _ => ⌜False⌝, fun _ v => ⌜v.Ordinary⌝⟩⦄ := by
  refine (triple_iff_run _ _ _ _).2 fun w ⟨ho, hnone⟩ => ?_
  have hx := (triple_iff_run _ _ _ _).1 (resolve_bare src w) w ⟨rfl, ho⟩
  revert hx
  rcases ((resolve src).run).run w with ⟨_ | e, v⟩
  · exact fun h => h.2.1
  · intro h
    have := h.2.2
    simp [Store.entryAt, hnone] at this

theorem rename_absent (src t : Path) :
    ⦃fun v => ⌜v.Ordinary ∧ v.store.node? src = none⌝⦄ rename src t
    ⦃post⟨fun _ _ => ⌜False⌝, fun _ v => ⌜v.Ordinary⌝⟩⦄ := by
  have hw := @checkWritable_keeps (fun v => v.Ordinary ∧ v.store.node? src = none) src
  have hr := resolve_absent src
  unfold rename
  mvcgen [hw, hr, -checkWritable_spec, -resolve_spec]
  exact fun ho _ => ho

/-- A rename keeps a volume ordinary: from a present source as the store's move says, and from
an absent one by failing at its lookup. -/
theorem rename_ordinary_ends (src t : Path) : Keeps Ordinary (rename src t) := by
  refine (triple_iff_run _ _ _ _).2 fun w ho => ?_
  by_cases hs : (w.store.node? src).isSome
  · have hx := (triple_iff_run _ _ _ _).1 (rename_bare src t w) w ⟨rfl, ho, hs⟩
    revert hx
    rcases ((rename src t).run).run w with ⟨_ | _, v⟩
    · exact fun h => h.2.2
    · exact fun h => h.2.2
  · have hx := (triple_iff_run _ _ _ _).1 (rename_absent src t) w ⟨ho, by simpa using hs⟩
    revert hx
    rcases ((rename src t).run).run w with ⟨_ | _, v⟩
    · exact id
    · exact False.elim

theorem move_ordinary_ends (src target : Path) (replace : Bool) :
    Keeps Ordinary (move src target replace) :=
  keeps_of_bare (fun w => move_spec src target replace w) (fun _ _ _ _ h => h.2)
    fun _ _ _ _ h => h.2.2

theorem openWrite_ordinary (p : Path) (replace append : Bool) :
    Keeps Ordinary (openWrite p replace append) := by
  have hw := checkWritable_keeps_ordinary p
  have hx := resolveExisting_keeps_ordinary p
  have hpf := resolveParentFolder_keeps_ordinary p
  have hup := fun d parent => counted_ordinary (upload_counts parent p replace append) [d]
  unfold openWrite
  mvcgen [hw, hx, hpf, hup, -checkWritable_spec, -resolveExisting_spec, -resolveParentFolder_spec,
    -onStore_spec]
  all_goals exact Ordinary.withUploads ‹_› _

theorem close_ordinary (h : Handle) : Keeps Ordinary (close h) := by
  unfold close
  mvcgen
  exact Ordinary.withUploads ‹_› _

/-- A commit to a path with no folder with children there writes the file over what stands there
or makes it, and caches it. -/
theorem commitUpload_ordinary (p : Path) (bytes : List UInt8) :
    ⦃fun v => ⌜v.Ordinary ∧ ¬ v.store.Populated p⌝⦄ onStore (Store.commitUpload p bytes)
    ⦃post⟨fun r v => ⌜∃ e, r = some e ∧ Ordinary { v with entries := v.entries.add p e }⌝,
      fun _ v => ⌜v.Ordinary⌝⟩⦄ := by
  refine (triple_iff_run _ _ _ _).2 fun w ⟨ho, hp⟩ => ?_
  have hx := (triple_iff_run _ _ _ _).1 (onStore_spec (Store.commitUpload p bytes) w) w rfl
  revert hx
  rcases ((onStore (Store.commitUpload p bytes)).run).run w with ⟨_ | r, v⟩
  · rintro ⟨s, hrun, rfl⟩
    obtain rfl := error_of_triple (Store.commitUpload_spec p bytes w.store) hrun
    exact ho.withEntries ho.coherent.agrees
  · rintro ⟨s, hrun, rfl⟩
    rcases ok_of_triple (Store.commitUpload_spec p bytes w.store) hrun with
      ⟨n, hn, rfl, rfl⟩ | ⟨-, e, hins, rfl⟩
    · exact ⟨_, rfl, ho.rebuild (ho.coherent.tree.overwrite hn hp bytes)
        (ho.coherent.plain.overwrite p n _) (ho.coherent.agrees.overwrite p n _)⟩
    · exact ⟨e, rfl, ho.rebuild (ho.coherent.tree.insert hins fun _ h => by cases h)
        (ho.coherent.plain.insert hins) (ho.coherent.agrees.insert hins)⟩

/-- A commit keeps a volume ordinary when its path holds no folder with children. -/
theorem commit_ordinary (h : Handle) :
    ⦃fun v => ⌜v.Ordinary ∧ ¬ v.store.Populated h.path⌝⦄ commit h
    ⦃post⟨fun _ v => ⌜v.Ordinary⌝, fun _ v => ⌜v.Ordinary⌝⟩⦄ := by
  have hst := commitUpload_ordinary h.path h.buffer
  unfold commit close modifyContent modifyEntries
  mvcgen [hst, -onStore_spec]
  all_goals
    dsimp +zetaDelta only
    first
    | exact Ordinary.withUploads ‹_› _
    | obtain ⟨e, rfl, ho⟩ := ‹∃ _, _ ∧ _›
      first
      | cases ‹some _ = some _›
        exact (ho.withContent _).withUploads _
      | cases ‹some _ = _›
        have hne := ‹∀ _ : Entry, some _ = some _ → False›
        exact (hne e rfl).elim

/-- Finished copies leave the store's list of pending copies; a store that copies at once has
none to cache. -/
theorem completeCopies_ordinary : Keeps Ordinary completeCopies := by
  unfold completeCopies modifyEntries
  mvcgen invariants
  · post⟨fun _ _ => ⌜False⌝, fun _ _ => ⌜False⌝⟩
  all_goals
    have ho : Ordinary _ := ‹_›
    first
    | exact ho.rebuild (ho.coherent.tree.of_nodes rfl)
        ⟨ho.coherent.plain.reported, ho.coherent.plain.misses, ho.coherent.plain.whole,
          ho.coherent.plain.sync⟩ (ho.coherent.agrees.of_nodes rfl)
    | exact absurd ho.coherent.plain.sync (by simp [‹_ = true›])

end Volume

end FrontCache
