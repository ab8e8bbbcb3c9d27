import FrontCache.Proofs.Mount.Shape
import FrontCache.Proofs.Mount.Uploads
import FrontCache.Proofs.Volume.StaysOrdinary
/-!
# The root stays a folder

Three calls of the store can take the root out: removing it while it has no children, copying
onto it when replacing, and committing an upload there. The volume never makes them. A delete
refuses the root before it asks the store; a copy and an open first look up the folder above
their path, which the root does not have, so no upload is ever at the root and no commit lands
there (`Mount.RootSafe`). Moves never take the root: it has no free path outside itself to go
to. Every other call only counts, inserts at a free path or takes out a path below the root.

Main statement: from a fresh mount, every run whose commits never land on a folder with
children and whose outside changes are hooks that spare the root leaves the store well formed,
with the root present and a folder (`wellFormed_along_shapeSafe_runs`).
-/
namespace FrontCache

open Std.Do

set_option mvcgen.warning false

namespace Store

/-- The root is present and is a folder. -/
def Rooted (s : Store) : Prop := ∃ i, s.HasFolder Path.root i

/-- Well formed, with the root present and a folder. -/
structure WellRooted (s : Store) : Prop where
  wellFormed : s.WellFormed
  rooted : s.Rooted

theorem within_root_iff {p : Path} : within Path.root p = true ↔ p = Path.root := by
  rw [within_iff]
  constructor
  · intro h
    exact Path.ext_parts (List.prefix_nil.1 h)
  · rintro rfl
    exact List.prefix_refl _

theorem ne_root_of_parent? {p d : Path} (h : p.parent? = some d) : p ≠ Path.root := by
  rintro rfl
  cases h

variable {s s' : Store}

namespace Rooted

theorem of_nodes (h : s.Rooted) (hn : s'.nodes = s.nodes) : s'.Rooted := by
  obtain ⟨i, cs, hcs⟩ := h
  exact ⟨i, cs, by simpa [node?, hn] using hcs⟩

theorem insert (h : s.Rooted) {p : Path} {b : Body} {e : Entry}
    (hi : s.insert p b = .ok (e, s')) : s'.Rooted := by
  obtain ⟨i, hr⟩ := h
  exact ⟨i, hasFolder_insert hr hi⟩

theorem detach (h : s.Rooted) {p : Path} (hp : p ≠ Path.root) : (s.detach p).2.Rooted := by
  obtain ⟨i, hr⟩ := h
  exact ⟨i, hasFolder_detach hr fun hw => hp (within_root_iff.1 hw)⟩

theorem overwrite (h : s.Rooted) {p : Path} (hp : p ≠ Path.root) (n : Node) (b : Body) :
    (s.overwrite p n b).2.Rooted := by
  obtain ⟨i, hr⟩ := h
  exact ⟨i, hasFolder_put hr rfl (Or.inl hp.symm)⟩

/-- A move never takes the root along: every path other than the root lies below it, and the
root itself is taken. -/
theorem relocate (h : s.Rooted) (ht : s.Tree) {src dst : Path} {e : Entry}
    (hr : s.relocate src dst = .ok (e, s')) : s'.Rooted := by
  obtain ⟨i, hi⟩ := h
  refine ⟨i, ht.hasFolder_relocate_stays hr hi fun hw => ?_⟩
  obtain ⟨hfree, hbelow, -⟩ := relocate_eq_ok hr
  rw [within_root_iff.1 hw] at hbelow
  by_cases hd : dst = Path.root
  · obtain ⟨cs, hcs⟩ := hi
    rw [hd, hcs] at hfree
    cases hfree
  · rw [Path.isBelow_root hd] at hbelow
    cases hbelow

end Rooted

namespace WellRooted

theorem of_counted (h : s.WellRooted) (hk : ∃ k, s' = { s with calls := k }) : s'.WellRooted := by
  obtain ⟨k, rfl⟩ := hk
  exact ⟨h.wellFormed.withCalls k, h.rooted.of_nodes rfl⟩

theorem relocate_counted (h : s.WellRooted) {src dst : Path} {e : Entry}
    (hr : ∃ k, { s with calls := k }.relocate src dst = .ok (e, s')) : s'.WellRooted := by
  obtain ⟨k, hk⟩ := hr
  have h0 : ({ s with calls := k } : Store).WellRooted := h.of_counted ⟨k, rfl⟩
  exact ⟨h.wellFormed.relocate_counted ⟨k, hk⟩, h0.rooted.relocate h0.wellFormed.tree hk⟩

end WellRooted

theorem Counts.wellRooted {α : Type} {x : StoreM α} (hx : Counts x) : Kept WellRooted x :=
  fun s h => h.of_counted (hx s)

theorem createFolder_wellRooted (parent : Entry) (p : Path) :
    Kept WellRooted (createFolder parent p) := by
  refine moves_of_spec (createFolder_spec parent p) ?_ fun _ _ _ h hk => h.of_counted hk
  intro s0 _ s h hs
  obtain ⟨k, hins⟩ := hs.2
  have h0 : ({ s0 with calls := k } : Store).WellRooted := h.of_counted ⟨k, rfl⟩
  exact ⟨h0.wellFormed.insert hins fun cs hb => by cases hb; rfl, h0.rooted.insert hins⟩

theorem remove_wellRooted (e : Entry) {p : Path} (hp : p ≠ Path.root) :
    Kept WellRooted (remove e p) := by
  refine moves_of_spec (remove_spec e p) ?_ fun _ _ _ h hk => h.of_counted hk
  intro s0 _ s h hs
  obtain ⟨k, rfl⟩ := hs.2
  have h0 : ({ s0 with calls := k } : Store).WellRooted := h.of_counted ⟨k, rfl⟩
  exact ⟨h0.wellFormed.detach p, h0.rooted.detach hp⟩

/-- A copy to a path with a folder above it keeps the root: what it replaces and what it
inserts lie below the root. -/
theorem copy_wellRooted (se parent : Entry) (src target : Path) (replace : Bool) (d : Path) :
    Kept (fun s => s.WellRooted ∧ target.parent? = some d) (copy se parent src target replace) := by
  rintro s ⟨h, hd⟩
  have hroot : target ≠ Path.root := ne_root_of_parent? hd
  refine ⟨moves_of_spec (copy_spec se parent src target replace) ?_ ?_ s h, hd⟩
  · intro s0 _ s h hs
    obtain ⟨n, data, -, -, -, k, e, s2, hins, hs⟩ := hs
    have h0 : ({ s0 with calls := k } : Store).WellRooted := h.of_counted ⟨k, rfl⟩
    have h2 : s2.WellRooted := by
      split at hins
      · exact ⟨(h0.wellFormed.detach target).insert hins (fun _ hb => by cases hb),
          (h0.rooted.detach hroot).insert hins⟩
      · exact ⟨h0.wellFormed.insert hins (fun _ hb => by cases hb), h0.rooted.insert hins⟩
    split at hs
    · rw [hs.1]
      exact ⟨h2.wellFormed.of_nodes rfl rfl, h2.rooted.of_nodes rfl⟩
    · rw [hs.1]
      exact h2
  · intro s0 _ s h hs
    rcases hs with ⟨hk, -⟩ | ⟨hsplit, -⟩
    · exact h.of_counted hk
    · obtain ⟨d', name, hs'⟩ := exists_split?_of_ne_root hroot
      rw [hs'] at hsplit
      cases hsplit

theorem rename_wellRooted (se parent : Entry) (src target : Path) :
    Kept WellRooted (rename se parent src target) :=
  moves_of_spec (rename_spec se parent src target) (fun _ _ _ h hs => h.relocate_counted hs.2.2)
    fun _ _ _ h hs => h.of_counted hs.1

theorem moveEntry_wellRooted (se parent : Entry) (src target : Path) :
    Kept WellRooted (moveEntry se parent src target) :=
  moves_of_spec (moveEntry_spec se parent src target)
    (fun _ _ _ h hs => h.relocate_counted hs.2.2) fun _ _ _ h hs => h.of_counted hs.1

theorem moveFolder_wellRooted (se parent : Entry) (src target : Path) :
    Kept WellRooted (moveFolder se parent src target) :=
  moves_of_spec (moveFolder_spec se parent src target)
    (fun _ _ _ h hs => h.relocate_counted hs.2.2) fun _ _ _ h hs => h.of_counted hs.1

theorem commitUpload_wellRooted (p : Path) (bytes : List UInt8) :
    ∀ s, (s.WellRooted ∧ ¬ s.Populated p ∧ p ≠ Path.root) →
      ((commitUpload p bytes).run.run s).2.WellRooted := by
  refine moves_of_spec (commitUpload_spec p bytes) ?_ ?_
  · rintro s0 _ s ⟨h, hp, hroot⟩ (⟨n, hn, rfl, -⟩ | ⟨-, e, hins, -⟩)
    · exact ⟨h.wellFormed.overwrite hn hp bytes, h.rooted.overwrite hroot n _⟩
    · exact ⟨h.wellFormed.insert hins (fun _ hb => by cases hb), h.rooted.insert hins⟩
  · rintro s0 _ s ⟨h, -⟩ rfl
    exact h

end Store

namespace Volume

/-- The lookups, listings and reads, and every cache update, keep the store well rooted. -/
theorem wellRooted_lookSteps : LookSteps fun v => v.store.WellRooted where
  storeRoot := onStore_moves
    (Store.counts_of_spec Store.rootEntry_spec (fun _ _ _ h => h.1) fun _ _ _ h => h.1).wellRooted
  lookupChild paths parent d name := guarded_keeps
    (Store.counts_of_spec (Store.lookupChild_spec parent d name) (fun _ _ _ h => h.1)
      fun _ _ _ h => h.1).wellRooted paths
  listChildren paths e d := guarded_keeps
    (Store.counts_of_spec (Store.listChildren_spec e d) (fun _ _ _ h => h.1)
      fun _ _ _ h => h.1).wellRooted paths
  download paths e p := guarded_keeps (download_counts e p).wellRooted paths
  dropPending _ h := ⟨h.wellFormed.of_nodes rfl rfl, h.rooted.of_nodes rfl⟩
  cached p := by
    unfold cached
    mvcgen
  put _ _ := modifyEntries_keeps_store _
  evict _ := modifyEntries_keeps_store _
  add _ _ := modifyEntries_keeps_store _
  remove _ := modifyEntries_keeps_store _
  list _ _ _ := modifyEntries_keeps_store _
  content _ := modifyContent_keeps_store _

variable {I : Volume → Prop}

/-- Once the folder above a path is found, the path has a parent. -/
theorem resolveParentFolder_parent (hr : ∀ p, Keeps I (resolve p)) (p : Path) :
    ⦃fun v => ⌜I v⌝⦄ resolveParentFolder p
    ⦃post⟨fun r v => ⌜I v ∧ p.parent? = some r.1⌝, fun _ v => ⌜I v⌝⟩⦄ := by
  unfold resolveParentFolder
  mvcgen [*, -resolve_spec]

/-! ### The operations keep the root -/

theorem createDir_wellRooted (p : Path) : Keeps (fun v => v.store.WellRooted) (createDir p) := by
  have hL := wellRooted_lookSteps
  have hw := @checkWritable_keeps (fun v => v.store.WellRooted) p
  have hx := resolveExisting_keeps (resolve_keeps hL) p
  have hpf := resolveParentFolder_keeps (resolve_keeps hL) p
  have hcf := fun paths parent => guarded_keeps (Store.createFolder_wellRooted parent p) paths
  have hE := fun f => modifyEntries_keeps_store (P := Store.WellRooted) f
  unfold createDir
  mvcgen [hw, hx, hpf, hcf, hE, -checkWritable_spec, -resolveExisting_spec,
    -resolveParentFolder_spec, -onStore_spec]

/-- A delete keeps the root: it refuses the root before it asks the store. -/
theorem delete_wellRooted (p : Path) : Keeps (fun v => v.store.WellRooted) (delete p) := by
  have hw := @checkWritable_keeps (fun v => v.store.WellRooted) p
  by_cases hp : p = Path.root
  · subst hp
    unfold delete
    rw [if_pos (Path.isRoot_iff.2 rfl)]
    mvcgen [hw, -checkWritable_spec]
  · have hL := wellRooted_lookSteps
    have hr := resolve_keeps hL p
    have hh := fun paths e => guarded_keeps (hasChildren_counts e p).wellRooted paths
    have hrm := fun paths e => guarded_keeps (Store.remove_wellRooted e hp) paths
    have hE := fun f => modifyEntries_keeps_store (P := Store.WellRooted) f
    have hC := fun f => modifyContent_keeps_store (P := Store.WellRooted) f
    unfold delete
    mvcgen [hw, hr, hh, hrm, hE, hC, -checkWritable_spec, -resolve_spec, -onStore_spec]

/-- A copy keeps the root: its target has a folder above it by the time the store copies. -/
theorem copy_wellRooted (src target : Path) (replace : Bool) :
    Keeps (fun v => v.store.WellRooted) (copy src target replace) := by
  have hL := wellRooted_lookSteps
  have hw := @checkWritable_keeps (fun v => v.store.WellRooted) target
  have hr := resolve_keeps hL src
  have hx := resolveExisting_keeps (resolve_keeps hL) target
  have hd := delete_wellRooted target
  have hpf := resolveParentFolder_parent (resolve_keeps hL) target
  have hcp := fun se parent d =>
    guarded_keeps (Store.copy_wellRooted se parent src target replace d) [src, d]
  have hE := fun f => modifyEntries_keeps_store (P := Store.WellRooted) f
  have hC := fun f => modifyContent_keeps_store (P := Store.WellRooted) f
  unfold copy
  mvcgen [hw, hr, hx, hd, hpf, hcp, hE, hC, -checkWritable_spec, -resolve_spec,
    -resolveExisting_spec, -resolveParentFolder_spec, -onStore_spec]
  all_goals
    first
    | exact ‹_ ∧ _›.1
    | exact fun h _ => h

theorem rename_wellRooted (src target : Path) :
    Keeps (fun v => v.store.WellRooted) (rename src target) := by
  have hL := wellRooted_lookSteps
  have hw := @checkWritable_keeps (fun v => v.store.WellRooted) src
  have hr := resolve_keeps hL src
  have hpf := resolveParentFolder_keeps (resolve_keeps hL) target
  have hst := fun paths se parent => guarded_keeps (Store.rename_wellRooted se parent src target) paths
  have hE := fun f => modifyEntries_keeps_store (P := Store.WellRooted) f
  have hC := fun f => modifyContent_keeps_store (P := Store.WellRooted) f
  unfold rename
  mvcgen [hw, hr, hpf, hst, hE, hC, -checkWritable_spec, -resolve_spec, -resolveParentFolder_spec,
    -onStore_spec]

theorem relocate_wellRooted (src : Path) (se : Entry) (target : Path) (into : Bool) :
    Keeps (fun v => v.store.WellRooted) (relocate src se target into) := by
  have hpf := resolveParentFolder_keeps (resolve_keeps wellRooted_lookSteps)
  have hmf := fun paths parent final =>
    guarded_keeps (Store.moveFolder_wellRooted se parent src final) paths
  have hme := fun paths parent final =>
    guarded_keeps (Store.moveEntry_wellRooted se parent src final) paths
  have hE := fun f => modifyEntries_keeps_store (P := Store.WellRooted) f
  have hC := fun f => modifyContent_keeps_store (P := Store.WellRooted) f
  unfold relocate
  mvcgen [hpf, hmf, hme, hE, hC, -resolveParentFolder_spec, -onStore_spec]

theorem move_wellRooted (src target : Path) (replace : Bool) :
    Keeps (fun v => v.store.WellRooted) (move src target replace) := by
  have hL := wellRooted_lookSteps
  have hw := @checkWritable_keeps (fun v => v.store.WellRooted) src
  have hr := resolve_keeps hL src
  have hx := resolveExisting_keeps (resolve_keeps hL) target
  have hh := fun paths e => guarded_keeps (hasChildren_counts e target).wellRooted paths
  have hd := delete_wellRooted target
  have hrl := fun se into => relocate_wellRooted src se target into
  have hrn := rename_wellRooted src target
  unfold move
  mvcgen [hw, hr, hx, hh, hd, hrl, hrn, -checkWritable_spec, -resolve_spec, -resolveExisting_spec,
    -onStore_spec]

/-- An open keeps the root, and succeeds only below it: its path has a folder above it. -/
theorem openWrite_wellRooted (p : Path) (replace append : Bool) :
    ⦃fun v => ⌜v.store.WellRooted⌝⦄ openWrite p replace append
    ⦃post⟨fun _ v => ⌜v.store.WellRooted ∧ p ≠ Path.root⌝, fun _ v => ⌜v.store.WellRooted⌝⟩⦄ := by
  have hL := wellRooted_lookSteps
  have hw := @checkWritable_keeps (fun v => v.store.WellRooted) p
  have hx := resolveExisting_keeps (resolve_keeps hL) p
  have hpf := resolveParentFolder_parent (resolve_keeps hL) p
  have hup := fun paths parent => guarded_keeps (upload_counts parent p replace append).wellRooted paths
  unfold openWrite
  mvcgen [hw, hx, hpf, hup, -checkWritable_spec, -resolveExisting_spec, -resolveParentFolder_spec,
    -onStore_spec]
  all_goals
    first
    | exact ‹_ ∧ _›.1
    | obtain ⟨-, hd⟩ := ‹_ ∧ p.parent? = some _›
      exact ⟨‹_›, Store.ne_root_of_parent? hd⟩

end Volume

namespace Mount

open Volume

/-- A hook that spares the root keeps the store well rooted: it inserts below the root, writes
over a file, or takes out a path below the root. -/
theorem Hook.wellRooted (k : Hook) (hk : k.SparesRoot) {s : Store} (h : s.WellRooted) :
    (k.apply s).WellRooted := by
  refine ⟨k.wellFormed h.wellFormed, ?_⟩
  obtain ⟨i, hi⟩ := h.rooted
  cases k with
  | write p data =>
    have hk := end_of_triple (Store.externalWrite_spec p data s) (Store.KeepsAll.refl s)
    exact ⟨i, (hk h.wellFormed.tree).2 _ i hi⟩
  | mkdir p =>
    have hk := end_of_triple (Store.externalMkdir_spec p s) (Store.KeepsAll.refl s)
    exact ⟨i, (hk h.wellFormed.tree).2 _ i hi⟩
  | remove p => exact h.rooted.detach hk
  | reportName p name => exact h.rooted.of_nodes rfl
  | lookupMiss p miss =>
    have hnodes : (s.setLookupMiss p miss).nodes = s.nodes := by
      unfold Store.setLookupMiss
      split_ifs <;> rfl
    exact h.rooted.of_nodes hnodes
  | truncate limit => exact h.rooted.of_nodes rfl
  | asyncCopy on => exact h.rooted.of_nodes rfl
  | resetCalls => exact h.rooted.of_nodes rfl

/-- Every call of the volume keeps the store well rooted. -/
theorem wellRooted_request (m : Mount) (hm : m.volume.store.WellRooted) (r : Request) :
    (m.request r).volume.store.WellRooted := by
  have hL := wellRooted_lookSteps
  cases r with
  | resolve p => exact (resolve_keeps hL p).run hm
  | refresh p => exact (refresh_keeps hL p).run hm
  | exists? p => exact (exists?_keeps (resolve_keeps hL) p).run hm
  | metadata p => exact (metadata_keeps (resolve_keeps hL) p).run hm
  | checkAccess p modes => exact (checkAccess_keeps (resolve_keeps hL) p modes).run hm
  | list d useCache => exact (list_keeps hL d useCache).run hm
  | listFiltered d keep => exact (listFiltered_keeps (list_keeps hL) d keep).run hm
  | createDir p => exact (createDir_wellRooted p).run hm
  | delete p => exact (delete_wellRooted p).run hm
  | copy src target replace => exact (copy_wellRooted src target replace).run hm
  | move src target replace => exact (move_wellRooted src target replace).run hm
  | rename src target => exact (rename_wellRooted src target).run hm
  | registerEntry p e => exact (registerEntry_keeps hL p e).run hm
  | openRead p => exact (openRead_keeps hL p).run hm
  | completeCopies => exact (completeCopies_keeps hL).run hm
  | storeRoot => exact hL.storeRoot.run hm

/-- The store is well formed with its root a folder, and no open handle is at the root. -/
structure RootSafe (m : Mount) : Prop where
  store : m.volume.store.WellRooted
  handles : ∀ n h, m.handle? n = some h → h.path ≠ Path.root

theorem rootSafe_create (o : Options) : (Mount.create o).RootSafe where
  store := ⟨Store.WellFormed.empty, 0, [], (Store.node?_empty Path.root).trans (if_pos rfl)⟩
  handles n h hh := by
    simp [handle?, Mount.create] at hh

/-- Taking a handle out of the table leaves the others as they were. -/
theorem RootSafe.erase {m : Mount} (hm : m.RootSafe) (n : Nat) :
    ∀ n' h, (m.handles.erase n).get? n' = some h → h.path ≠ Path.root := by
  intro n' h hh
  rw [Table.get?_erase] at hh
  split at hh
  · cases hh
  · exact hm.handles n' h hh

/-- A shape-safe action keeps the store well rooted and the handles off the root. -/
theorem rootSafe_act (m : Mount) (a : Action) (hm : m.RootSafe) (ha : ShapeSafe m a) :
    (m.act a).RootSafe := by
  have hu : ∀ (v : Volume) (u : Uploads), v.store.WellRooted →
      { v with uploads := u }.store.WellRooted :=
    fun _ _ h => h
  cases a with
  | request r =>
    refine ⟨wellRooted_request m hm.store r, fun n h hh => ?_⟩
    change (m.request r).handles.get? n = some h at hh
    rw [(request_handles m r).1] at hh
    exact hm.handles n h hh
  | openWrite p replace append =>
    have hv := (triple_iff_run _ _ _ _).1 (openWrite_wellRooted p replace append) m.volume hm.store
    have hup := openWrite_uploads m.volume p replace append
    rw [act_openWrite]
    revert hv hup
    rcases ((Volume.openWrite p replace append).run).run m.volume with ⟨_ | hd, w⟩
    · intro hv _
      exact ⟨hv, hm.handles⟩
    · rintro ⟨hv, hroot⟩ ⟨-, hpath, -⟩
      refine ⟨hv, fun n h hh => ?_⟩
      simp only [handle?, Table.get?_insert] at hh
      split at hh
      · cases hh
        rw [hpath]
        exact hroot
      · exact hm.handles n h hh
  | write n bytes =>
    rw [act_write]
    cases hh : m.handle? n with
    | none => exact hm
    | some h =>
      refine ⟨?_, fun n' h' hh' => ?_⟩
      · show (m.volume.write h bytes).2.store.WellRooted
        rw [volume_write_eq]
        exact hm.store
      · simp only [handle?, Table.get?_insert] at hh'
        split at hh'
        · cases hh'
          rw [(write_handle m.volume h bytes).1]
          exact hm.handles n h hh
        · exact hm.handles n' h' hh'
  | commit n =>
    rw [act_commit]
    cases hh : m.handle? n with
    | none => exact hm
    | some h =>
      have hpre : m.volume.store.WellRooted ∧ ¬ m.volume.store.Populated h.path ∧
          h.path ≠ Path.root :=
        ⟨hm.store, ha h hh, hm.handles n h hh⟩
      exact ⟨end_of_triple (commit_moves h (Store.commitUpload_wellRooted h.path h.buffer)) hpre,
        hm.erase n⟩
  | abandon n =>
    rw [act_abandon]
    cases hh : m.handle? n with
    | none => exact hm
    | some h => exact ⟨(close_keeps hu h).run hm.store, hm.erase n⟩
  | external f =>
    obtain ⟨k, hk, rfl⟩ := ha
    exact ⟨k.wellRooted hk hm.store, hm.handles⟩

/-- From a fresh mount, every run whose commits never land on a folder with children, and whose
outside changes are hooks that spare the root, keeps the root present and a folder, and the
store well formed: each other node sits in a folder that lists its name once, folders list only
single components and only children that are there, and ids are unique and below the next id. -/
theorem wellFormed_along_shapeSafe_runs (o : Options) (acts : List Action)
    (h : Along ShapeSafe (Mount.create o) acts) :
    ((Mount.create o).replay acts).volume.store.Rooted ∧
      ((Mount.create o).replay acts).volume.store.WellFormed := by
  have hr := replay_of_along rootSafe_act (rootSafe_create o) h
  exact ⟨hr.store.rooted, hr.store.wellFormed⟩

theorem wellFormed_after_commit_beside_folder :
    Along ShapeSafe (Mount.create {}) [.openWrite (Path.root.join "a") false false,
        .request (.createDir (Path.root.join "b")), .commit 0,
        .external (Hook.mkdir ((Path.root.join "b").join "c")).apply,
        .external (Hook.remove (Path.root.join "b")).apply] ∧
      ((Mount.create {}).replay [.openWrite (Path.root.join "a") false false,
        .request (.createDir (Path.root.join "b")), .commit 0,
        .external (Hook.mkdir ((Path.root.join "b").join "c")).apply,
        .external (Hook.remove (Path.root.join "b")).apply]).volume.store.Rooted ∧
      ((Mount.create {}).replay [.openWrite (Path.root.join "a") false false,
        .request (.createDir (Path.root.join "b")), .commit 0,
        .external (Hook.mkdir ((Path.root.join "b").join "c")).apply,
        .external (Hook.remove (Path.root.join "b")).apply]).volume.store.WellFormed := by
  have hb : Path.root.join "b" ≠ Path.root := Store.ne_root_of_parent? (d := Path.root) (by cbv)
  have hsafe : Along ShapeSafe (Mount.create {}) [.openWrite (Path.root.join "a") false false,
      .request (.createDir (Path.root.join "b")), .commit 0,
      .external (Hook.mkdir ((Path.root.join "b").join "c")).apply,
      .external (Hook.remove (Path.root.join "b")).apply] := by
    refine ⟨trivial, trivial, ?_, ⟨.mkdir _, trivial, rfl⟩, ⟨.remove _, hb, rfl⟩, trivial⟩
    intro h hh hpop
    obtain ⟨i, name, cs, hn⟩ := hpop
    cbv at hh
    cases hh
    cbv at hn
    cases hn
  exact ⟨hsafe, wellFormed_along_shapeSafe_runs {} _ hsafe⟩

end Mount

end FrontCache
