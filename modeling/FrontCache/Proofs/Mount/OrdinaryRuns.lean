import FrontCache.Proofs.Volume.StaysOrdinary
import FrontCache.Proofs.Volume.FullFolders
import FrontCache.Proofs.Mount.RoundTrip
import FrontCache.Proofs.Mount.Shape
/-!
# Ordinary runs

A run of a mounted volume is ordinary when it starts from a fresh mount that shows every name
and allows changes, and none of its actions is one of the three that can leave a volume no
longer ordinary: registering an entry, which caches what the caller hands in; a change that
another writer makes to the store; and a commit onto a folder with children, which leaves the
children below a file. Every other action keeps the volume ordinary (`ordinary_act`), so every
state an ordinary run reaches is ordinary (`ordinary_along`).

What holds in an ordinary volume then holds along every such run: a failed change leaves the
store's nodes as they were (`failed_changes_keep_nodes_on_ordinary_runs`), no change destroys a
folder with children (`changes_keep_full_folders_on_ordinary_runs`), a move follows its table
(`move_follows_table_on_ordinary_runs`) and an upload makes its round trip
(`upload_round_trip_on_ordinary_runs`).
-/
namespace FrontCache

open Std.Do

namespace Mount

open Volume

/-- An action that keeps a volume ordinary: anything but registering an entry, a change from
outside, or a commit whose path holds a folder with children. -/
def OrdinaryStep (m : Mount) : Action → Prop
  | .request (.registerEntry _ _) => False
  | .commit n => ∀ h, m.handle? n = some h → ¬ m.volume.store.Populated h.path
  | .external _ => False
  | _ => True

theorem ordinary_request (m : Mount) (hm : m.volume.Ordinary) (r : Request)
    (hr : OrdinaryStep m (.request r)) : (m.request r).volume.Ordinary := by
  cases r with
  | resolve p => exact (resolve_keeps_ordinary p).run hm
  | refresh p => exact (refresh_ordinary p).run hm
  | exists? p => exact (exists?_ordinary p).run hm
  | metadata p => exact (metadata_ordinary p).run hm
  | checkAccess p modes => exact (checkAccess_ordinary p modes).run hm
  | list d useCache => exact (list_keeps_ordinary d useCache).run hm
  | listFiltered d keep => exact (listFiltered_ordinary d keep).run hm
  | createDir p => exact (createDir_ordinary p).run hm
  | delete p => exact (delete_keeps_ordinary p).run hm
  | copy src target replace => exact (copy_ordinary_ends src target replace).run hm
  | move src target replace => exact (move_ordinary_ends src target replace).run hm
  | rename src target => exact (rename_ordinary_ends src target).run hm
  | registerEntry p e => exact hr.elim
  | openRead p => exact (openRead_ordinary p).run hm
  | completeCopies => exact completeCopies_ordinary.run hm
  | storeRoot => exact storeRoot_ordinary.run hm

/-- Each action of an ordinary run keeps the volume ordinary. -/
theorem ordinary_act (m : Mount) (a : Action) (hm : m.volume.Ordinary) (ha : OrdinaryStep m a) :
    (m.act a).volume.Ordinary := by
  have hu : ∀ (v : Volume) (u : Uploads), v.Ordinary → Ordinary { v with uploads := u } :=
    fun _ u h => h.withUploads u
  cases a with
  | request r => exact ordinary_request m hm r ha
  | openWrite p replace append =>
    have hv := (openWrite_ordinary p replace append).run hm
    rw [act_openWrite]
    revert hv
    rcases ((Volume.openWrite p replace append).run).run m.volume with ⟨_ | _, v⟩ <;> exact id
  | write n bytes => exact keeps_write hu m hm n bytes
  | commit n =>
    rw [act_commit]
    cases hh : m.handle? n with
    | none => exact hm
    | some h => exact end_of_triple (commit_ordinary h) ⟨hm, ha h hh⟩
  | abandon n => exact keeps_abandon hu m hm n
  | external f => exact ha.elim

/-- Every state that an ordinary run reaches is ordinary. -/
theorem ordinary_along {o : Options} (hs : o.ignoreSidecars = false) (hw : o.readOnly = false)
    {acts : List Action} (h : Along OrdinaryStep (Mount.create o) acts) :
    ((Mount.create o).replay acts).volume.Ordinary :=
  replay_of_along ordinary_act (create_ordinary_of hs hw) h

/-! ### What holds along ordinary runs -/

section Runs

variable {o : Options} (acts : List Action)

/-- Along an ordinary run, a failed change leaves the store's nodes as they were: making a
folder, deleting, renaming, opening an upload, moving, and copying between two paths. -/
theorem failed_changes_keep_nodes_on_ordinary_runs (hs : o.ignoreSidecars = false)
    (hw : o.readOnly = false) (hr : Along OrdinaryStep (Mount.create o) acts) :
    let v := ((Mount.create o).replay acts).volume
    (∀ p, FailsIntact (createDir p) v) ∧ (∀ p, FailsIntact (delete p) v) ∧
      (∀ src target, FailsIntact (rename src target) v) ∧
      (∀ p replace append, FailsIntact (Volume.openWrite p replace append) v) ∧
      (∀ src target replace, FailsIntact (move src target replace) v) ∧
      (∀ src target replace, src ≠ target → FailsIntact (copy src target replace) v) := by
  intro v
  have ho : v.Ordinary := ordinary_along hs hw hr
  obtain ⟨hc, hd, hn, hop, hm, hcp⟩ := failed_changes_keep_nodes v
  exact ⟨hc, hd, hn, hop, hm ho, hcp ho⟩

theorem failed_changes_keep_nodes_after_folders :
    let acts := [Action.request (.createDir (Path.root.join "a")),
      .request (.createDir ((Path.root.join "a").join "b")),
      .openWrite ((Path.root.join "a").join "f") false false, .write 0 [1, 2]]
    Along OrdinaryStep (Mount.create {}) acts ∧
      FailsIntact (move (Path.root.join "a") ((Path.root.join "a").join "b") true)
        ((Mount.create {}).replay acts).volume ∧
      FailsIntact (copy ((Path.root.join "a").join "b") (Path.root.join "c") true)
        ((Mount.create {}).replay acts).volume := by
  intro acts
  have hr : Along OrdinaryStep (Mount.create {}) acts := ⟨trivial, trivial, trivial, trivial, trivial⟩
  have hne : (Path.root.join "a").join "b" ≠ Path.root.join "c" := by
    cbv
    intro h
    simp at h
  obtain ⟨-, -, -, -, hm, hc⟩ := failed_changes_keep_nodes_on_ordinary_runs acts rfl rfl hr
  exact ⟨hr, hm _ _ _, hc _ _ _ hne⟩

/-- Along an ordinary run, no change destroys a folder that has children: each stays, with its
id, at its path, or after a rename or a move at the path the source moved to. -/
theorem changes_keep_full_folders_on_ordinary_runs (hs : o.ignoreSidecars = false)
    (hw : o.readOnly = false) (hr : Along OrdinaryStep (Mount.create o) acts) :
    let v := ((Mount.create o).replay acts).volume
    (∀ p, FoldersKept id v (((createDir p).run).run v)) ∧
      (∀ p, FoldersKept id v (((delete p).run).run v)) ∧
      (∀ src target, FoldersKept (Store.moved src target) v (((rename src target).run).run v)) ∧
      (∀ p replace append, FoldersKept id v (((Volume.openWrite p replace append).run).run v)) ∧
      (∀ h : Handle, ¬ v.store.Populated h.path → FoldersKept id v (((Volume.commit h).run).run v)) ∧
      (∀ src target replace, FoldersKept id v (((copy src target replace).run).run v)) ∧
      (∀ src target replace,
        FoldersKept (Store.moved src (v.store.moveDest src target replace)) v
          (((move src target replace).run).run v)) := by
  intro v
  have ho : v.Ordinary := ordinary_along hs hw hr
  obtain ⟨hc, hd, hn, hop, hcm, hcp, hm⟩ := changes_keep_full_folders v
  exact ⟨hc, hd, hn, hop, hcm, hcp ho, hm ho⟩

theorem changes_keep_full_folders_after_folders :
    let acts := [Action.request (.createDir (Path.root.join "a")),
      .request (.createDir ((Path.root.join "a").join "b")),
      .openWrite ((Path.root.join "a").join "f") false false, .write 0 [1, 2]]
    Along OrdinaryStep (Mount.create {}) acts ∧
      FoldersKept id ((Mount.create {}).replay acts).volume
        (((copy ((Path.root.join "a").join "b") (Path.root.join "a") true).run).run
          ((Mount.create {}).replay acts).volume) ∧
      FoldersKept (Store.moved (Path.root.join "a")
          (((Mount.create {}).replay acts).volume.store.moveDest (Path.root.join "a")
            (Path.root.join "c") false))
        ((Mount.create {}).replay acts).volume
        (((move (Path.root.join "a") (Path.root.join "c") false).run).run
          ((Mount.create {}).replay acts).volume) := by
  intro acts
  have hr : Along OrdinaryStep (Mount.create {}) acts := ⟨trivial, trivial, trivial, trivial, trivial⟩
  obtain ⟨-, -, -, -, -, hc, hm⟩ := changes_keep_full_folders_on_ordinary_runs acts rfl rfl hr
  exact ⟨hr, hc _ _ _, hm _ _ _⟩

/-- Along an ordinary run, a move ends as its table's row: on success the store's nodes are the
table's, and on failure the table fails the same way and the nodes are as they were. -/
theorem move_follows_table_on_ordinary_runs (hs : o.ignoreSidecars = false)
    (hw : o.readOnly = false) (hr : Along OrdinaryStep (Mount.create o) acts)
    (src target : Path) (replace : Bool) :
    let v := ((Mount.create o).replay acts).volume
    EndsAs (v.store.moveTable src target replace) v (((move src target replace).run).run v) :=
  move_follows_table (ordinary_along hs hw hr) src target replace

theorem move_follows_table_after_folders :
    let acts := [Action.request (.createDir (Path.root.join "a")),
      .request (.createDir ((Path.root.join "a").join "b")),
      .openWrite ((Path.root.join "a").join "f") false false, .write 0 [1, 2]]
    Along OrdinaryStep (Mount.create {}) acts ∧
      EndsAs (((Mount.create {}).replay acts).volume.store.moveTable
          ((Path.root.join "a").join "b") (Path.root.join "c") false)
        ((Mount.create {}).replay acts).volume
        (((move ((Path.root.join "a").join "b") (Path.root.join "c") false).run).run
          ((Mount.create {}).replay acts).volume) := by
  intro acts
  have hr : Along OrdinaryStep (Mount.create {}) acts := ⟨trivial, trivial, trivial, trivial, trivial⟩
  exact ⟨hr, move_follows_table_on_ordinary_runs acts rfl rfl hr _ _ _⟩

/-- An upload's round trip along an ordinary run: once an open succeeds, write through its
handle and commit it. The commit lands, the file holds the writes after its base, and the entry
cached for it is as long as the handle's last position, the size `metadata` reported before. -/
theorem upload_round_trip_on_ordinary_runs (p : Path) (replace append : Bool)
    (ws : List (List UInt8)) (pos : Nat) (hs : o.ignoreSidecars = false) (hw : o.readOnly = false)
    (hr : Along OrdinaryStep (Mount.create o) acts)
    (hopen : (((Mount.create o).replay acts).openWrite p replace append).2.1 = .ok pos) :
    let m := (Mount.create o).replay acts
    let n := m.nextHandle
    let base := if append then (m.volume.store.readFile? p).getD [] else []
    let m1 := (m.act (.openWrite p replace append)).replay (ws.map (.write n))
    let v := (m1.act (.commit n)).volume
    pos = base.length ∧
      ∃ h e, m1.handle? n = some h ∧ h.position = pos + ws.flatten.length ∧
        (m1.run (Volume.metadata p)).1 = .ok (.provisional p h.position) ∧
        (m1.commit n).map Prod.fst = some (.ok (some e)) ∧ e.size = h.position ∧
        v.store.readFile? p = some (base ++ ws.flatten) ∧
        v.entries.entries.get? p = some e ∧
        (∃ d l, p.parent? = some d ∧ v.entries.listing? d = some l ∧ l.count p = 1) ∧
        v.content.blob? p = none ∧ v.uploads.size? p = none := by
  have hshown : (((Mount.create o).replay acts).volume.options.ignoreSidecars && p.isSidecar) =
      false := by
    rw [options_replay, hs, Bool.false_and]
  exact round_trip_of_coherent _ p replace append ws pos (ordinary_along hs hw hr).coherent
    (keeps_replay (fun _ _ h => h) wellListed_frame (Mount.create o) EntryCache.wellListed_empty
      acts) hshown hopen

/-- A file made in a folder of its own by two writes holds both. -/
theorem new_file_holds_its_writes :
    (((((Mount.create {}).replay [.request (.createDir (Path.root.join "d"))]).act
      (.openWrite ((Path.root.join "d").join "a") false false)).replay
        [.write 0 [97], .write 0 [98, 99]]).act (.commit 0)).volume.store.readFile?
          ((Path.root.join "d").join "a") = some [97, 98, 99] := by
  have hr : Along OrdinaryStep (Mount.create {}) [.request (.createDir (Path.root.join "d"))] :=
    ⟨trivial, trivial⟩
  have hopen : (((Mount.create {}).replay [.request (.createDir (Path.root.join "d"))]).openWrite
      ((Path.root.join "d").join "a") false false).2.1 = .ok 0 := by
    cbv
  obtain ⟨-, -, -, -, -, -, -, -, hread, -⟩ :=
    upload_round_trip_on_ordinary_runs _ _ false false [[97], [98, 99]] 0 rfl rfl hr hopen
  exact hread

end Runs

end Mount

end FrontCache
