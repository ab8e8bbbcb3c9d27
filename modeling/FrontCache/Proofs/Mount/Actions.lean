import FrontCache.Proofs.Volume.Frame
import FrontCache.Mount
/-!
# Runs of a mounted volume

What a client can do to a mounted volume (`Action`): call one of the volume's operations
(`Request`), open an upload, write through a handle, commit or abandon it, or let another
writer change the store behind the volume (`external`). An external change is any function
of the store, so it covers each of the store's hooks: files written and folders made from
outside, removals, reported names, lookup misses, truncated downloads, the switch for
asynchronous copies and the reset of the call counts. `replay` runs a list of actions.

Main statements: every action keeps a frame property of the volume that does not read the
upload records (`keeps_act`), so every run does (`keeps_replay`); in particular the cached
listings stay well formed in every reachable state (`listings_stay_wellListed`).
-/
namespace FrontCache

namespace Mount

/-- A call of one of the volume's operations. -/
inductive Request where
  | resolve (p : Path)
  | refresh (p : Path)
  | exists? (p : Path)
  | metadata (p : Path)
  | checkAccess (p : Path) (modes : List Volume.Access)
  | list (d : Path) (useCache : Bool)
  | listFiltered (d : Path) (keep : Path → Bool)
  | createDir (p : Path)
  | delete (p : Path)
  | copy (src target : Path) (replace : Bool)
  | move (src target : Path) (replace : Bool)
  | rename (src target : Path)
  | registerEntry (p : Path) (e : Entry)
  | openRead (p : Path)
  | completeCopies
  | storeRoot

/-- The mount after a call, its answer dropped. -/
def request (m : Mount) : Request → Mount
  | .resolve p => (m.run (Volume.resolve p)).2
  | .refresh p => (m.run (Volume.refresh p)).2
  | .exists? p => (m.run (Volume.exists? p)).2
  | .metadata p => (m.run (Volume.metadata p)).2
  | .checkAccess p modes => (m.run (Volume.checkAccess p modes)).2
  | .list d useCache => (m.run (Volume.list d useCache)).2
  | .listFiltered d keep => (m.run (Volume.listFiltered d keep)).2
  | .createDir p => (m.run (Volume.createDir p)).2
  | .delete p => (m.run (Volume.delete p)).2
  | .copy src target replace => (m.run (Volume.copy src target replace)).2
  | .move src target replace => (m.run (Volume.move src target replace)).2
  | .rename src target => (m.run (Volume.rename src target)).2
  | .registerEntry p e => (m.run (Volume.registerEntry p e)).2
  | .openRead p => (m.run (Volume.openRead p)).2
  | .completeCopies => (m.run Volume.completeCopies).2
  | .storeRoot => (m.run (Volume.onStore Store.rootEntry)).2

/-- What a client does to a mounted volume. -/
inductive Action where
  | request (r : Request)
  | openWrite (p : Path) (replace append : Bool)
  | write (n : Nat) (bytes : List UInt8)
  | commit (n : Nat)
  | abandon (n : Nat)
  | external (f : Store → Store)

/-- The mount after an action; an action on a handle that is not open changes nothing. -/
def act (m : Mount) : Action → Mount
  | .request r => m.request r
  | .openWrite p replace append => (m.openWrite p replace append).2.2
  | .write n bytes => ((m.write n bytes).map Prod.snd).getD m
  | .commit n => ((m.commit n).map Prod.snd).getD m
  | .abandon n => (m.abandon n).getD m
  | .external f => { m with volume := { m.volume with store := f m.volume.store } }

/-- The mount after a list of actions. -/
def replay (m : Mount) (acts : List Action) : Mount := acts.foldl act m

@[simp] theorem replay_nil (m : Mount) : m.replay [] = m := rfl

@[simp] theorem replay_cons (m : Mount) (a : Action) (acts : List Action) :
    m.replay (a :: acts) = (m.act a).replay acts := rfl

@[simp] theorem run_volume {α : Type} (m : Mount) (x : VolM α) :
    (m.run x).2.volume = ((x.run).run m.volume).2 := rfl

@[simp] theorem run_handles {α : Type} (m : Mount) (x : VolM α) :
    (m.run x).2.handles = m.handles := rfl

@[simp] theorem run_nextHandle {α : Type} (m : Mount) (x : VolM α) :
    (m.run x).2.nextHandle = m.nextHandle := rfl

/-- A write through a handle changes only the upload records of the volume. -/
theorem volume_write_eq (v : Volume) (h : Handle) (bytes : List UInt8) :
    (v.write h bytes).2 = { v with uploads := (v.write h bytes).2.uploads } := by
  unfold Volume.write
  split <;> rfl

/-! The handle actions, by the outcome of the volume operation they run. -/

theorem act_openWrite (m : Mount) (p : Path) (replace append : Bool) :
    m.act (.openWrite p replace append) =
      match ((Volume.openWrite p replace append).run).run m.volume with
      | (.ok h, v) =>
        { volume := v, handles := m.handles.insert m.nextHandle h, nextHandle := m.nextHandle + 1 }
      | (.error _, v) => { m with volume := v, nextHandle := m.nextHandle + 1 } := by
  dsimp only [act]
  unfold Mount.openWrite Mount.run
  dsimp only
  rcases ((Volume.openWrite p replace append).run).run m.volume with ⟨_ | _, v⟩ <;> rfl

theorem act_write (m : Mount) (n : Nat) (bytes : List UInt8) :
    m.act (.write n bytes) =
      match m.handle? n with
      | some h =>
        { m with volume := (m.volume.write h bytes).2,
                 handles := m.handles.insert n (m.volume.write h bytes).1 }
      | none => m := by
  dsimp only [act]
  unfold Mount.write
  cases m.handle? n <;> rfl

theorem act_commit (m : Mount) (n : Nat) :
    m.act (.commit n) =
      match m.handle? n with
      | some h => { m with volume := (((Volume.commit h).run).run m.volume).2,
                           handles := m.handles.erase n }
      | none => m := by
  dsimp only [act]
  unfold Mount.commit
  cases m.handle? n <;> rfl

theorem act_abandon (m : Mount) (n : Nat) :
    m.act (.abandon n) =
      match m.handle? n with
      | some h => { m with volume := (((Volume.close h).run).run m.volume).2,
                           handles := m.handles.erase n }
      | none => m := by
  dsimp only [act]
  unfold Mount.abandon
  cases m.handle? n <;> rfl

/-! ### Properties kept along a run -/

section Keeps

open Volume

variable {I : Volume → Prop}

/-- A call keeps every property that the primitives keep. -/
theorem keeps_request (hS : Steps I) (m : Mount) (hm : I m.volume) (r : Request) :
    I (m.request r).volume := by
  cases r with
  | resolve p => exact (resolve_keeps hS.look p).run hm
  | refresh p => exact (refresh_keeps hS.look p).run hm
  | exists? p => exact (exists?_keeps (resolve_keeps hS.look) p).run hm
  | metadata p => exact (metadata_keeps (resolve_keeps hS.look) p).run hm
  | checkAccess p modes => exact (checkAccess_keeps (resolve_keeps hS.look) p modes).run hm
  | list d useCache => exact (list_keeps hS.look d useCache).run hm
  | listFiltered d keep => exact (listFiltered_keeps (list_keeps hS.look) d keep).run hm
  | createDir p => exact (createDir_keeps hS p).run hm
  | delete p => exact (delete_keeps hS p).run hm
  | copy src target replace => exact (copy_keeps hS src target replace).run hm
  | move src target replace => exact (move_keeps hS src target replace).run hm
  | rename src target => exact (rename_keeps hS src target).run hm
  | registerEntry p e => exact (registerEntry_keeps hS.look p e).run hm
  | openRead p => exact (openRead_keeps hS.look p).run hm
  | completeCopies => exact (completeCopies_keeps hS.look).run hm
  | storeRoot => exact hS.storeRoot.run hm

variable (hu : ∀ v u, I v → I { v with uploads := u })
include hu

/-! The handle actions keep what the primitives keep, when it does not read the upload
records; a commit apart, which also writes the store. -/

theorem keeps_openWrite (hS : Steps I) (m : Mount) (hm : I m.volume) (p : Path)
    (replace append : Bool) : I (m.act (.openWrite p replace append)).volume := by
  have hv := (openWrite_keeps hu hS p replace append).run hm
  rw [act_openWrite]
  revert hv
  rcases ((Volume.openWrite p replace append).run).run m.volume with ⟨_ | _, v⟩ <;> exact id

theorem keeps_write (m : Mount) (hm : I m.volume) (n : Nat) (bytes : List UInt8) :
    I (m.act (.write n bytes)).volume := by
  rw [act_write]
  cases m.handle? n with
  | none => exact hm
  | some h =>
    show I (m.volume.write h bytes).2
    rw [volume_write_eq]
    exact hu _ _ hm

theorem keeps_abandon (m : Mount) (hm : I m.volume) (n : Nat) :
    I (m.act (.abandon n)).volume := by
  rw [act_abandon]
  cases m.handle? n with
  | none => exact hm
  | some h => exact (close_keeps hu h).run hm

variable (hI : Frame I)
include hI

/-- An action keeps every frame property that does not read the upload records. -/
theorem keeps_act (m : Mount) (hm : I m.volume) (a : Action) : I (m.act a).volume := by
  cases a with
  | request r => exact keeps_request hI.steps m hm r
  | openWrite p replace append => exact keeps_openWrite hu hI.steps m hm p replace append
  | write n bytes => exact keeps_write hu m hm n bytes
  | commit n =>
    rw [act_commit]
    cases m.handle? n with
    | none => exact hm
    | some h => exact (commit_keeps hu hI h).run hm
  | abandon n => exact keeps_abandon hu m hm n
  | external f => exact hI.store _ _ hm

/-- Every run keeps every frame property that does not read the upload records. -/
theorem keeps_replay (m : Mount) (hm : I m.volume) (acts : List Action) :
    I (m.replay acts).volume := by
  induction acts generalizing m with
  | nil => exact hm
  | cons a rest ih => exact ih (m.act a) (keeps_act hu hI m hm a)

end Keeps

/-! ### The shape of the store is not a frame property

A commit writes over whatever node sits at the handle's path. An upload opened while its
path was free can commit after a folder, with children, was made there: the folder becomes a
file and its children are left below a file. -/

theorem commit_over_new_folder_breaks_tree :
    ¬ ((Mount.create {}).replay [.openWrite (Path.root.join "a") false false,
        .request (.createDir (Path.root.join "a")),
        .request (.createDir ((Path.root.join "a").join "b")), .commit 0]).volume.store.Tree := by
  intro ht
  have hchild : (((Mount.create {}).replay [.openWrite (Path.root.join "a") false false,
      .request (.createDir (Path.root.join "a")),
      .request (.createDir ((Path.root.join "a").join "b")),
      .commit 0]).volume.store.node? ((Path.root.join "a").join "b")).isSome = true := by
    cbv
  have hfile : (((Mount.create {}).replay [.openWrite (Path.root.join "a") false false,
      .request (.createDir (Path.root.join "a")),
      .request (.createDir ((Path.root.join "a").join "b")),
      .commit 0]).volume.store.node? (Path.root.join "a")).map Node.body = some (.file []) := by
    cbv
  have hsplit : ((Path.root.join "a").join "b").split? = some (Path.root.join "a", "b") := by
    cbv
  obtain ⟨n, hn⟩ := Option.isSome_iff_exists.1 hchild
  obtain ⟨id, cs, hparent, -⟩ := ht.up _ n _ _ hn hsplit
  rw [hparent] at hfile
  cases hfile

/-! ### Cached listings -/

/-- Well-formed listings are a frame property: each cache call keeps them. -/
theorem wellListed_frame : Volume.Frame fun v => v.entries.WellListed where
  store _ _ h := h
  content _ _ h := h
  entries _ _ h hc := by
    cases hc with
    | get p => exact h.get p
    | put p e => exact h.put p e
    | evict p => exact h.evict p
    | add p e => exact h.add p e
    | remove p => exact h.remove p
    | removeBelow a => exact h.removeBelow a
    | move s t e => exact h.move s t e
    | list ig dir children => exact h.recordListing ig dir children

/-- Every listing cached names children of its folder, none twice: after any fair sequence of
cache calls from an empty cache, and in every state a mounted volume reaches. -/
theorem listings_stay_wellListed {α : Type} :
    (∀ ops : List (EntryCache.Op α), (∀ o ∈ ops, o.Fair) →
        (EntryCache.run ops).WellListed) ∧
      ∀ (o : Options) (acts : List Action),
        ((Mount.create o).replay acts).volume.entries.WellListed :=
  ⟨EntryCache.wellListed_run, fun _ acts =>
    keeps_replay (fun _ _ h => h) wellListed_frame _ EntryCache.wellListed_empty acts⟩

/-- Listings put, extended, moved, removed and dropped below a folder, each put listing naming
distinct children of its folder, stay well formed. -/
theorem wellListed_after_listings_and_moves :
    let a := Path.root.join "a"
    let d := Path.root.join "d"
    let ops : List (EntryCache.Op Entry) := [.putListing Path.root [a, Path.root.join "b"],
      .add (a.join "c") { id := 3 }, .move a d { id := 1, isFolder := true },
      .putListing d [d.join "c", d.join "e"], .remove (Path.root.join "b"), .evict (d.join "c"),
      .removeBelow d]
    (∀ o ∈ ops, o.Fair) ∧ (EntryCache.run ops).WellListed := by
  intro a d ops
  have hab : a ≠ Path.root.join "b" := by
    simp only [a]
    cbv
    intro h
    simp at h
  have hce : d.join "c" ≠ d.join "e" := by
    simp only [d]
    cbv
    intro h
    simp at h
  have h : ∀ o ∈ ops, o.Fair := by
    intro o ho
    simp only [ops, List.mem_cons, List.not_mem_nil, or_false] at ho
    rcases ho with rfl | rfl | rfl | rfl | rfl | rfl | rfl
    · refine ⟨List.nodup_cons.2 ⟨by simpa using hab, List.nodup_singleton _⟩, ?_⟩
      intro q hq
      simp only [List.mem_cons, List.not_mem_nil, or_false] at hq
      rcases hq with rfl | rfl <;> exact Path.parent?_join _ (by cbv)
    · trivial
    · trivial
    · refine ⟨List.nodup_cons.2 ⟨by simpa using hce, List.nodup_singleton _⟩, ?_⟩
      intro q hq
      simp only [List.mem_cons, List.not_mem_nil, or_false] at hq
      rcases hq with rfl | rfl <;> exact Path.parent?_join _ (by cbv)
    · trivial
    · trivial
    · trivial
  exact ⟨h, listings_stay_wellListed.1 _ h⟩

/-- Well formed is not complete. A folder move forgets the listings below the source; looking
up one child of a moved folder then starts its listing afresh with that child alone, and a
listing from the cache misses the other. -/
theorem cached_listing_misses_moved_child :
    ((((Mount.create {}).replay [.request (.createDir (Path.root.join "a")),
        .request (.createDir ((Path.root.join "a").join "c")),
        .openWrite (((Path.root.join "a").join "c").join "x") false false, .commit 0,
        .openWrite (((Path.root.join "a").join "c").join "y") false false, .commit 1,
        .request (.rename (Path.root.join "a") (Path.root.join "b")),
        .request (.resolve (((Path.root.join "b").join "c").join "x"))]).run
          (Volume.list ((Path.root.join "b").join "c") true)).1 =
      .ok [((Path.root.join "b").join "c").join "x"]) ∧
    ((((Mount.create {}).replay [.request (.createDir (Path.root.join "a")),
        .request (.createDir ((Path.root.join "a").join "c")),
        .openWrite (((Path.root.join "a").join "c").join "x") false false, .commit 0,
        .openWrite (((Path.root.join "a").join "c").join "y") false false, .commit 1,
        .request (.rename (Path.root.join "a") (Path.root.join "b")),
        .request (.resolve (((Path.root.join "b").join "c").join "x"))]).run
          (Volume.list ((Path.root.join "b").join "c") false)).1 =
      .ok [((Path.root.join "b").join "c").join "x",
        ((Path.root.join "b").join "c").join "y"]) := by
  constructor
  · cbv
  · cbv

end Mount

end FrontCache
