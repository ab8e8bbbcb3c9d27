import FrontCache.Proofs.Mount.Actions
import FrontCache.Proofs.Store.WellFormed
/-!
# The shape of the store along a run

A property of the store alone is kept by every volume operation as soon as each call of the
store keeps it (`CallSteps.steps`): the caches and the upload records are no part of the store.
Being well formed (`Store.WellFormed`) is such a property. Two things change the store outside
the volume's operations: the hooks of other writers (`Hook`), which keep it well formed, and
commits, which write a file over the node at their path and keep it well formed only when that
node is not a folder with children.

Main statement: a shape-safe action, one whose commit never lands on a folder with children
and whose outside change is a hook, keeps the store well formed (`wellFormed_act`). The
condition cannot be dropped: a commit onto a folder that was made after its upload opened
leaves the folder's children below a file (`commit_over_new_folder_breaks_tree`). That the root
stays a folder needs more than each call of the store: the store's own calls may take the root
out, and only the volume's guards keep them from it (`Mount.wellFormed_along_shapeSafe_runs`).
-/
namespace FrontCache

open Std.Do

set_option mvcgen.warning false

namespace Volume

variable {P : Store → Prop}

/-- A store call run on the volume moves the store as the call does. -/
theorem onStore_moves {Q : Store → Prop} {α : Type} {x : StoreM α}
    (hx : ∀ s, P s → Q ((x.run).run s).2) :
    ⦃fun v => ⌜P v.store⌝⦄ onStore x ⦃post⟨fun _ v => ⌜Q v.store⌝, fun _ v => ⌜Q v.store⌝⟩⦄ := by
  refine (triple_iff_run _ _ _ _).2 fun v0 hv0 => ?_
  have hrun := (triple_iff_run _ _ _ _).1 (onStore_spec x v0) v0 rfl
  have hQ := hx v0.store hv0
  revert hrun
  cases ((onStore x).run).run v0 with
  | mk r v =>
    cases r with
    | ok a =>
      rintro ⟨s, hs, rfl⟩
      rw [hs] at hQ
      exact hQ
    | error e =>
      rintro ⟨s, hs, rfl⟩
      rw [hs] at hQ
      exact hQ

/-- A store call behind an eviction keeps what the call keeps: on absence the eviction only
forgets cached entries. -/
theorem guarded_keeps {α : Type} {x : StoreM α} (hx : Store.Kept P x) (paths : List Path) :
    Keeps (fun v => P v.store) (evictOnNotFound paths (onStore x)) := by
  refine (triple_iff_run _ _ _ _).2 fun v0 hv0 => ?_
  have hrun := (triple_iff_run _ _ _ _).1 (evictOnNotFound_spec paths x v0) v0 rfl
  have hP := hx v0.store hv0
  revert hrun
  cases ((evictOnNotFound paths (onStore x)).run).run v0 with
  | mk r v =>
    cases r with
    | ok a =>
      rintro ⟨s, hs, rfl⟩
      rw [hs] at hP
      exact hP
    | error e =>
      rintro ⟨s, l, hs, rfl⟩
      rw [hs] at hP
      exact hP

theorem modifyEntries_keeps_store (f : EntryCache Entry → EntryCache Entry) :
    Keeps (fun v => P v.store) (modifyEntries f) := by
  unfold modifyEntries
  mvcgen

theorem modifyContent_keeps_store (f : ContentCache → ContentCache) :
    Keeps (fun v => P v.store) (modifyContent f) := by
  unfold modifyContent
  mvcgen

/-- A commit moves the store as the store's commit does: the caches and the upload record
that it changes after are no part of the store. -/
theorem commit_moves {Q : Store → Prop} (h : Handle)
    (hx : ∀ s, P s → Q ((Store.commitUpload h.path h.buffer).run.run s).2) :
    ⦃fun v => ⌜P v.store⌝⦄ commit h ⦃post⟨fun _ v => ⌜Q v.store⌝, fun _ v => ⌜Q v.store⌝⟩⦄ := by
  have hst := onStore_moves hx
  unfold commit close modifyContent modifyEntries
  mvcgen [hst, -onStore_spec]

end Volume

/-- What each call of the store keeps, every volume operation keeps. -/
theorem Store.CallSteps.steps {P : Store → Prop} (h : Store.CallSteps P) :
    Volume.Steps fun v => P v.store where
  storeRoot := Volume.onStore_moves h.rootEntry
  lookupChild paths _ _ _ := Volume.guarded_keeps (h.lookupChild _ _ _) paths
  listChildren paths _ _ := Volume.guarded_keeps (h.listChildren _ _) paths
  hasChildren paths _ _ := Volume.guarded_keeps (h.hasChildren _ _) paths
  removeNode paths _ _ := Volume.guarded_keeps (h.remove _ _) paths
  createFolder paths _ _ := Volume.guarded_keeps (h.createFolder _ _) paths
  copyFile paths _ _ _ _ _ := Volume.guarded_keeps (h.copy _ _ _ _ _) paths
  renameNode paths _ _ _ _ := Volume.guarded_keeps (h.rename _ _ _ _) paths
  moveFolderNode paths _ _ _ _ := Volume.guarded_keeps (h.moveFolder _ _ _ _) paths
  moveEntryNode paths _ _ _ _ := Volume.guarded_keeps (h.moveEntry _ _ _ _) paths
  download paths _ _ := Volume.guarded_keeps (h.download _ _) paths
  upload paths _ _ _ _ := Volume.guarded_keeps (h.upload _ _ _ _) paths
  dropPending v hv := h.dropPending v.store hv
  cached p := by
    unfold Volume.cached
    mvcgen
  put _ _ := Volume.modifyEntries_keeps_store _
  evict _ := Volume.modifyEntries_keeps_store _
  add _ _ := Volume.modifyEntries_keeps_store _
  remove _ := Volume.modifyEntries_keeps_store _
  moveFolder _ _ _ := Volume.modifyEntries_keeps_store _
  moveFile _ _ _ := Volume.modifyEntries_keeps_store _
  list _ _ _ := Volume.modifyEntries_keeps_store _
  content _ := Volume.modifyContent_keeps_store _

namespace Mount

/-- A change that another writer makes to the store behind the volume, one of the store's
hooks. -/
inductive Hook where
  | write (p : Path) (data : List UInt8)
  | mkdir (p : Path)
  | remove (p : Path)
  | reportName (p : Path) (name : String)
  | lookupMiss (p : Path) (miss : Bool)
  | truncate (limit : Option Nat)
  | asyncCopy (on : Bool)
  | resetCalls

/-- The store after a hook; a hook that fails keeps what it did before it failed. -/
def Hook.apply : Hook → Store → Store
  | .write p data, s => ((Store.externalWrite p data).run.run s).2
  | .mkdir p, s => ((Store.externalMkdir p).run.run s).2
  | .remove p, s => s.externalRemove p
  | .reportName p name, s => s.reportName p name
  | .lookupMiss p miss, s => s.setLookupMiss p miss
  | .truncate limit, s => { s with downloadLimit := limit }
  | .asyncCopy on, s => { s with asyncCopy := on }
  | .resetCalls, s => { s with calls := {} }

/-- A hook other than removing the root: the store's other writers never take the root out. -/
def Hook.SparesRoot : Hook → Prop
  | .remove p => p ≠ Path.root
  | _ => True

/-- Every hook keeps the store well formed, also when it fails half way. -/
theorem Hook.wellFormed (k : Hook) {s : Store} (hw : s.WellFormed) : (k.apply s).WellFormed := by
  cases k with
  | write p data => exact end_of_triple (Store.externalWrite_wellFormed p data) hw
  | mkdir p => exact end_of_triple (Store.externalMkdir_wellFormed p) hw
  | remove p => exact hw.detach p
  | reportName p name => exact hw.of_nodes rfl rfl
  | lookupMiss p miss =>
    have hfields : (s.setLookupMiss p miss).nodes = s.nodes ∧
        (s.setLookupMiss p miss).nextId = s.nextId := by
      unfold Store.setLookupMiss
      split_ifs <;> exact ⟨rfl, rfl⟩
    exact hw.of_nodes hfields.1 hfields.2
  | truncate limit => exact hw.of_nodes rfl rfl
  | asyncCopy on => exact hw.of_nodes rfl rfl
  | resetCalls => exact hw.of_nodes rfl rfl

/-- Every action of a run meets `ok` in the mount where it is taken. -/
def Along (ok : Mount → Action → Prop) : Mount → List Action → Prop
  | _, [] => True
  | m, a :: rest => ok m a ∧ Along ok (m.act a) rest

/-- What each allowed action keeps, every run of allowed actions keeps. -/
theorem replay_of_along {I : Mount → Prop} {ok : Mount → Action → Prop}
    (hstep : ∀ m a, I m → ok m a → I (m.act a)) {m : Mount} (hm : I m) {acts : List Action}
    (h : Along ok m acts) : I (m.replay acts) := by
  induction acts generalizing m with
  | nil => exact hm
  | cons a rest ih => exact ih (hstep m a hm h.1) h.2

/-- An action that keeps the shape of the store: a commit whose path holds no folder with
children, an outside change that is a hook sparing the root, anything else. -/
def ShapeSafe (m : Mount) : Action → Prop
  | .commit n => ∀ h, m.handle? n = some h → ¬ m.volume.store.Populated h.path
  | .external f => ∃ k : Hook, k.SparesRoot ∧ f = k.apply
  | _ => True

/-- A shape-safe action keeps the store well formed. -/
theorem wellFormed_act (m : Mount) (a : Action) (hm : m.volume.store.WellFormed)
    (ha : ShapeSafe m a) : (m.act a).volume.store.WellFormed := by
  have hS := Store.wellFormed_callSteps.steps
  have hu : ∀ (v : Volume) (u : Uploads), v.store.WellFormed →
      { v with uploads := u }.store.WellFormed :=
    fun _ _ h => h
  cases a with
  | request r => exact keeps_request hS m hm r
  | openWrite p replace append => exact keeps_openWrite hu hS m hm p replace append
  | write n bytes => exact keeps_write hu m hm n bytes
  | commit n =>
    rw [act_commit]
    cases hh : m.handle? n with
    | none => exact hm
    | some h =>
      exact end_of_triple
        (Volume.commit_moves h (Store.commitUpload_wellFormed h.path h.buffer)) ⟨hm, ha h hh⟩
  | abandon n => exact keeps_abandon hu m hm n
  | external f =>
    obtain ⟨k, -, rfl⟩ := ha
    exact k.wellFormed hm

end Mount

end FrontCache
