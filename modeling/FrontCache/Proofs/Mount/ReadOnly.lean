import FrontCache.Proofs.Mount.Uploads
import FrontCache.Proofs.Mount.Shape
/-!
# Read-only volumes

A volume made read-only refuses every change at its first step: `createDir`, `delete`, `copy`,
`move`, `rename` and `openWrite` fail with `readOnly` and leave the volume exactly as it was,
with no call of the store made and nothing cached (`changes_refused`). What is left are lookups,
listings and reads, and these are made of the store's calls that only read (`LookSteps`): they
leave the nodes alone and make none of the calls that change the tree (`Store.Unwritten`).

Main statement (`readOnly_mount_never_writes`): along every run of a mount made read-only, the
changes of other writers included, no upload handle is open and no upload is recorded, no
action of the volume's clients writes the store, every change is refused, and write access is
refused to every path that resolves.
-/
namespace FrontCache

open Std.Do

set_option mvcgen.warning false

/-- The counts of the calls that change the tree. -/
def Calls.writes (c : Calls) : List Nat :=
  [c.createFolder, c.remove, c.copy, c.moveEntry, c.moveFolder, c.rename, c.upload]

namespace Store

/-- Nothing was written since `s0`: the nodes are those of `s0`, and no call that changes the
tree was made. -/
def Unwritten (s s0 : Store) : Prop := s.nodes = s0.nodes ∧ s.calls.writes = s0.calls.writes

theorem Unwritten.refl (s : Store) : s.Unwritten s := ⟨rfl, rfl⟩

/-- A call keeps `P` when, from every store with `P`, both its posts give `P`. -/
theorem kept_of_triple {P : Store → Prop} {α : Type} {x : StoreM α}
    (h : ∀ s0, ⦃fun s => ⌜s = s0 ∧ P s0⌝⦄ x ⦃post⟨fun _ s => ⌜P s⌝, fun _ s => ⌜P s⌝⟩⦄) :
    Kept P x := by
  intro s hs
  have hrun := (triple_iff_run x _ _ _).1 (h s) s ⟨rfl, hs⟩
  revert hrun
  cases (x.run).run s with
  | mk r t => cases r <;> exact id

/-! The calls that only read count themselves and look: they write nothing. -/

theorem rootEntry_unwritten (s0 : Store) : Kept (·.Unwritten s0) rootEntry := by
  refine kept_of_triple fun s1 => ?_
  unfold rootEntry count
  mvcgen
  all_goals
    obtain ⟨rfl, h⟩ := ‹_ ∧ Unwritten _ _›
    exact h

theorem listChildren_unwritten (s0 : Store) (e : Entry) (d : Path) :
    Kept (·.Unwritten s0) (listChildren e d) := by
  refine kept_of_triple fun s1 => ?_
  unfold listChildren count check
  mvcgen
  all_goals
    obtain ⟨rfl, h⟩ := ‹_ ∧ Unwritten _ _›
    exact h

theorem lookupChild_unwritten (s0 : Store) (parent : Entry) (d : Path) (name : String) :
    Kept (·.Unwritten s0) (lookupChild parent d name) := by
  refine kept_of_triple fun s1 => ?_
  unfold lookupChild listChildren count check
  mvcgen [-listChildren_spec]
  all_goals
    obtain ⟨rfl, h⟩ := ‹_ ∧ Unwritten _ _›
    exact h

theorem download_unwritten (s0 : Store) (e : Entry) (p : Path) :
    Kept (·.Unwritten s0) (download e p) := by
  refine kept_of_triple fun s1 => ?_
  unfold download count check
  mvcgen
  all_goals
    obtain ⟨rfl, h⟩ := ‹_ ∧ Unwritten _ _›
    exact h

end Store

namespace Volume

/-- Lookups, listings and reads write nothing to the store. -/
theorem lookSteps_unwritten (s0 : Store) : LookSteps fun v => v.store.Unwritten s0 where
  storeRoot := @onStore_moves (·.Unwritten s0) (·.Unwritten s0) _ _ (Store.rootEntry_unwritten s0)
  lookupChild paths _ _ _ := guarded_keeps (Store.lookupChild_unwritten s0 _ _ _) paths
  listChildren paths _ _ := guarded_keeps (Store.listChildren_unwritten s0 _ _) paths
  download paths _ _ := guarded_keeps (Store.download_unwritten s0 _ _) paths
  dropPending _ h := h
  cached p := by
    unfold cached
    mvcgen
  put _ _ := @modifyEntries_keeps_store (·.Unwritten s0) _
  evict _ := @modifyEntries_keeps_store (·.Unwritten s0) _
  add _ _ := @modifyEntries_keeps_store (·.Unwritten s0) _
  remove _ := @modifyEntries_keeps_store (·.Unwritten s0) _
  list _ _ _ := @modifyEntries_keeps_store (·.Unwritten s0) _
  content _ := @modifyContent_keeps_store (·.Unwritten s0) _

/-- What starts by checking that the volume takes changes fails at once on a read-only
volume, and leaves it as it was. -/
theorem checkWritable_bind {α : Type} (p : Path) (x : Unit → VolM α) {v : Volume}
    (h : v.options.readOnly = true) :
    ((checkWritable p >>= x).run).run v = (.error (.readOnly p), v) := by
  have hx : ⦃fun w => ⌜w = v⌝⦄ (checkWritable p >>= x)
      ⦃post⟨fun _ _ => ⌜False⌝, fun e w => ⌜e = .readOnly p ∧ w = v⌝⟩⦄ := by
    mvcgen [checkWritable_spec]
    all_goals simp_all
  have hrun := (triple_iff_run _ _ _ _).1 hx v rfl
  revert hrun
  rcases ((checkWritable p >>= x).run).run v with ⟨_ | _, w⟩
  · rintro ⟨rfl, rfl⟩
    rfl
  · exact False.elim

/-- On a read-only volume every change is refused at once: it fails with `readOnly` on the path
it checks, before any call of the store or of the caches, and leaves the volume as it was. -/
theorem changes_refused {v : Volume} (h : v.options.readOnly = true) (p q : Path)
    (b b' : Bool) :
    ((createDir p).run).run v = (.error (.readOnly p), v) ∧
      ((delete p).run).run v = (.error (.readOnly p), v) ∧
      ((copy p q b).run).run v = (.error (.readOnly q), v) ∧
      ((move p q b).run).run v = (.error (.readOnly p), v) ∧
      ((rename p q).run).run v = (.error (.readOnly p), v) ∧
      ((openWrite p b b').run).run v = (.error (.readOnly p), v) :=
  ⟨checkWritable_bind _ _ h, checkWritable_bind _ _ h, checkWritable_bind _ _ h,
    checkWritable_bind _ _ h, checkWritable_bind _ _ h, checkWritable_bind _ _ h⟩

/-- Write access to a path that resolves is refused on a read-only volume with no upload of the
path in flight; the refusal comes after the lookup, so the volume is left as the lookup left
it. -/
theorem checkAccess_write_refused {v w : Volume} (h : v.options.readOnly = true)
    {p : Path} (hp : v.uploads.isUploading p = false) {modes : List Access}
    (hw : Access.write ∈ modes) {e : Entry} (hr : ((resolve p).run).run v = (.ok e, w)) :
    ((checkAccess p modes).run).run v = (.error (.readOnly p), w) := by
  have hw_ro : w.options.readOnly = true := by
    rw [(ok_of_triple (resolve_spec p v) hr).1.options, h]
  have hres : ⦃fun u => ⌜u = v⌝⦄ resolve p ⦃post⟨fun r u => ⌜r = e ∧ u = w⌝, fun _ _ => ⌜False⌝⟩⦄ :=
    (triple_iff_run _ _ _ _).2 fun u hu => by
      subst hu
      rw [hr]
      exact ⟨rfl, rfl⟩
  have hx : ⦃fun u => ⌜u = v⌝⦄ checkAccess p modes
      ⦃post⟨fun _ _ => ⌜False⌝, fun err u => ⌜err = .readOnly p ∧ u = w⌝⟩⦄ := by
    unfold checkAccess
    mvcgen [hres, -resolve_spec]
    case vc1 => simp_all
    all_goals
      obtain ⟨rfl, rfl⟩ := ‹_ = e ∧ _ = w›
      simp_all
  have hrun := (triple_iff_run _ _ _ _).1 hx v rfl
  revert hrun
  rcases ((checkAccess p modes).run).run v with ⟨_ | _, u⟩
  · rintro ⟨rfl, rfl⟩
    rfl
  · exact False.elim

end Volume

namespace Mount

open Volume

/-- A mount on a read-only volume, with no upload handle open and no upload recorded. -/
structure ReadOnly (m : Mount) : Prop where
  readOnly : m.volume.options.readOnly = true
  handles : ∀ n, m.handle? n = none
  records : ∀ p, m.volume.uploads.isUploading p = false

theorem ReadOnly.create {o : Options} (ho : o.readOnly = true) : (Mount.create o).ReadOnly where
  readOnly := ho
  handles _ := rfl
  records _ := rfl

/-- No primitive changes the options. -/
theorem options_frame (o : Options) : Frame fun v => v.options = o :=
  ⟨fun _ _ h => h, fun _ _ h => h, fun _ _ h _ => h⟩

variable {m : Mount}

/-- On a read-only mount a request writes nothing to the store: lookups and reads only look,
and every change is refused before it starts. -/
theorem ReadOnly.request_unwritten (hm : m.ReadOnly) (r : Request) :
    (m.request r).volume.store.Unwritten m.volume.store := by
  have hS := lookSteps_unwritten m.volume.store
  have h0 := Store.Unwritten.refl m.volume.store
  have hro := hm.readOnly
  cases r with
  | resolve p => exact (resolve_keeps hS p).run h0
  | refresh p => exact (refresh_keeps hS p).run h0
  | exists? p => exact (exists?_keeps (resolve_keeps hS) p).run h0
  | metadata p => exact (metadata_keeps (resolve_keeps hS) p).run h0
  | checkAccess p modes => exact (checkAccess_keeps (resolve_keeps hS) p modes).run h0
  | list d useCache => exact (list_keeps hS d useCache).run h0
  | listFiltered d keep => exact (listFiltered_keeps (list_keeps hS) d keep).run h0
  | registerEntry p e => exact (registerEntry_keeps hS p e).run h0
  | openRead p => exact (openRead_keeps hS p).run h0
  | completeCopies => exact (completeCopies_keeps hS).run h0
  | storeRoot => exact hS.storeRoot.run h0
  | createDir p =>
    simp only [request, run_volume, (changes_refused hro p p false false).1]
    exact h0
  | delete p =>
    simp only [request, run_volume, (changes_refused hro p p false false).2.1]
    exact h0
  | copy src target replace =>
    simp only [request, run_volume, (changes_refused hro src target replace false).2.2.1]
    exact h0
  | move src target replace =>
    simp only [request, run_volume, (changes_refused hro src target replace false).2.2.2.1]
    exact h0
  | rename src target =>
    simp only [request, run_volume, (changes_refused hro src target false false).2.2.2.2.1]
    exact h0

/-- A read-only mount stays one: an open is refused and uses up its number only, so no handle
is ever open and no upload starts; nothing else changes the options or the upload records. -/
theorem ReadOnly.act (hm : m.ReadOnly) (a : Action) : (m.act a).ReadOnly := by
  cases a with
  | request r =>
    show (m.request r).ReadOnly
    obtain ⟨hh, -⟩ := request_handles m r
    refine ⟨?_, fun n => ?_, fun p => ?_⟩
    · rw [keeps_request (options_frame _).steps m rfl r]
      exact hm.readOnly
    · rw [handle?, hh]
      exact hm.handles n
    · rw [request_uploads]
      exact hm.records p
  | openWrite p replace append =>
    rw [act_openWrite, (changes_refused hm.readOnly p p replace append).2.2.2.2.2]
    exact ⟨hm.readOnly, hm.handles, hm.records⟩
  | write n bytes =>
    rw [act_write, hm.handles n]
    exact hm
  | commit n =>
    rw [act_commit, hm.handles n]
    exact hm
  | abandon n =>
    rw [act_abandon, hm.handles n]
    exact hm
  | external f => exact ⟨hm.readOnly, hm.handles, hm.records⟩

/-- On a read-only mount no action of the volume's clients writes the store. -/
theorem ReadOnly.act_unwritten (hm : m.ReadOnly) (a : Action) (ha : ∀ f, a ≠ .external f) :
    (m.act a).volume.store.Unwritten m.volume.store := by
  cases a with
  | request r => exact hm.request_unwritten r
  | openWrite p replace append =>
    rw [act_openWrite, (changes_refused hm.readOnly p p replace append).2.2.2.2.2]
    exact Store.Unwritten.refl _
  | write n bytes =>
    rw [act_write, hm.handles n]
    exact Store.Unwritten.refl _
  | commit n =>
    rw [act_commit, hm.handles n]
    exact Store.Unwritten.refl _
  | abandon n =>
    rw [act_abandon, hm.handles n]
    exact Store.Unwritten.refl _
  | external f => exact absurd rfl (ha f)

theorem ReadOnly.replay (hm : m.ReadOnly) (acts : List Action) : (m.replay acts).ReadOnly := by
  induction acts generalizing m with
  | nil => exact hm
  | cons a rest ih => exact ih (hm.act a)

/-- A read-only volume is never written: along every run, no upload is open or recorded, no client
action changes the store's nodes or calls a primitive that changes the tree, and every change and
write access is refused at once. -/
theorem readOnly_mount_never_writes (o : Options) (ho : o.readOnly = true)
    (acts : List Action) :
    let m := (Mount.create o).replay acts
    (∀ n, m.handle? n = none) ∧ (∀ p, m.volume.uploads.isUploading p = false) ∧
      (∀ a, (∀ f, a ≠ .external f) → (m.act a).volume.store.Unwritten m.volume.store) ∧
      (∀ p q b b',
        ((createDir p).run).run m.volume = (.error (.readOnly p), m.volume) ∧
        ((delete p).run).run m.volume = (.error (.readOnly p), m.volume) ∧
        ((copy p q b).run).run m.volume = (.error (.readOnly q), m.volume) ∧
        ((move p q b).run).run m.volume = (.error (.readOnly p), m.volume) ∧
        ((rename p q).run).run m.volume = (.error (.readOnly p), m.volume) ∧
        ((Volume.openWrite p b b').run).run m.volume = (.error (.readOnly p), m.volume)) ∧
      ∀ p modes e w, Access.write ∈ modes → ((resolve p).run).run m.volume = (.ok e, w) →
        ((checkAccess p modes).run).run m.volume = (.error (.readOnly p), w) := by
  intro m
  have hm : m.ReadOnly := (ReadOnly.create ho).replay acts
  exact ⟨hm.handles, hm.records, hm.act_unwritten, changes_refused hm.readOnly,
    fun p _ _ _ hw hr => checkAccess_write_refused hm.readOnly (hm.records p) hw hr⟩

theorem readOnly_mount_after_refused_open :
    ({ readOnly := true } : Options).readOnly = true ∧
    let m := (Mount.create { readOnly := true }).replay
      [.openWrite (Path.root.join "a") false false, .request (.createDir (Path.root.join "a"))]
    (∀ n, m.handle? n = none) ∧ (∀ p, m.volume.uploads.isUploading p = false) ∧
      (∀ a, (∀ f, a ≠ .external f) → (m.act a).volume.store.Unwritten m.volume.store) ∧
      (∀ p q b b',
        ((createDir p).run).run m.volume = (.error (.readOnly p), m.volume) ∧
        ((delete p).run).run m.volume = (.error (.readOnly p), m.volume) ∧
        ((copy p q b).run).run m.volume = (.error (.readOnly q), m.volume) ∧
        ((move p q b).run).run m.volume = (.error (.readOnly p), m.volume) ∧
        ((rename p q).run).run m.volume = (.error (.readOnly p), m.volume) ∧
        ((Volume.openWrite p b b').run).run m.volume = (.error (.readOnly p), m.volume)) ∧
      ∀ p modes e w, Access.write ∈ modes → ((resolve p).run).run m.volume = (.ok e, w) →
        ((checkAccess p modes).run).run m.volume = (.error (.readOnly p), w) :=
  ⟨rfl, readOnly_mount_never_writes _ rfl _⟩

end Mount

end FrontCache
