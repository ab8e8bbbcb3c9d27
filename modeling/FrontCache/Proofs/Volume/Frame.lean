import FrontCache.Proofs.Volume.Resolve
import FrontCache.Proofs.Cache.Listings
import FrontCache.Volume.Change
import FrontCache.Volume.Content
/-!
# What every volume operation leaves alone

A volume operation changes the store, the content cache and the entry cache, each only
through its primitives: the store's calls, the content cache's functions and the entry
cache's own calls (`CacheStep`). A property of the volume that each primitive keeps (`Steps`)
is kept by every operation, whether it succeeds or fails (`resolve_keeps`, `createDir_keeps`,
...); lookups, listings and reads are made of the primitives that only look (`LookSteps`), so
what those keep is enough for them. A `Frame` is a property that no change of the store or the
content cache and no cache call breaks; it gives `Steps` at once (`Frame.steps`). Properties of the store's own shape
are kept by its calls for their own reasons, and give `Steps` from the store's specs. Upload
records are the one part no lookup or change touches: `openWrite_spec`, `commit_spec` and
`close_spec` say how the three upload operations move them.

The proofs run the verification condition generator over each operation with the specs of
its primitives and of the operations it calls; `resolve` and `list` call each other on
shorter paths and are done together by induction on the number of components.
-/
namespace FrontCache

namespace Volume

open Std.Do

set_option mvcgen.warning false

/-- The changes of the entry cache that volume operations make, one call at a time. -/
inductive CacheStep : EntryCache Entry → EntryCache Entry → Prop
  | get (c : EntryCache Entry) (p : Path) : CacheStep c (c.get p).2
  | put (c : EntryCache Entry) (p : Path) (e : Entry) : CacheStep c (c.put p e)
  | evict (c : EntryCache Entry) (p : Path) : CacheStep c (c.evict p).2
  | add (c : EntryCache Entry) (p : Path) (e : Entry) : CacheStep c (c.add p e)
  | remove (c : EntryCache Entry) (p : Path) : CacheStep c (c.remove p)
  | removeBelow (c : EntryCache Entry) (a : Path) : CacheStep c (c.removeBelow a).2
  | move (c : EntryCache Entry) (s t : Path) (e : Entry) : CacheStep c (c.move s t e)
  | list (c : EntryCache Entry) (ig : Bool) (dir : Path) (children : List Entry) :
      CacheStep c (recordListing dir (keptChildren ig dir children) c)

/-- A property of the volume that no change of the store or the content cache and no
cache call breaks. -/
structure Frame (I : Volume → Prop) : Prop where
  store : ∀ v s, I v → I { v with store := s }
  content : ∀ v c, I v → I { v with content := c }
  entries : ∀ v c, I v → CacheStep v.entries c → I { v with entries := c }

/-- `x` keeps `I`, whether it succeeds or fails. -/
abbrev Keeps {α : Type} (I : Volume → Prop) (x : VolM α) : Prop :=
  ⦃fun v => ⌜I v⌝⦄ x ⦃post⟨fun _ v => ⌜I v⌝, fun _ v => ⌜I v⌝⟩⦄

/-- The primitives of the volume operations, each keeping `I`: every call of the store, behind
the eviction its caller wraps around it, the drop of the finished copies, and every update of
the caches. -/
structure Steps (I : Volume → Prop) : Prop where
  storeRoot : Keeps I (Volume.onStore Store.rootEntry)
  lookupChild : ∀ paths parent d name,
    Keeps I (Volume.evictOnNotFound paths (Volume.onStore (Store.lookupChild parent d name)))
  listChildren : ∀ paths e d,
    Keeps I (Volume.evictOnNotFound paths (Volume.onStore (Store.listChildren e d)))
  hasChildren : ∀ paths e p,
    Keeps I (Volume.evictOnNotFound paths (Volume.onStore (Store.hasChildren e p)))
  removeNode : ∀ paths e p,
    Keeps I (Volume.evictOnNotFound paths (Volume.onStore (Store.remove e p)))
  createFolder : ∀ paths parent p,
    Keeps I (Volume.evictOnNotFound paths (Volume.onStore (Store.createFolder parent p)))
  copyFile : ∀ paths se parent src target replace,
    Keeps I (Volume.evictOnNotFound paths
      (Volume.onStore (Store.copy se parent src target replace)))
  renameNode : ∀ paths se parent src target,
    Keeps I (Volume.evictOnNotFound paths (Volume.onStore (Store.rename se parent src target)))
  moveFolderNode : ∀ paths se parent src target,
    Keeps I (Volume.evictOnNotFound paths
      (Volume.onStore (Store.moveFolder se parent src target)))
  moveEntryNode : ∀ paths se parent src target,
    Keeps I (Volume.evictOnNotFound paths
      (Volume.onStore (Store.moveEntry se parent src target)))
  download : ∀ paths e p,
    Keeps I (Volume.evictOnNotFound paths (Volume.onStore (Store.download e p)))
  upload : ∀ paths parent p replace append,
    Keeps I (Volume.evictOnNotFound paths
      (Volume.onStore (Store.upload parent p replace append)))
  dropPending : ∀ v, I v → I { v with store := { v.store with pending := [] } }
  cached : ∀ p, Keeps I (Volume.cached p)
  put : ∀ p e, Keeps I (Volume.modifyEntries (·.put p e))
  evict : ∀ p, Keeps I (Volume.modifyEntries fun c => (c.evict p).2)
  add : ∀ p e, Keeps I (Volume.modifyEntries (·.add p e))
  remove : ∀ p, Keeps I (Volume.modifyEntries (·.remove p))
  moveFolder : ∀ s t e, Keeps I (Volume.modifyEntries fun c => (c.removeBelow s).2.move s t e)
  moveFile : ∀ s t e, Keeps I (Volume.modifyEntries fun c => (c.remove s).add t e)
  list : ∀ ig dir children,
    Keeps I (Volume.modifyEntries (recordListing dir (keptChildren ig dir children)))
  content : ∀ f, Keeps I (Volume.modifyContent f)

/-- The primitives that lookups, listings and reads are made of, each keeping `I`: the calls
of the store that only read it, the drop of the finished copies, and the updates of the caches
that lookups make. -/
structure LookSteps (I : Volume → Prop) : Prop where
  storeRoot : Keeps I (Volume.onStore Store.rootEntry)
  lookupChild : ∀ paths parent d name,
    Keeps I (Volume.evictOnNotFound paths (Volume.onStore (Store.lookupChild parent d name)))
  listChildren : ∀ paths e d,
    Keeps I (Volume.evictOnNotFound paths (Volume.onStore (Store.listChildren e d)))
  download : ∀ paths e p,
    Keeps I (Volume.evictOnNotFound paths (Volume.onStore (Store.download e p)))
  dropPending : ∀ v, I v → I { v with store := { v.store with pending := [] } }
  cached : ∀ p, Keeps I (Volume.cached p)
  put : ∀ p e, Keeps I (Volume.modifyEntries (·.put p e))
  evict : ∀ p, Keeps I (Volume.modifyEntries fun c => (c.evict p).2)
  add : ∀ p e, Keeps I (Volume.modifyEntries (·.add p e))
  remove : ∀ p, Keeps I (Volume.modifyEntries (·.remove p))
  list : ∀ ig dir children,
    Keeps I (Volume.modifyEntries (recordListing dir (keptChildren ig dir children)))
  content : ∀ f, Keeps I (Volume.modifyContent f)

variable {I : Volume → Prop}

theorem Steps.look (hS : Steps I) : LookSteps I where
  storeRoot := hS.storeRoot
  lookupChild := hS.lookupChild
  listChildren := hS.listChildren
  download := hS.download
  dropPending := hS.dropPending
  cached := hS.cached
  put := hS.put
  evict := hS.evict
  add := hS.add
  remove := hS.remove
  list := hS.list
  content := hS.content

theorem Frame.foldl_remove (hI : Frame I) {v : Volume} (h : I v) (l : List Path) :
    I { v with entries := l.foldl EntryCache.remove v.entries } := by
  induction l generalizing v with
  | nil => exact h
  | cons p rest ih => exact ih (hI.entries v _ h (.remove _ p))

theorem Frame.modifyEntries (hI : Frame I) {f : EntryCache Entry → EntryCache Entry}
    (hf : ∀ c, CacheStep c (f c)) : Keeps I (modifyEntries f) := by
  unfold Volume.modifyEntries
  mvcgen
  rename_i v hv _
  exact hI.entries v _ hv (hf v.entries)

/-- The end state of a run that keeps `I`, from a state with `I`, has `I`. -/
theorem Keeps.run {α : Type} {x : VolM α} (h : Keeps I x) {v : Volume} (hv : I v) :
    I ((x.run).run v).2 := by
  have hrun := (triple_iff_run x I (fun _ v => I v) (fun _ v => I v)).1 h v hv
  revert hrun
  cases (x.run).run v with
  | mk r w => cases r <;> exact id

/-- A frame property is kept by every call of the store. -/
theorem Frame.onStore (hI : Frame I) {α : Type} (x : StoreM α) :
    Keeps I (Volume.onStore x) := by
  unfold Volume.onStore
  mvcgen
  all_goals exact hI.store _ _ ‹I _›

/-- A frame property is kept by every call of the store behind an eviction: on absence the
eviction only forgets cached entries. -/
theorem Frame.guarded (hI : Frame I) {α : Type} (paths : List Path) (x : StoreM α) :
    Keeps I (Volume.evictOnNotFound paths (Volume.onStore x)) := by
  refine (triple_iff_run _ _ _ _).2 fun v0 hv0 => ?_
  have h := (triple_iff_run _ _ _ _).1 (Volume.evictOnNotFound_spec paths x v0) v0 rfl
  cases hrun : ((Volume.evictOnNotFound paths (Volume.onStore x)).run).run v0 with
  | mk r v =>
    rw [hrun] at h
    cases r with
    | ok a =>
      obtain ⟨s, -, rfl⟩ := h
      exact hI.store _ _ hv0
    | error e =>
      obtain ⟨s, l, -, rfl⟩ := h
      exact hI.foldl_remove (hI.store _ s hv0) l

/-- A frame property is kept by every primitive. -/
theorem Frame.steps (hI : Frame I) : Steps I where
  storeRoot := hI.onStore _
  lookupChild paths _ _ _ := hI.guarded paths _
  listChildren paths _ _ := hI.guarded paths _
  hasChildren paths _ _ := hI.guarded paths _
  removeNode paths _ _ := hI.guarded paths _
  createFolder paths _ _ := hI.guarded paths _
  copyFile paths _ _ _ _ _ := hI.guarded paths _
  renameNode paths _ _ _ _ := hI.guarded paths _
  moveFolderNode paths _ _ _ _ := hI.guarded paths _
  moveEntryNode paths _ _ _ _ := hI.guarded paths _
  download paths _ _ := hI.guarded paths _
  upload paths _ _ _ _ := hI.guarded paths _
  dropPending v h := hI.store v _ h
  cached p := by
    unfold Volume.cached
    mvcgen
    rename_i v hv
    exact hI.entries _ _ hv (.get _ p)
  put p e := hI.modifyEntries fun c => .put c p e
  evict p := hI.modifyEntries fun c => .evict c p
  add p e := hI.modifyEntries fun c => .add c p e
  remove p := hI.modifyEntries fun c => .remove c p
  moveFolder s t e := by
    unfold Volume.modifyEntries
    mvcgen
    rename_i v hv _
    exact hI.entries { v with entries := (v.entries.removeBelow s).2 } _
      (hI.entries v _ hv (.removeBelow _ s)) (.move _ s t e)
  moveFile s t e := by
    unfold Volume.modifyEntries
    mvcgen
    rename_i v hv _
    exact hI.entries { v with entries := v.entries.remove s } _ (hI.entries v _ hv (.remove _ s))
      (.add _ t e)
  list ig dir children := hI.modifyEntries fun c => .list c ig dir children
  content f := by
    unfold Volume.modifyContent
    mvcgen
    rename_i v hv _
    exact hI.content _ _ hv

section Lookups

variable (hS : LookSteps I)
include hS

theorem screened_keeps (p : Path) {k : VolM Entry} (hk : Keeps I k) : Keeps I (screened p k) := by
  cases hS
  rw [screened]
  mvcgen [*, -cached_spec]

theorem lookRoot_keeps : Keeps I lookRoot := by
  cases hS
  rw [lookRoot]
  mvcgen [*, -onStore_spec]

theorem healMiss_keeps {d : Path} (hl : ∀ b, Keeps I (list d b)) (p : Path) :
    Keeps I (healMiss d p) := by
  cases hS
  rw [healMiss]
  mvcgen [*, -cached_spec, -list_spec]

theorem lookBelow_keeps {d : Path} (hr : Keeps I (resolve d)) (hl : ∀ b, Keeps I (list d b))
    (p : Path) (name : String) : Keeps I (lookBelow p d name) := by
  have hheal := healMiss_keeps hS hl p
  cases hS
  rw [lookBelow]
  mvcgen [*, -resolve_spec]

theorem fetchListing_keeps (dir : Path) (e : Entry) : Keeps I (fetchListing dir e) := by
  cases hS
  rw [fetchListing]
  mvcgen [*, -onStore_spec]

/-- `resolve` and `list` keep a frame property, on paths of every length. -/
theorem resolve_list_keeps (n : Nat) :
    (∀ p, p.count = n → Keeps I (resolve p)) ∧
      (∀ d b, d.count = n → Keeps I (list d b)) := by
  induction n using Nat.strong_induction_on with
  | _ n ih =>
    have hr : ∀ p, p.count = n → Keeps I (resolve p) := by
      intro p hp
      cases hs : p.split? with
      | none =>
        rw [resolve_root hs]
        exact screened_keeps hS p (lookRoot_keeps hS)
      | some dn =>
        obtain ⟨d, name⟩ := dn
        have hd : d.count < n := hp ▸ Path.count_lt_of_split? hs
        rw [resolve_below hs]
        exact screened_keeps hS p (lookBelow_keeps hS ((ih _ hd).1 d rfl)
          (fun b => (ih _ hd).2 d b rfl) p name)
    refine ⟨hr, fun d b hd => ?_⟩
    have hrd := hr d hd
    have hfetch := fetchListing_keeps hS d
    rw [list_eq]
    mvcgen [hrd, hfetch, -resolve_spec]

end Lookups

theorem resolve_keeps (hS : LookSteps I) (p : Path) : Keeps I (resolve p) :=
  (resolve_list_keeps hS p.count).1 p rfl

theorem list_keeps (hS : LookSteps I) (d : Path) (b : Bool) : Keeps I (list d b) :=
  (resolve_list_keeps hS d.count).2 d b rfl

theorem checkWritable_keeps (p : Path) : Keeps I (checkWritable p) := by
  unfold checkWritable
  mvcgen

theorem exists?_keeps (hr : ∀ p, Keeps I (resolve p)) (p : Path) : Keeps I (exists? p) := by
  unfold exists?
  mvcgen [*, -resolve_spec]
  intro v hv
  split
  · simpa using hv
  · simpa using hv

theorem refresh_keeps (hS : LookSteps I) (p : Path) : Keeps I (refresh p) := by
  have hr := resolve_keeps hS
  cases hS
  unfold refresh
  mvcgen [*, -resolve_spec]

theorem metadata_keeps (hr : ∀ p, Keeps I (resolve p)) (p : Path) : Keeps I (metadata p) := by
  unfold metadata
  mvcgen [*, -resolve_spec]

theorem checkAccess_keeps (hr : ∀ p, Keeps I (resolve p)) (p : Path) (modes : List Access) :
    Keeps I (checkAccess p modes) := by
  unfold checkAccess
  mvcgen [*, -resolve_spec]

theorem listFiltered_keeps (hl : ∀ d b, Keeps I (list d b)) (d : Path) (keep : Path → Bool) :
    Keeps I (listFiltered d keep) := by
  unfold listFiltered
  mvcgen [*, -list_spec]

theorem resolveExisting_keeps (hr : ∀ p, Keeps I (resolve p)) (p : Path) :
    Keeps I (resolveExisting p) := by
  unfold resolveExisting
  mvcgen [*, -resolve_spec]
  intro v hv
  split
  · simpa using hv
  · simpa using hv

theorem resolveParentFolder_keeps (hr : ∀ p, Keeps I (resolve p)) (p : Path) :
    Keeps I (resolveParentFolder p) := by
  unfold resolveParentFolder
  mvcgen [*, -resolve_spec]

theorem createDir_keeps (hS : Steps I) (p : Path) : Keeps I (createDir p) := by
  have hw := @checkWritable_keeps I
  have hx := resolveExisting_keeps (resolve_keeps hS.look)
  have hpf := resolveParentFolder_keeps (resolve_keeps hS.look)
  cases hS
  unfold createDir
  mvcgen [*, -checkWritable_spec, -resolveExisting_spec, -resolveParentFolder_spec, -onStore_spec]

theorem delete_keeps (hS : Steps I) (p : Path) : Keeps I (delete p) := by
  have hw := @checkWritable_keeps I
  have hr := resolve_keeps hS.look
  cases hS
  unfold delete
  mvcgen [*, -checkWritable_spec, -resolve_spec, -onStore_spec]

theorem copy_keeps (hS : Steps I) (src target : Path) (replace : Bool) :
    Keeps I (copy src target replace) := by
  have hw := @checkWritable_keeps I
  have hr := resolve_keeps hS.look
  have hx := resolveExisting_keeps (resolve_keeps hS.look)
  have hpf := resolveParentFolder_keeps (resolve_keeps hS.look)
  have hd := delete_keeps hS
  cases hS
  unfold copy
  mvcgen [*, -checkWritable_spec, -resolve_spec, -resolveExisting_spec, -resolveParentFolder_spec,
    -onStore_spec]

theorem rename_keeps (hS : Steps I) (src target : Path) : Keeps I (rename src target) := by
  have hw := @checkWritable_keeps I
  have hr := resolve_keeps hS.look
  have hpf := resolveParentFolder_keeps (resolve_keeps hS.look)
  cases hS
  unfold rename
  mvcgen [*, -checkWritable_spec, -resolve_spec, -resolveParentFolder_spec, -onStore_spec]

theorem relocate_keeps (hS : Steps I) (src : Path) (se : Entry) (target : Path) (into : Bool) :
    Keeps I (relocate src se target into) := by
  have hpf := resolveParentFolder_keeps (resolve_keeps hS.look)
  cases hS
  unfold relocate
  mvcgen [*, -resolveParentFolder_spec, -onStore_spec]

theorem move_keeps (hS : Steps I) (src target : Path) (replace : Bool) :
    Keeps I (move src target replace) := by
  have hw := @checkWritable_keeps I
  have hr := resolve_keeps hS.look
  have hx := resolveExisting_keeps (resolve_keeps hS.look)
  have hd := delete_keeps hS
  have hrl := relocate_keeps hS
  have hrn := rename_keeps hS
  cases hS
  unfold move
  mvcgen [*, -checkWritable_spec, -resolve_spec, -resolveExisting_spec, -onStore_spec]

theorem registerEntry_keeps (hS : LookSteps I) (p : Path) (e : Entry) :
    Keeps I (registerEntry p e) := by
  cases hS
  unfold registerEntry
  mvcgen [*]

theorem completeCopies_keeps (hS : LookSteps I) : Keeps I completeCopies := by
  have hdrop := hS.dropPending
  cases hS
  unfold completeCopies
  mvcgen [*] invariants
  · post⟨fun _ v => ⌜I v⌝, fun _ v => ⌜I v⌝⟩
  all_goals exact hdrop _ ‹_›

theorem openRead_keeps (hS : LookSteps I) (p : Path) : Keeps I (openRead p) := by
  have hr := resolve_keeps hS
  cases hS
  unfold openRead
  mvcgen [*, -resolve_spec, -onStore_spec]

/-! ### Upload records -/

/-- Upload records are part of every frame: no lookup or change touches them. -/
theorem Frame.uploads (hI : Frame I) (u : Uploads) : Frame fun v => I v ∧ v.uploads = u where
  store v s h := ⟨hI.store v s h.1, h.2⟩
  content v c h := ⟨hI.content v c h.1, h.2⟩
  entries v c h hc := ⟨hI.entries v c h.1 hc, h.2⟩

/-- An open keeps the frame and starts one upload, the last thing it does: it fails with the
records as they were, or returns a handle on its path holding the ticket handed out. -/
theorem openWrite_spec (hI : Frame I) (u : Uploads) (p : Path) (replace append : Bool) :
    ⦃fun v => ⌜I v ∧ v.uploads = u⌝⦄ openWrite p replace append
    ⦃post⟨fun h v => ⌜∃ w, I w ∧ v = { w with uploads := (u.start p h.position).2 } ∧
        h.path = p ∧ h.ticket = u.nextTicket⌝,
      fun _ v => ⌜I v ∧ v.uploads = u⌝⟩⦄ := by
  have hS := (hI.uploads u).steps
  have hw := @checkWritable_keeps fun v => I v ∧ v.uploads = u
  have hx := resolveExisting_keeps (resolve_keeps hS.look)
  have hpf := resolveParentFolder_keeps (resolve_keeps hS.look)
  cases hS
  unfold openWrite
  mvcgen [*, -checkWritable_spec, -resolveExisting_spec, -resolveParentFolder_spec, -onStore_spec]
  all_goals
    obtain ⟨hv, rfl⟩ := ‹I _ ∧ _›
    exact ⟨_, hv, rfl, trivial, rfl⟩

/-- A commit keeps the frame and ends the handle's own upload, whether the store takes the
bytes or not. -/
theorem commit_spec (hI : Frame I) (u : Uploads) (h : Handle) :
    ⦃fun v => ⌜I v ∧ v.uploads = u⌝⦄ commit h
    ⦃post⟨fun _ v => ⌜∃ w, I w ∧
        v = { w with uploads := (u.finish h.path h.ticket).2 }⌝,
      fun _ v => ⌜∃ w, I w ∧
        v = { w with uploads := (u.finish h.path h.ticket).2 }⌝⟩⦄ := by
  have hst := (hI.uploads u).onStore (Store.commitUpload h.path h.buffer)
  unfold commit close modifyContent modifyEntries
  mvcgen [hst, -onStore_spec]
  · obtain ⟨hv, rfl⟩ := ‹I _ ∧ _›
    exact ⟨_, hI.entries _ _ (hI.content _ _ hv) (.add _ h.path _), rfl⟩
  · obtain ⟨hv, rfl⟩ := ‹I _ ∧ _›
    exact ⟨_, hI.content _ _ hv, rfl⟩
  · obtain ⟨hv, rfl⟩ := ‹I _ ∧ _›
    exact ⟨_, hv, rfl⟩

/-- Closing a handle ends its own upload and changes nothing else. -/
theorem close_spec (u : Uploads) (h : Handle) :
    ⦃fun v => ⌜I v ∧ v.uploads = u⌝⦄ close h
    ⦃post⟨fun _ v => ⌜∃ w, I w ∧
        v = { w with uploads := (u.finish h.path h.ticket).2 }⌝,
      fun _ v => ⌜∃ w, I w ∧
        v = { w with uploads := (u.finish h.path h.ticket).2 }⌝⟩⦄ := by
  unfold close
  mvcgen
  obtain ⟨hv, rfl⟩ := ‹I _ ∧ _›
  exact ⟨_, hv, rfl⟩

/-- A run keeps `I` when, from each upload tracker, both its posts give `I`. -/
theorem keeps_of_uploads {α : Type} {x : VolM α} {Q : Uploads → α → Volume → Prop}
    {E : Uploads → Error → Volume → Prop}
    (hx : ∀ u, ⦃fun v => ⌜I v ∧ v.uploads = u⌝⦄ x
      ⦃post⟨fun a v => ⌜Q u a v⌝, fun e v => ⌜E u e v⌝⟩⦄)
    (hq : ∀ u a v, Q u a v → I v) (he : ∀ u e v, E u e v → I v) : Keeps I x := by
  refine (triple_iff_run _ _ _ _).2 fun v hv => ?_
  have h := (triple_iff_run _ _ _ _).1 (hx v.uploads) v ⟨hv, rfl⟩
  revert h
  cases (x.run).run v with
  | mk r w =>
    cases r with
    | ok a => exact hq _ a w
    | error e => exact he _ e w

section Blind

/-! A frame property that does not read the upload records is kept by the upload
operations too. -/

variable (hu : ∀ v u, I v → I { v with uploads := u })
include hu

theorem openWrite_keeps (hS : Steps I) (p : Path) (replace append : Bool) :
    Keeps I (openWrite p replace append) := by
  have hw := @checkWritable_keeps I
  have hx := resolveExisting_keeps (resolve_keeps hS.look)
  have hpf := resolveParentFolder_keeps (resolve_keeps hS.look)
  cases hS
  unfold openWrite
  mvcgen [*, -checkWritable_spec, -resolveExisting_spec, -resolveParentFolder_spec, -onStore_spec]
  all_goals exact hu _ _ ‹_›

theorem commit_keeps (hI : Frame I) (h : Handle) : Keeps I (commit h) :=
  keeps_of_uploads (commit_spec hI · h) (fun _ _ _ ⟨_, hw, hv⟩ => hv ▸ hu _ _ hw)
    fun _ _ _ ⟨_, hw, hv⟩ => hv ▸ hu _ _ hw

theorem close_keeps (h : Handle) : Keeps I (close h) :=
  keeps_of_uploads (close_spec · h) (fun _ _ _ ⟨_, hw, hv⟩ => hv ▸ hu _ _ hw)
    fun _ _ _ ⟨_, hw, hv⟩ => hv ▸ hu _ _ hw

end Blind

end Volume

end FrontCache
