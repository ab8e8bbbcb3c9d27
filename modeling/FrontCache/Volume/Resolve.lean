import FrontCache.Volume.Basic
/-!
Finding paths. `resolve` answers from the entry cache when it can; otherwise it
resolves the parent, asks the store for the child by name, and caches what it
finds. When the store does not find a child that the parent's cached listing
still names, the listing is stale: the path is forgotten and the parent listed
afresh once, which may find the child after all.

`list` answers from the cached listing when asked to and one exists; a fresh
listing keeps the children whose names are single components (and not sidecar
names when those are ignored), the first of each name, caches each of them, and
forgets the children of the old listing that are gone.

The two call each other: resolving a path may list its parent, and listing a folder
resolves it first. Each call is on a path with fewer components, or, from `list`
to `resolve`, on the same path, so the pair ends.
-/
namespace FrontCache

namespace Volume

/-- The children a fresh listing keeps, in the store's order: names that are single
components, no sidecar names when those are ignored, and the first child of each
name. -/
def keptChildren (ignoreSidecars : Bool) (dir : Path) (children : List Entry) :
    List (Path × Entry) :=
  let step (acc : List (Path × Entry)) (child : Entry) : List (Path × Entry) :=
    if !isComponentName child.name then acc
    else
      let p := dir.join child.name
      if ignoreSidecars && p.isSidecar then acc
      else if acc.any (·.1 == p) then acc
      else acc ++ [(p, child)]
  children.foldl step []

/-- Caches a fresh listing of `dir`: each kept child's entry, the listing itself, and
forgets the children of the previous listing that are not kept. -/
def recordListing (dir : Path) (kept : List (Path × Entry)) (c : EntryCache Entry) :
    EntryCache Entry :=
  let c := kept.foldl (fun c pe => c.put pe.1 pe.2) c
  let paths := kept.map Prod.fst
  let gone := ((c.listing? dir).getD []).filter fun q => !paths.contains q
  let c := gone.foldl EntryCache.remove c
  c.putListing dir paths

mutual

/-- The entry of a path. -/
def resolve (p : Path) : VolM Entry := do
  if (← get).options.ignoreSidecars && p.isSidecar then throw (.notFound p)
  if let some e ← cached p then return e
  match h : p.split? with
  | none =>
    let r ← onStore Store.rootEntry
    modifyEntries (·.put Path.root r)
    pure r
  | some (d, name) =>
    have _ : d.count < p.count := Path.count_lt_of_split? h
    let parent ← resolve d
    if !parent.isFolder then throw (.notFound p)
    match ← evictOnNotFound [d] (onStore (Store.lookupChild parent d name)) with
    | some e =>
      modifyEntries (·.add p e)
      pure e
    | none =>
      let wasListed := (← get).entries.listingContains d p
      modifyEntries (·.remove p)
      if wasListed then
        let _ ← list d false
        if let some e ← cached p then return e
      throw (.notFound p)
termination_by (p.count, 0)
decreasing_by
  all_goals exact Prod.Lex.left _ _ (by assumption)

/-- The paths of a folder's children. -/
def list (dir : Path) (useCache : Bool) : VolM (List Path) := do
  let e ← resolve dir
  if !e.isFolder then throw (.notADirectory dir)
  if useCache then
    if let some l := (← get).entries.listing? dir then return l
  let children ← evictOnNotFound [dir] (onStore (Store.listChildren e dir))
  let kept := keptChildren (← get).options.ignoreSidecars dir children
  modifyEntries (recordListing dir kept)
  pure (kept.map Prod.fst)
termination_by (dir.count, 1)
decreasing_by exact Prod.Lex.right _ (by omega)

end

/-- Whether a path resolves; absence is `false`, other failures pass. -/
def exists? (p : Path) : VolM Bool :=
  tryCatch (do let _ ← resolve p; pure true) fun e =>
    if e.isNotFound then pure false else throw e

/-- Forgets the cached entry of `p`, then resolves it. -/
def refresh (p : Path) : VolM Entry := do
  modifyEntries fun c => (c.evict p).2
  resolve p

/-- What is known of a path: the size of an upload in flight, or its entry. -/
inductive Metadata where
  | entry (e : Entry)
  | provisional (p : Path) (size : Nat)

def metadata (p : Path) : VolM Metadata := do
  match (← get).uploads.size? p with
  | some n => pure (.provisional p n)
  | none => return .entry (← resolve p)

/-- Ways of using a path. -/
inductive Access where
  | read
  | write
  | execute
  deriving DecidableEq, Repr

/-- Checks that a path may be used in all the given ways. A path being uploaded
may; otherwise writing needs a writable volume, and executing a folder. -/
def checkAccess (p : Path) (modes : List Access) : VolM Unit := do
  if (← get).uploads.isUploading p then return
  let e ← resolve p
  if (← get).options.readOnly && modes.contains .write then throw (.readOnly p)
  if e.isFolder then return
  if modes.contains .execute then throw (.accessDenied p)

/-- The cached listing of a folder, or a fresh one, with the paths that pass `keep`. -/
def listFiltered (dir : Path) (keep : Path → Bool) : VolM (List Path) := do
  return (← list dir true).filter keep

/-- The entry of `p` if it exists; absence is `none`, other failures pass. -/
def resolveExisting (p : Path) : VolM (Option Entry) :=
  tryCatch (return some (← resolve p)) fun e =>
    if e.isNotFound then pure none else throw e

/-- The folder that will hold `p`: its path and entry. The root has none. -/
def resolveParentFolder (p : Path) : VolM (Path × Entry) := do
  match p.parent? with
  | none => throw (.alreadyExists p)
  | some d =>
    let e ← resolve d
    if !e.isFolder then throw (.notADirectory d)
    pure (d, e)

end Volume

end FrontCache
