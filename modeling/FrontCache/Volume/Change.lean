import FrontCache.Volume.Resolve
/-!
Changing the tree. Every change is refused on a read-only volume before anything
else happens. After the store has done its part, the entry cache is told what
moved, and the content cache drops the blobs of the paths whose bytes changed.

A move picks its way by what is at the target: onto a missing path it moves (a
plain rename when both share a folder); onto a folder it moves into that folder,
or, when replacing, takes the place of the folder if the folder is empty; onto a
file it takes the file's place only when replacing.
-/
namespace FrontCache

namespace Volume

/-- Makes a folder at a free path under a folder. -/
def createDir (dir : Path) : VolM Entry := do
  checkWritable dir
  if (← resolveExisting dir).isSome then throw (.alreadyExists dir)
  let (d, parent) ← resolveParentFolder dir
  let e ← evictOnNotFound [d] (onStore (Store.createFolder parent dir))
  modifyEntries (·.add dir e)
  pure e

/-- Removes a file or an empty folder; the root stays. -/
def delete (p : Path) : VolM Unit := do
  checkWritable p
  if p.isRoot then throw (.unsupported p Error.rootStays)
  let e ← resolve p
  if e.isFolder then
    if ← evictOnNotFound [p] (onStore (Store.hasChildren e p)) then
      throw (.directoryNotEmpty p)
  evictOnNotFound [p] (onStore (Store.remove e p))
  modifyEntries (·.remove p)
  modifyContent (·.discard p)

/-- Copies a file; an existing target is removed first when `replace` is set. -/
def copy (src target : Path) (replace : Bool) : VolM Unit := do
  checkWritable target
  let se ← resolve src
  if se.isFolder then throw (.unsupported src Error.folderSource)
  if (← resolveExisting target).isSome then
    if !replace then throw (.alreadyExists target)
    delete target
  let (d, parent) ← resolveParentFolder target
  match ← evictOnNotFound [src, d] (onStore (Store.copy se parent src target replace)) with
  | some e => modifyEntries (·.add target e)
  | none => pure ()
  modifyContent (·.discard target)

/-- Gives `src` a new path in the same or another folder. -/
def rename (src target : Path) : VolM Entry := do
  checkWritable src
  let se ← resolve src
  let (d, parent) ← resolveParentFolder target
  let e ← evictOnNotFound [src, d] (onStore (Store.rename se parent src target))
  if se.isFolder then
    modifyEntries fun c => ((c.removeBelow src).2).move src target e
  else
    modifyEntries fun c => (c.remove src).add target e
  modifyContent fun c => (c.discard src).discard target
  pure e

/-- Moves `src` to `target`, or into the folder `target` when `into` is set. -/
def relocate (src : Path) (se : Entry) (target : Path) (into : Bool) : VolM Unit := do
  let final ← if into then
      match src.fileName? with
      | some n => pure (target.join n)
      | none => throw (.notFound src)
    else pure target
  let (d, parent) ← resolveParentFolder final
  if se.isFolder then
    let e ← evictOnNotFound [src, d] (onStore (Store.moveFolder se parent src final))
    modifyEntries fun c => ((c.removeBelow src).2).move src final e
  else
    let e ← evictOnNotFound [src, d] (onStore (Store.moveEntry se parent src final))
    modifyEntries fun c => (c.remove src).add final e
  modifyContent fun c => (c.discard src).discard final

/-- Moves a file or folder, as the table above says. -/
def move (src target : Path) (replace : Bool) : VolM Unit := do
  checkWritable src
  if src = target then return
  if src.isRoot || target.isBelow src then throw (.unsupported target Error.intoItself)
  let se ← resolve src
  match ← resolveExisting target with
  | some te =>
    if te.isFolder then
      if replace then
        if ← evictOnNotFound [target] (onStore (Store.hasChildren te target)) then
          throw (.directoryNotEmpty target)
        delete target
        relocate src se target false
      else relocate src se target true
    else
      if !replace then throw (.alreadyExists target)
      delete target
      relocate src se target false
  | none =>
    if src.parent? = target.parent? then
      let _ ← rename src target
    else relocate src se target false

/-- Caches an entry that a change finishing later produced. -/
def registerEntry (p : Path) (e : Entry) : VolM Unit := do
  modifyContent (·.discard p)
  modifyEntries (·.add p e)

/-- Takes the copies that finished later: with later copies on, each is cached and
their number returned; otherwise they are dropped. -/
def completeCopies : VolM Nat := do
  let v ← get
  let pending := v.store.pending
  set { v with store := { v.store with pending := [] } }
  if v.store.asyncCopy then
    for pe in pending do modifyEntries (·.add pe.1 pe.2)
    pure pending.length
  else pure 0

end Volume

end FrontCache
