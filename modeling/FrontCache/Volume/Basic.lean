import FrontCache.Options
import FrontCache.Uploads
import FrontCache.EntryCache
import FrontCache.ContentCache
import FrontCache.Store.Ops
/-!
A volume: the store seen through an entry cache and a content cache, with the
uploads in flight and the options it was made with. Operations on a volume may
fail; whatever they changed before failing (cache entries dropped, calls counted)
stays changed.

When the store answers that something is absent, the cached entries that led to
the question are stale; `evictOnNotFound` forgets them before passing the failure
on.
-/
namespace FrontCache

structure Volume where
  store : Store := Store.empty
  entries : EntryCache Entry := {}
  content : ContentCache
  uploads : Uploads := {}
  options : Options

/-- A computation on a volume that may fail; what it did before failing stays. -/
abbrev VolM := ExceptT Error (StateM Volume)

namespace Volume

/-- A volume over an empty store; the content cache is off when the options say so. -/
def create (o : Options) : Volume :=
  { content := if o.disableFileCache then .disabled else .enabled, options := o }

/-- Runs a store computation on the volume's store. -/
def onStore {α : Type} (x : StoreM α) : VolM α := do
  let v ← get
  let (r, s) := (x.run).run v.store
  set { v with store := s }
  match r with
  | .ok a => pure a
  | .error e => throw e

def modifyEntries (f : EntryCache Entry → EntryCache Entry) : VolM Unit :=
  modify fun v => { v with entries := f v.entries }

def modifyContent (f : ContentCache → ContentCache) : VolM Unit :=
  modify fun v => { v with content := f v.content }

/-- The cached entry of `p`, counting a hit or a miss. -/
def cached (p : Path) : VolM (Option Entry) := do
  let v ← get
  let (e, c) := v.entries.get p
  set { v with entries := c }
  pure e

/-- Runs a store computation; if it fails for absence, forgets the given paths. -/
def evictOnNotFound {α : Type} (paths : List Path) (x : VolM α) : VolM α :=
  tryCatch x fun e => do
    if e.isNotFound then
      for p in paths do modifyEntries (·.remove p)
    throw e

/-- Fails with `readOnly` when the volume refuses changes. -/
def checkWritable (p : Path) : VolM Unit := do
  if (← get).options.readOnly then throw (.readOnly p)

end Volume

end FrontCache
