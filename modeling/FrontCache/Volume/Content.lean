import FrontCache.Volume.Resolve
/-!
Reading and writing file contents. A read goes through the content cache unless
the volume reads straight from the store. A write opens an upload handle that
gathers the bytes; the tracker knows the upload's size meanwhile, and committing
hands the bytes to the store in one piece. A handle ends by committing or by
being abandoned, and its end closes its own upload record only, never one a later
handle on the same path started.
-/
namespace FrontCache

/-- An open upload: where it goes, its ticket, how far it has got, and the bytes
the store will receive. -/
structure Handle where
  path : Path
  ticket : Nat
  position : Nat
  buffer : List UInt8
  deriving DecidableEq

namespace Volume

/-- The bytes of a file. -/
def openRead (p : Path) : VolM (List UInt8) := do
  let e ← resolve p
  if e.isFolder then throw (.isADirectory p)
  let download := evictOnNotFound [p] (onStore (Store.download e p))
  if (← get).options.disableFileCache then download
  else
    let (found, c) := (← get).content.consult p e.size
    modifyContent fun _ => c
    match found with
    | .bypass => download
    | .hit b => pure b
    | .miss =>
      let bytes ← download
      modifyContent (·.keep p e.size bytes)
      pure bytes

/-- Opens an upload to `p`. An existing file needs `replace` or `append`; when
appending, the upload starts from the file's size. -/
def openWrite (p : Path) (replace append : Bool) : VolM Handle := do
  checkWritable p
  let mut initial := 0
  if let some e ← resolveExisting p then
    if e.isFolder then throw (.isADirectory p)
    if !replace && !append then throw (.alreadyExists p)
    if append then initial := e.size
  let (d, parent) ← resolveParentFolder p
  let buffer ← evictOnNotFound [d] (onStore (Store.upload parent p replace append))
  let v ← get
  let (ticket, uploads) := v.uploads.start p initial
  set { v with uploads }
  pure ⟨p, ticket, initial, buffer⟩

/-- Adds bytes to an upload; a write of nothing changes nothing. -/
def write (v : Volume) (h : Handle) (bytes : List UInt8) : Handle × Volume :=
  if bytes.isEmpty then (h, v)
  else
    let h := { h with position := h.position + bytes.length, buffer := h.buffer ++ bytes }
    (h, { v with uploads := v.uploads.observe h.path h.position })

/-- Ends a handle's own upload record. -/
def close (h : Handle) : VolM Unit :=
  modify fun v => { v with uploads := (v.uploads.finish h.path h.ticket).2 }

/-- Hands an upload's bytes to the store and caches the new entry; the handle ends
whether or not the store took them. -/
def commit (h : Handle) : VolM (Option Entry) := do
  let r : Except Error (Option Entry) ←
    tryCatch (return .ok (← onStore (Store.commitUpload h.path h.buffer))) fun e => pure (.error e)
  match r with
  | .error e =>
    close h
    throw e
  | .ok committed =>
    modifyContent (·.discard h.path)
    if let some e := committed then modifyEntries (·.add h.path e)
    close h
    pure committed

end Volume

end FrontCache
